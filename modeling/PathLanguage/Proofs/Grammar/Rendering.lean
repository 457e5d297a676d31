/- Rendering: the tokens of an expression, with parentheses only around what binds more loosely
than its place allows, and the expressions that a scope lets a text have. Written out with a space
between any two, tokens are read as they are if each of them can stand where it does. -/
import PathLanguage.Expr.Grammar
import PathLanguage.Proofs.Token.Spacing

namespace PathLanguage

open Lexer

namespace Token

/-- The token as a text has it; a literal stands between quotes that it does not contain. -/
def chars : Token → List Char
  | .literal s =>
    let quote := if '"' ∈ s.toList then '\'' else '"'
    quote :: s.toList ++ [quote]
  | t => t.display.toList

/-- Whether a token is what its text is read as where an operand has just ended, or has not. -/
def Fits (afterOperand : Bool) : Token → Prop
  | .literal s => ¬ ('"' ∈ s.toList ∧ '\'' ∈ s.toList)
  | .number s => IsNumber s.toList
  | .name s => IsName s.toList ∧ afterOperand = false
  | .prefixWildcard s => IsSimpleName s.toList
  | .function s => IsName s.toList ∧ nodeTypes.contains s = false ∧ afterOperand = false
  | .nodeType s => nodeTypes.contains s = true
  | .star | .openParen => afterOperand = false
  | .arithmetic .times | .arithmetic .div | .arithmetic .mod | .logical _ => afterOperand = true
  | _ => True

/-- Tokens that can follow one another, the first of them behind an operand or not; the last flag
tells whether they end in an operand. -/
def Flows (afterOperand : Bool) : List Token → Bool → Prop
  | [], ends => afterOperand = ends
  | t :: rest, ends => t.Fits afterOperand ∧ Flows t.endsOperand rest ends

variable {afterOperand ends : Bool} {t : Token} {ts : List Token}

theorem Flows.append {us : List Token} {middle : Bool} (h : Flows afterOperand ts middle)
    (h' : Flows middle us ends) : Flows afterOperand (ts ++ us) ends := by
  induction ts generalizing afterOperand with
  | nil =>
    obtain rfl : afterOperand = middle := h
    exact h'
  | cons t ts ih => exact ⟨h.1, ih h.2⟩

theorem Fits.written (h : t.Fits afterOperand) : t.WrittenAs t.chars := by
  cases t with
  | literal s =>
    by_cases hdouble : '"' ∈ s.toList
    · exact ⟨'\'', .inr rfl, fun hsingle => h ⟨hdouble, hsingle⟩, by simp [chars, hdouble]⟩
    · exact ⟨'"', .inl rfl, hdouble, by simp [chars, hdouble]⟩
  | _ => rfl

theorem Fits.stands (h : t.Fits afterOperand) : t.Stands afterOperand := by
  have hnone {s : String} (hafter : afterOperand = false) :
      afterOperand = true → operatorNamed? s = none := by
    rw [hafter]
    exact nofun
  cases t with
  | name s => exact ⟨h.1, hnone h.2⟩
  | function s => exact ⟨h.1, h.2.1, hnone h.2.2⟩
  | arithmetic op => cases op <;> exact h
  | openParen => trivial
  | _ => exact h

/-- Tokens that flow can follow one another: behind a name there is room for an operator only. -/
theorem Flows.follow (h : Flows afterOperand ts ends) : Follow afterOperand ts := by
  induction ts generalizing afterOperand with
  | nil => trivial
  | cons t rest ih =>
    refine ⟨h.1.stands, ?_, ih h.2⟩
    rintro s rfl hparen
    obtain ⟨more, rfl⟩ := List.head?_eq_some_iff.mp hparen
    have hfits : true = false := h.2.1
    cases hfits

theorem Flows.written (h : Flows afterOperand ts ends) :
    List.Forall₂ WrittenAs ts (ts.map chars) := by
  induction ts generalizing afterOperand with
  | nil => exact .nil
  | cons t rest ih => exact .cons h.1.written (ih h.2)

end Token

namespace TokenList

open Token

/-- Tokens written out with a space between any two. -/
def spelled : List Token → List Char
  | [] => []
  | [t] => t.chars
  | t :: u :: rest => t.chars ++ ' ' :: spelled (u :: rest)

theorem spelled_eq_intercalate (ts : List Token) :
    spelled ts = [' '].intercalate (ts.map Token.chars) := by
  induction ts using spelled.induct with
  | case1 => rfl
  | case2 t => rw [spelled, List.map_singleton, List.intercalate_singleton]
  | case3 t u rest ih =>
    rw [spelled, ih]
    simp only [List.map_cons, List.intercalate_cons_cons, List.append_assoc, List.singleton_append]

/-- Tokens that flow are what their text is read as. -/
theorem ofText_spelled {ends : Bool} {ts : List Token} (h : Flows false ts ends) :
    (ofText (String.ofList (spelled ts))).tokens.map (·.token) = ts ∧
      (ofText (String.ofList (spelled ts))).fault = none := by
  rw [spelled_eq_intercalate]
  exact (ofText_written h.follow h.written).symm

end TokenList

open Lexer

namespace Scope

variable (S : Scope)

/-- A name that a scope resolves to an expanded one. -/
structure Names (text : String) (n : ExpandedName) : Prop where
  spelled : IsName text.toList
  resolved : S.makeName text = .ok n

/-- A name that a scope binds to a variable. -/
structure Refers (text : String) (b : Binding) : Prop where
  spelled : IsName text.toList
  bound : ∃ n, S.makeName text = .ok n ∧ S.bindVariable n = .ok b

/-- A prefix that a scope declares for a namespace. -/
structure Declares (declared uri : String) : Prop where
  spelled : IsSimpleName declared.toList
  resolved : S.uriForPrefix declared = .ok uri

end Scope

/-- Digits that have a number as their value. -/
structure Number.Denoted (digits : String) (n : Number) : Prop where
  spelled : IsNumber digits.toList
  value : Number.ofText digits = n

/-- How names and numbers are written: names of nodes and of host functions, variables, the prefixes
of namespaces, and digits. -/
structure Spelling where
  name : ExpandedName → String
  «variable» : Binding → String
  declared : String → String
  function : ExpandedName → String
  digits : Number → String

namespace Spelling

variable (w : Spelling) (S : Scope)

abbrev Names (n : ExpandedName) : Prop := S.Names (w.name n) n

abbrev Refers (b : Binding) : Prop := S.Refers (w.variable b) b

abbrev Declares (uri : String) : Prop := S.Declares (w.declared uri) uri

abbrev Denotes (n : Number) : Prop := Number.Denoted (w.digits n) n

end Spelling

/-- A text with a prefix stands for a function of a namespace other than that of the set functions;
`available` tells whether somebody offers it. -/
def Scope.CallsAs (S : Scope) (text : String) (n : ExpandedName) (uri : String)
    (available : Bool) : Prop :=
  ∃ declared localName, text = declared ++ ":" ++ localName ∧
    IsSimpleName declared.toList ∧ IsSimpleName localName.toList ∧
    S.uriForPrefix declared = .ok uri ∧ uri ≠ Name.setsNamespace ∧ n = .make (some uri) localName ∧
    (S.isExtensionNamespace uri || S.isFunctionAvailable n) = available

/-- A text that one of the two kinds of quotes can stand around. -/
def Quotable (s : String) : Prop := ¬ ('"' ∈ s.toList ∧ '\'' ∈ s.toList)

/-- Whether a step along an axis can meet texts, comments and processing instructions. -/
def Axis.meetsContent : Axis → Bool
  | .attribute | .namespaces => false
  | _ => true

namespace NodeTest

/-- The tests that a text can ask for in a step along an axis. -/
def Grammatical (S : Scope) (w : Spelling) (along : Axis) : NodeTest → Prop
  | .any | .nothing => True
  | .anyChild => False
  | .ofKind k =>
    k = along.principalKind ∨
      along.meetsContent = true ∧ (k = .text ∨ k = .comment ∨ k = .instruction)
  | .named k n =>
    k = along.principalKind ∧ w.Names S n ∨
      along.meetsContent = true ∧ k = .instruction ∧ n.uri = none ∧
        Name.isUnqualified n.localName.toList = true
  | .inNamespace k uri => k = along.principalKind ∧ w.Declares S uri

/-- The tokens of a test; an empty target is no name, so that nothing passes. -/
def tokens (w : Spelling) (along : Axis) : NodeTest → List Token
  | .any => [.nodeType "node", .closeParen]
  | .ofKind k =>
    if k = along.principalKind then [.star] else [.nodeType k.label, .closeParen]
  | .named k n =>
    if k = along.principalKind then [.name (w.name n)]
    else [.nodeType "processing-instruction", .literal n.localName, .closeParen]
  | .inNamespace _ uri => [.prefixWildcard (w.declared uri)]
  | .nothing | .anyChild => [.nodeType "processing-instruction", .literal "", .closeParen]

end NodeTest

/-- How strongly operators bind, from 0 for the loosest one. -/
def Connective.strength : Connective → Nat
  | .or => 0
  | .and => 1

def Comparison.strength (op : Comparison) : Nat := if op.isEquality then 2 else 3

def ArithmeticOp.strength : ArithmeticOp → Nat
  | .plus | .minus => 4
  | .times | .div | .mod => 5

namespace Expr

/-- How strongly an expression binds: as its operator does, 6 with a minus sign, 7 for a union, 8
for a path, 9 for a filter and 10 for what stands on its own. -/
def level : Expr → Nat
  | .logical op .. => op.strength
  | .compare op .. => op.strength
  | .arithmetic op .. => op.strength
  | .negate _ => 6
  | .set .union .. => 7
  | .path .. | .contextNode | .parentNode => 8
  | .filter .. => 9
  | _ => 10

/-- Tokens of an expression of some strength, in parentheses where it binds too loosely. -/
def enclosed (wanted strength : Nat) (ts : List Token) : List Token :=
  if wanted ≤ strength then ts else .openParen :: ts ++ [.closeParen]

/-- Operands on both sides of an operator; on the right one as loose as the operator is enclosed. -/
def infixTokens (strength : Nat) (op : Token) (leftLevel : Nat) (left : List Token)
    (rightLevel : Nat) (right : List Token) : List Token :=
  enclosed strength leftLevel left ++ op :: enclosed (strength + 1) rightLevel right

/-- What stands before the first step of a path, given the tokens of its start. -/
def startTokens : Expr → List Token → List Token
  | .root, _ => [.slash]
  | .contextNode, _ => []
  | _, ts => ts ++ [.slash]

def predicateTokens (predicates : List (List Token)) : List Token :=
  predicates.flatMap fun ts => .openBracket :: ts ++ [.closeBracket]

/-- Arguments behind a first one, each after a comma. -/
def moreTokens (args : List (List Token)) : List Token := args.flatMap fun ts => .comma :: ts

/-- The arguments of a call with the parenthesis that closes it. -/
def argumentTokens : List (List Token) → List Token
  | [] => [.closeParen]
  | ts :: rest => ts ++ (moreTokens rest ++ [.closeParen])

/-- The name of a set function or set operation with its prefix. -/
def setFunction (w : Spelling) (localName : String) : Token :=
  .function (w.declared Name.setsNamespace ++ ":" ++ localName)

def systemFunction (w : Spelling) (f : SystemFunction) : Token :=
  if f.isSetFunction then setFunction w f.signature.name else .function f.signature.name

mutual

/-- The tokens of an expression, without parentheses around it; the root by itself has them. -/
def bare (w : Spelling) : Expr → List Token
  | .value (.string s) => [.literal s]
  | .value (.number n) => [.number (w.digits n)]
  | .root => [.openParen, .slash, .closeParen]
  | .contextNode => [.dot]
  | .parentNode => [.twoDots]
  | .currentNode => [.function "current", .closeParen]
  | .path start along test predicates =>
    startTokens start (enclosed 8 start.level (bare w start)) ++
      .axis along :: test.tokens w along ++ predicateTokens (bareAll w predicates)
  | .filter base predicate =>
    enclosed 9 base.level (bare w base) ++ (.openBracket :: bare w predicate ++ [.closeBracket])
  | .set .union l r => infixTokens 7 .bar l.level (bare w l) r.level (bare w r)
  | .set .intersect l r => setFunction w "intersection" :: argumentTokens [bare w l, bare w r]
  | .set .except l r => setFunction w "difference" :: argumentTokens [bare w l, bare w r]
  | .distinct base => setFunction w "distinct" :: argumentTokens [bare w base]
  | .distinctBy base key => setFunction w "distinct" :: argumentTokens [bare w base, bare w key]
  | .logical op l r =>
    infixTokens op.strength (.logical op) l.level (bare w l) r.level (bare w r)
  | .compare op l r =>
    infixTokens op.strength (.comparison op) l.level (bare w l) r.level (bare w r)
  | .arithmetic op l r =>
    infixTokens op.strength (.arithmetic op) l.level (bare w l) r.level (bare w r)
  | .negate e => .arithmetic .minus :: enclosed 6 e.level (bare w e)
  | .call f args _ _ => systemFunction w f :: argumentTokens (bareAll w args)
  | .extension name args => .function (w.function name) :: argumentTokens (bareAll w args)
  | .failure (.unavailableLibrary _ name) => [.function name, .closeParen]
  | .reference b => [.dollar, .name (w.variable b)]
  | _ => []

def bareAll (w : Spelling) : List Expr → List (List Token)
  | [] => []
  | e :: rest => bare w e :: bareAll w rest

end

/-- The tokens of an expression where only those of some strength may stand without parentheses. -/
def tokens (w : Spelling) (wanted : Nat) (e : Expr) : List Token :=
  enclosed wanted e.level (e.bare w)

/-- The text of an expression, with spaces between its tokens. -/
def render (w : Spelling) (e : Expr) : String := String.ofList (TokenList.spelled (e.bare w))

/-- An expression that may stand where nodes are wanted. -/
def MayBeNodes (e : Expr) : Prop := e.type = .nodeSet ∨ e.type = .any

mutual

/-- The expressions that a text can have in a scope, with a spelling that the scope resolves. -/
def Grammatical (S : Scope) (w : Spelling) : Expr → Prop
  | .value (.string s) => Quotable s
  | .value (.number n) => w.Denotes n
  | .root | .contextNode | .parentNode | .currentNode => True
  | .path start along test predicates =>
    Grammatical S w start ∧ start.MayBeNodes ∧ test.Grammatical S w along ∧
      GrammaticalAll S w predicates
  | .filter base predicate => Grammatical S w base ∧ base.MayBeNodes ∧ Grammatical S w predicate
  | .set op l r =>
    (op = .union ∨ w.Declares S Name.setsNamespace) ∧ (Grammatical S w l ∧ l.MayBeNodes) ∧
      Grammatical S w r ∧ r.MayBeNodes
  | .distinct base => w.Declares S Name.setsNamespace ∧ Grammatical S w base ∧ base.MayBeNodes
  | .distinctBy base key =>
    w.Declares S Name.setsNamespace ∧ (Grammatical S w base ∧ base.MayBeNodes) ∧
      Grammatical S w key
  | .logical _ l r | .compare _ l r | .arithmetic _ l r => Grammatical S w l ∧ Grammatical S w r
  | .negate e => Grammatical S w e
  | .call f args bound scope =>
    bound = none ∧ scope = some S ∧ f ≠ .current ∧ f.arityFault? args.length = none ∧
      (f = .key → S.allowsKey = true) ∧
      (f.isSetFunction = true → w.Declares S Name.setsNamespace) ∧ GrammaticalAll S w args
  | .extension name args =>
    (∃ uri, S.CallsAs (w.function name) name uri true) ∧ GrammaticalAll S w args
  | .failure f =>
    ∃ text name uri, f = .unavailableLibrary uri text ∧ S.CallsAs text name uri false
  | .reference b => w.Refers S b
  | _ => False

def GrammaticalAll (S : Scope) (w : Spelling) : List Expr → Prop
  | [] => True
  | e :: rest => Grammatical S w e ∧ GrammaticalAll S w rest

end

end Expr

section flows

open Token (Flows)
open Expr

variable {S : Scope} {w : Spelling} {wanted strength : Nat} {ts : List Token}

/-- A literal that is a name, or empty, has no quotes. -/
theorem quotable_of_name {s : String} (h : Name.isUnqualified s.toList = true) : Quotable s := by
  rintro ⟨hq, -⟩
  cases hs : s.toList with
  | nil => simp [hs] at hq
  | cons c rest =>
    simp only [hs, Name.isUnqualified, Bool.and_eq_true, List.all_eq_true] at h hq
    rcases List.mem_cons.mp hq with rfl | hq
    · exact absurd h.1 (by decide)
    · exact absurd (h.2 _ hq) (by decide)

theorem NodeTest.tokens_flow {along : Axis} {test : NodeTest} (h : test.Grammatical S w along) :
    Flows false (test.tokens w along) true := by
  cases test with
  | any => exact ⟨rfl, trivial, rfl⟩
  | nothing => exact ⟨rfl, by simp [Token.Fits], trivial, rfl⟩
  | anyChild => exact h.elim
  | ofKind k =>
    rw [tokens]
    split
    · exact ⟨rfl, rfl⟩
    · next hk =>
      rcases h with h | ⟨-, rfl | rfl | rfl⟩
      · exact absurd h hk
      · exact ⟨rfl, trivial, rfl⟩
      · exact ⟨rfl, trivial, rfl⟩
      · exact ⟨rfl, trivial, rfl⟩
  | named k n =>
    rw [tokens]
    split
    · next hk =>
      rcases h with ⟨-, h⟩ | ⟨-, rfl, -⟩
      · exact ⟨⟨h.spelled, rfl⟩, rfl⟩
      · cases along <;> cases hk
    · next hk =>
      rcases h with ⟨h, -⟩ | ⟨-, -, -, h⟩
      · exact absurd h hk
      · exact ⟨rfl, quotable_of_name h, trivial, rfl⟩
  | inNamespace k uri => exact ⟨h.2.spelled, rfl⟩

theorem isName_qualified {declared localName : String} (hd : IsSimpleName declared.toList)
    (hl : IsSimpleName localName.toList) :
    (Token.function (declared ++ ":" ++ localName)).Fits false := by
  have hchars : (declared ++ ":" ++ localName).toList =
      declared.toList ++ ':' :: localName.toList := by simp
  refine ⟨.inr ⟨_, _, hchars, hd, hl⟩, ?_, rfl⟩
  rw [Bool.eq_false_iff]
  intro hmem
  have hcolon : ':' ∈ (declared ++ ":" ++ localName).toList := by
    rw [hchars]
    exact List.mem_append_right _ (.head _)
  simp only [nodeTypes, List.contains_iff_mem, List.mem_cons, List.not_mem_nil, or_false] at hmem
  rcases hmem with h | h | h | h <;> rw [h] at hcolon <;> exact absurd hcolon (by decide)

theorem Scope.CallsAs.fits {text : String} {n : ExpandedName} {uri : String} {available : Bool}
    (h : S.CallsAs text n uri available) : (Token.function text).Fits false := by
  obtain ⟨declared, localName, rfl, hd, hl, -⟩ := h
  exact isName_qualified hd hl

theorem SystemFunction.isSimpleName (f : SystemFunction) :
    IsSimpleName f.signature.name.toList := by
  cases f <;> exact isSimpleName_of_all rfl

theorem systemFunction_fits {f : SystemFunction}
    (h : f.isSetFunction = true → w.Declares S Name.setsNamespace) :
    (systemFunction w f).Fits false := by
  rw [systemFunction]
  split
  · next hf => exact isName_qualified (h hf).spelled f.isSimpleName
  · refine ⟨.inl f.isSimpleName, ?_, rfl⟩
    cases f <;> rfl

theorem enclosed_flow (h : Flows false ts true) : Flows false (enclosed wanted strength ts) true := by
  rw [enclosed]
  split
  · exact h
  · exact ⟨rfl, h.append ⟨trivial, rfl⟩⟩

theorem infixTokens_flow {op : Token} {leftLevel rightLevel : Nat} {left right : List Token}
    (hl : Flows false left true) (hop : op.Fits true) (hends : op.endsOperand = false)
    (hr : Flows false right true) :
    Flows false (infixTokens strength op leftLevel left rightLevel right) true := by
  apply (enclosed_flow hl).append
  refine ⟨hop, ?_⟩
  rw [hends]
  exact enclosed_flow hr

theorem predicateTokens_flow {predicates : List (List Token)}
    (h : ∀ ts ∈ predicates, Flows false ts true) :
    Flows true (predicateTokens predicates) true := by
  induction predicates with
  | nil => exact rfl
  | cons ts rest ih =>
    have hp : Flows true (.openBracket :: ts ++ [.closeBracket]) true :=
      ⟨trivial, (h ts (.head _)).append ⟨trivial, rfl⟩⟩
    exact hp.append (ih fun us hus => h us (.tail _ hus))

theorem argumentTokens_flow {args : List (List Token)} (h : ∀ ts ∈ args, Flows false ts true) :
    Flows false (argumentTokens args) true := by
  have hmore (rest : List (List Token)) (hrest : ∀ ts ∈ rest, Flows false ts true) :
      Flows true (moreTokens rest ++ [.closeParen]) true := by
    induction rest with
    | nil => exact ⟨trivial, rfl⟩
    | cons ts rest ih =>
      have hfirst : Flows true (.comma :: ts) true := ⟨trivial, hrest ts (.head _)⟩
      have hrest := ih fun us hus => hrest us (.tail _ hus)
      simpa [moreTokens] using hfirst.append hrest
  cases args with
  | nil => exact ⟨trivial, rfl⟩
  | cons ts rest => exact (h ts (.head _)).append (hmore rest fun us hus => h us (.tail _ hus))

theorem setCall_flow {localName : String} {args : List (List Token)}
    (h : w.Declares S Name.setsNamespace) (hname : IsSimpleName localName.toList)
    (hargs : ∀ ts ∈ args, Flows false ts true) :
    Flows false (setFunction w localName :: argumentTokens args) true :=
  ⟨isName_qualified h.spelled hname, argumentTokens_flow hargs⟩

theorem systemFunction_endsOperand (f : SystemFunction) :
    (systemFunction w f).endsOperand = false := by
  rw [systemFunction]
  split <;> rfl

theorem startTokens_flow (start : Expr) (h : Flows false ts true) :
    Flows false (startTokens start ts) false := by
  have hother : Flows false (ts ++ [.slash]) false := h.append ⟨trivial, rfl⟩
  cases start with
  | root => exact ⟨trivial, rfl⟩
  | contextNode => exact rfl
  | _ => exact hother

mutual

/-- What is rendered flows: every token can stand where it does. -/
theorem Expr.bare_flow : ∀ {e : Expr}, e.Grammatical S w → Flows false (e.bare w) true
  | .value (.string _), h => ⟨h, rfl⟩
  | .value (.number _), h => ⟨h.spelled, rfl⟩
  | .root, _ => ⟨rfl, trivial, trivial, rfl⟩
  | .contextNode, _ | .parentNode, _ => ⟨trivial, rfl⟩
  | .currentNode, _ => ⟨⟨.inl (isSimpleName_of_all rfl), rfl, rfl⟩, trivial, rfl⟩
  | .path start along test predicates, ⟨hstart, _, htest, hpredicates⟩ => by
    have henclosed : Flows false (enclosed 8 start.level (start.bare w)) true :=
      enclosed_flow (Expr.bare_flow hstart)
    have hs := startTokens_flow start henclosed
    have ht : Flows false (.axis along :: test.tokens w along) true :=
      ⟨trivial, NodeTest.tokens_flow htest⟩
    exact (hs.append ht).append (predicateTokens_flow (bareAll_flow hpredicates))
  | .filter _ predicate, ⟨hbase, _, hpredicate⟩ => by
    have hp : Flows true (.openBracket :: predicate.bare w ++ [.closeBracket]) true :=
      ⟨trivial, (Expr.bare_flow hpredicate).append ⟨trivial, rfl⟩⟩
    exact (enclosed_flow (Expr.bare_flow hbase)).append hp
  | .set .union _ _, ⟨_, ⟨hl, _⟩, hr, _⟩ =>
    infixTokens_flow (Expr.bare_flow hl) trivial rfl (Expr.bare_flow hr)
  | .set .intersect _ _, ⟨hset, ⟨hl, _⟩, hr, _⟩ | .set .except _ _, ⟨hset, ⟨hl, _⟩, hr, _⟩ =>
    setCall_flow (hset.resolve_left nofun) (isSimpleName_of_all rfl)
      (List.forall_mem_cons.mpr
        ⟨Expr.bare_flow hl, List.forall_mem_singleton.mpr (Expr.bare_flow hr)⟩)
  | .distinct _, ⟨hset, hbase, _⟩ =>
    setCall_flow hset (isSimpleName_of_all rfl) (List.forall_mem_singleton.mpr (Expr.bare_flow hbase))
  | .distinctBy _ _, ⟨hset, ⟨hbase, _⟩, hkey⟩ =>
    setCall_flow hset (isSimpleName_of_all rfl)
      (List.forall_mem_cons.mpr
        ⟨Expr.bare_flow hbase, List.forall_mem_singleton.mpr (Expr.bare_flow hkey)⟩)
  | .logical _ _ _, ⟨hl, hr⟩ => infixTokens_flow (Expr.bare_flow hl) rfl rfl (Expr.bare_flow hr)
  | .compare _ _ _, ⟨hl, hr⟩ => infixTokens_flow (Expr.bare_flow hl) trivial rfl (Expr.bare_flow hr)
  | .arithmetic op _ _, ⟨hl, hr⟩ => by
    have hop : (Token.arithmetic op).Fits true := by cases op <;> first | rfl | trivial
    exact infixTokens_flow (Expr.bare_flow hl) hop rfl (Expr.bare_flow hr)
  | .negate _, h => ⟨trivial, enclosed_flow (Expr.bare_flow h)⟩
  | .call _ _ _ _, ⟨_, _, _, _, _, hset, hargs⟩ => by
    refine ⟨systemFunction_fits hset, ?_⟩
    rw [systemFunction_endsOperand]
    exact argumentTokens_flow (bareAll_flow hargs)
  | .extension _ _, ⟨⟨_, h⟩, hargs⟩ => ⟨h.fits, argumentTokens_flow (bareAll_flow hargs)⟩
  | .failure _, ⟨_, _, _, rfl, h⟩ => ⟨h.fits, trivial, rfl⟩
  | .reference _, h => ⟨trivial, ⟨h.spelled, rfl⟩, rfl⟩

theorem bareAll_flow : ∀ {es : List Expr}, GrammaticalAll S w es →
    ∀ ts ∈ bareAll w es, Flows false ts true
  | [], _ => nofun
  | _ :: _, ⟨h, hs⟩ => List.forall_mem_cons.mpr ⟨Expr.bare_flow h, bareAll_flow hs⟩

end

end flows

end PathLanguage
