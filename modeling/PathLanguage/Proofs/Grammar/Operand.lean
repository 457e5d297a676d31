/- What stands inside operands: tests of nodes, steps with their predicates, arguments, and the calls
of functions; each is read back from its tokens. -/
import PathLanguage.Proofs.Grammar.Reading
import PathLanguage.Proofs.Token.Names

namespace PathLanguage.Grammar

open Reader Expr Lexer

variable {S : Scope} {w : Spelling} {src : Source} {nested : Reader Expr} {rest : List Token}

/-- A source whose tokens are all there, read in a scope. -/
structure Reads (S : Scope) (src : Source) : Prop where
  whole : src.fault = none
  scope : src.scope = S

section tests

theorem lies_of_meetsContent {along : Axis} (h : along.meetsContent = true) :
    (along == .attribute || along == .namespaces) = false := by
  cases along <;> first | rfl | cases h

variable (hsrc : Reads S src)
include hsrc

theorem resolve_takes {text : String} {n : ExpandedName} (h : S.makeName text = .ok n) :
    Takes src (resolve text) [] n rest := by
  apply Takes.read
  rw [hsrc.scope, h]
  exact Takes.pure

/-- The test behind the name of a kind, with the parenthesis that closes it. -/
theorem kindTest_takes {along : Axis} {kind : String} {test : NodeTest} {p : List Token}
    (h : Takes src (kindTest kind) p test (.closeParen :: rest))
    (hfits : (test != .any && (along == .attribute || along == .namespaces)) = true →
      test = .nothing) :
    Takes src (nodeTest along) (.nodeType kind :: p ++ [.closeParen]) test rest := by
  apply Takes.peek
  apply Takes.advance hsrc.whole
  apply Takes.bind (q := [.closeParen]) h
  apply Takes.take hsrc.whole
  split
  · next hmeets =>
    rw [hfits hmeets]
    exact Takes.pure
  · exact Takes.pure

theorem nodeTest_takes {along : Axis} {test : NodeTest} (h : test.Grammatical S w along) :
    Takes src (nodeTest along) (test.tokens w along) test rest := by
  have hcontent {k : NodeKind} (hk : k = .text ∨ k = .comment ∨ k = .instruction) :
      Takes src (kindTest k.label) [] (.ofKind k) (.closeParen :: rest) := by
    rcases hk with rfl | rfl | rfl
    · exact Takes.pure
    · exact Takes.pure
    · apply Takes.peek
      exact Takes.pure
  have htarget (target : String) :
      Takes src (kindTest "processing-instruction") [.literal target]
        (if Name.isUnqualified target.toList then .named .instruction (.unqualified target)
          else .nothing) (.closeParen :: rest) := by
    apply Takes.peek
    apply Takes.advance hsrc.whole
    exact Takes.pure
  have houtside {t : NodeTest} (hmeets : along.meetsContent = true) :
      (t != .any && (along == .attribute || along == .namespaces)) = true → t = .nothing := by
    rw [lies_of_meetsContent hmeets, Bool.and_false]
    nofun
  cases test with
  | any => exact kindTest_takes hsrc (p := []) Takes.pure (by simp)
  | nothing => exact kindTest_takes hsrc (htarget "") fun _ => rfl
  | anyChild => exact h.elim
  | ofKind k =>
    rw [NodeTest.tokens]
    split
    · next hk =>
      subst hk
      apply Takes.peek
      apply Takes.advance hsrc.whole
      exact Takes.pure
    · next hk =>
      obtain ⟨hmeets, hk⟩ := h.resolve_left hk
      exact kindTest_takes hsrc (hcontent hk) (houtside hmeets)
  | named k n =>
    rw [NodeTest.tokens]
    split
    · next hk =>
      subst hk
      rcases h with ⟨-, h⟩ | ⟨-, hk, -⟩
      · apply Takes.peek
        apply Takes.bind (p := []) (resolve_takes hsrc h.resolved)
        apply Takes.advance hsrc.whole
        exact Takes.pure
      · cases along <;> cases hk
    · next hk =>
      obtain ⟨hmeets, rfl, huri, hname⟩ := h.resolve_left fun h => hk h.1
      have ht := htarget n.localName
      rw [if_pos hname] at ht
      have hn : ExpandedName.unqualified n.localName = n := by
        cases n
        cases huri
        rfl
      rw [hn] at ht
      exact kindTest_takes hsrc ht (houtside hmeets)
  | inNamespace k uri =>
    obtain ⟨rfl, h⟩ := h
    apply Takes.peek
    apply Takes.read
    rw [hsrc.scope]
    apply Takes.lift h.resolved
    apply Takes.advance hsrc.whole
    exact Takes.pure

end tests

section steps

theorem tokens_begin (w : Spelling) (along : Axis) (test : NodeTest) :
    ∃ t ts, test.tokens w along = t :: ts ∧ t.beginsNodeTest = true := by
  cases test with
  | ofKind k | named k n =>
    rw [NodeTest.tokens]
    split
    · exact ⟨_, _, rfl, rfl⟩
    · exact ⟨_, _, rfl, rfl⟩
  | _ => exact ⟨_, _, rfl, rfl⟩

/-- Expressions in brackets, as many as there are. -/
theorem bracketedUpTo_takes (hsrc : Reads S src) {predicates : List Expr}
    (h : ∀ e ∈ predicates, ∀ rest, rest.head? = some .closeBracket →
      Takes src nested (e.bare w) e rest)
    (hrest : rest.head? ≠ some .openBracket) {n : Nat} (hn : predicates.length ≤ n) :
    Takes src (bracketedUpTo nested n) (predicateTokens (bareAll w predicates)) predicates
      rest := by
  induction predicates generalizing n with
  | nil =>
    cases n with
    | zero => exact Takes.pure
    | succ n =>
      apply Takes.peek
      rw [if_neg (by exact hrest)]
      exact Takes.pure
  | cons e predicates ih =>
    cases n with
    | zero => cases hn
    | succ n =>
      have hmore := ih (fun e he => h e (.tail _ he)) (Nat.le_of_succ_le_succ hn)
      apply Takes.of_eq (p := .openBracket :: (e.bare w ++
        (.closeBracket :: predicateTokens (bareAll w predicates))))
      · apply Takes.peek
        rw [if_pos (by rfl)]
        apply Takes.advance hsrc.whole
        apply Takes.bind (h e (.head _) _ rfl)
        apply Takes.take hsrc.whole
        exact hmore.map (e :: ·)
      · simp [predicateTokens, bareAll]

theorem bracketed_takes (hsrc : Reads S src) {predicates : List Expr}
    (h : ∀ e ∈ predicates, ∀ rest, rest.head? = some .closeBracket →
      Takes src nested (e.bare w) e rest)
    (hrest : rest.head? ≠ some .openBracket) :
    Takes src (bracketed nested) (predicateTokens (bareAll w predicates)) predicates rest := by
  have hlength : predicates.length ≤ (predicateTokens (bareAll w predicates)).length := by
    clear h
    induction predicates with
    | nil => exact Nat.zero_le _
    | cons e predicates ih =>
      simp only [predicateTokens, bareAll, List.flatMap_cons, List.length_append,
        List.length_cons] at ih ⊢
      omega
  apply Takes.remaining
  apply bracketedUpTo_takes hsrc h hrest
  rw [List.length_append]
  omega

/-- A step that names its axis. -/
theorem step_takes (hsrc : Reads S src) {along : Axis} {test : NodeTest} {predicates : List Expr}
    (htest : test.Grammatical S w along)
    (h : ∀ e ∈ predicates, ∀ rest, rest.head? = some .closeBracket →
      Takes src nested (e.bare w) e rest)
    (hrest : rest.head? ≠ some .openBracket) :
    Takes src (step nested)
      (.axis along :: (test.tokens w along ++ predicateTokens (bareAll w predicates)))
      (fun start => .path start along test predicates) rest := by
  apply Takes.peek
  have haxis : Takes src stepAxis [.axis along] along
      (test.tokens w along ++ predicateTokens (bareAll w predicates) ++ rest) := by
    apply Takes.peek
    apply Takes.advance hsrc.whole
    obtain ⟨t, ts, htokens, hbegins⟩ := tokens_begin w along test
    rw [htokens]
    intro ps hps
    have hat : atNodeTest src ps = .ok (true, ps) := by
      rw [atNodeTest, run_peek, hps]
      simp only [List.nil_append, List.cons_append, List.head?_cons, Option.any_some, hbegins]
      rfl
    rw [run_bind_ok hat]
    exact ⟨ps, rfl, hps⟩
  apply Takes.bind (p := [.axis along]) haxis
  apply Takes.bind (nodeTest_takes hsrc htest)
  exact (bracketed_takes hsrc h hrest).map _

end steps

section calls

theorem argumentsUpTo_takes (hsrc : Reads S src) {args : List Expr}
    (h : ∀ e ∈ args, ∀ rest, (rest.head? = some .comma ∨ rest.head? = some .closeParen) →
      Takes src nested (e.bare w) e rest) {n : Nat} (hn : args.length ≤ n) :
    Takes src (argumentsUpTo nested n) (moreTokens (bareAll w args)) args
      (.closeParen :: rest) := by
  induction args generalizing n with
  | nil =>
    cases n with
    | zero => exact Takes.pure
    | succ n => exact Takes.peek Takes.pure
  | cons e args ih =>
    cases n with
    | zero => cases hn
    | succ n =>
      have hmore := ih (fun e he => h e (.tail _ he)) (Nat.le_of_succ_le_succ hn)
      have hends : (moreTokens (bareAll w args) ++ .closeParen :: rest).head? = some .comma ∨
          (moreTokens (bareAll w args) ++ .closeParen :: rest).head? = some .closeParen := by
        cases args with
        | nil => exact .inr rfl
        | cons _ _ => exact .inl rfl
      change Takes src _ (.comma :: (e.bare w ++ moreTokens (bareAll w args))) _ _
      apply Takes.peek
      rw [if_pos (by rfl)]
      apply Takes.advance hsrc.whole
      apply Takes.bind (h e (.head _) _ hends)
      exact hmore.map (e :: ·)

/-- The arguments of a call with the parenthesis behind them. -/
theorem arguments_takes (hsrc : Reads S src) {args : List Expr}
    (hbegin : ∀ e ∈ args, (e.bare w).head? ≠ some .closeParen ∧ e.bare w ≠ [])
    (h : ∀ e ∈ args, ∀ rest, (rest.head? = some .comma ∨ rest.head? = some .closeParen) →
      Takes src nested (e.bare w) e rest) :
    Takes src (arguments nested) (argumentTokens (bareAll w args)) args rest := by
  apply Takes.peek
  cases args with
  | nil =>
    rw [if_pos (by rfl)]
    apply Takes.advance hsrc.whole
    exact Takes.pure
  | cons e args =>
    obtain ⟨hhead, hne⟩ := hbegin e (.head _)
    have hopen : (argumentTokens (bareAll w (e :: args)) ++ rest).head? ≠ some .closeParen := by
      simp only [bareAll, argumentTokens]
      cases hts : e.bare w with
      | nil => exact absurd hts hne
      | cons t ts =>
        rw [hts] at hhead
        exact hhead
    rw [if_neg (by exact hopen)]
    have hlength : args.length ≤ (moreTokens (bareAll w args)).length := by
      clear h hopen hbegin
      induction args with
      | nil => exact Nat.zero_le _
      | cons e args ih =>
        simp only [moreTokens, bareAll, List.flatMap_cons, List.length_append,
          List.length_cons] at ih ⊢
        omega
    have hends : (moreTokens (bareAll w args) ++ [Token.closeParen] ++ rest).head? = some .comma ∨
        (moreTokens (bareAll w args) ++ [Token.closeParen] ++ rest).head? = some .closeParen := by
      cases args with
      | nil => exact .inr rfl
      | cons _ _ => exact .inl rfl
    apply Takes.bind (h e (.head _) _ hends)
    apply Takes.remaining
    apply Takes.bind
    · apply argumentsUpTo_takes hsrc fun e he => h e (.tail _ he)
      simp only [List.length_append]
      omega
    · apply Takes.take hsrc.whole
      exact Takes.pure

/-- What a name and arguments make, at an offset. -/
def callOf (name : String) (args : List Expr) (position : Nat) : Reader Expr :=
  match Name.split name with
  | ("", localName) => systemCall localName args position
  | (declared, localName) => namespaceCall name declared localName args position

/-- A call, when the name and the arguments make an expression. -/
theorem functionCall_takes (hsrc : Reads S src) {name : String} {args : List Expr} {e : Expr}
    (hbegin : ∀ e ∈ args, (e.bare w).head? ≠ some .closeParen ∧ e.bare w ≠ [])
    (h : ∀ e ∈ args, ∀ rest, (rest.head? = some .comma ∨ rest.head? = some .closeParen) →
      Takes src nested (e.bare w) e rest)
    (hcall : ∀ position ps, callOf name args position src ps = .ok (e, ps)) :
    Takes src (primary nested) (.function name :: argumentTokens (bareAll w args)) e rest := by
  apply Takes.peek
  apply Takes.position
  intro position
  apply Takes.advance hsrc.whole
  rw [← List.append_nil (argumentTokens _)]
  apply Takes.bind (q := []) (arguments_takes hsrc hbegin h)
  intro ps hps
  exact ⟨ps, hcall position ps, hps⟩

theorem split_qualified {declared : String} (h : IsSimpleName declared.toList)
    (localName : String) : Name.split (declared ++ ":" ++ localName) = (declared, localName) := by
  have hchars : (declared ++ ":" ++ localName).toList =
      declared.toList ++ ':' :: localName.toList := by simp
  rw [Name.split, hchars, splitColon?_append (colon_notMem h)]
  simp

theorem split_unqualified {name : String} (h : IsSimpleName name.toList) :
    Name.split name = ("", name) := by
  rw [Name.split, splitColon?_eq_none (colon_notMem h)]

section system

variable {args : List Expr} {position : Nat} {ps : List PlacedToken}

/-- A qualified name is called in the namespace of its prefix. -/
theorem callOf_qualified {declared localName : String} (h : IsSimpleName declared.toList) :
    callOf (declared ++ ":" ++ localName) args position =
      namespaceCall (declared ++ ":" ++ localName) declared localName args position := by
  have hne : declared ≠ "" := by
    rintro rfl
    exact h
  rw [callOf, split_qualified h]
  split
  · next heq => exact absurd (congrArg Prod.fst heq) hne
  · next heq => cases heq; rfl

theorem callOf_unqualified {name : String} (h : IsSimpleName name.toList) :
    callOf name args position = systemCall name args position := by
  rw [callOf, split_unqualified h]
  rfl

theorem systemCall_ok (hsrc : Reads S src) {f : SystemFunction} (hset : f.isSetFunction = false)
    (harity : f.arityFault? args.length = none) (hcurrent : f ≠ .current)
    (hkey : f = .key → S.allowsKey = true) :
    systemCall f.signature.name args position src ps =
      .ok (.call f args none (some S), ps) := by
  have hname : SystemFunction.ofName? f.signature.name = some f := by
    cases f <;> first | rfl | cases hset
  rw [systemCall, hname]
  dsimp only
  rw [harity]
  change (if f = .current then _ else _ : Reader Expr) src ps = _
  rw [if_neg hcurrent, run_read, hsrc.scope]
  rw [if_neg (by rintro ⟨hf, hallows⟩; simp [hkey hf] at hallows)]
  rfl

theorem requireNodeSets_ok {construct : String} {es : List Expr} (h : ∀ e ∈ es, e.MayBeNodes) :
    requireNodeSets construct es src ps = .ok ((), ps) := by
  induction es with
  | nil => rfl
  | cons e es ih =>
    rw [requireNodeSets, run_bind_ok (requireNodeSet_ok (h e (.head _)) construct ps)]
    exact ih fun e he => h e (.tail _ he)

theorem setCall_operation {l r : Expr} {op : SetOperator} {name : String}
    (hop : setOperator? name = some op) (hl : l.MayBeNodes) (hr : r.MayBeNodes) :
    setCall name [l, r] position src ps = .ok (.set op l r, ps) := by
  have hboth : ∀ e ∈ [l, r], e.MayBeNodes := by simp [hl, hr]
  rw [setCall, hop]
  dsimp only
  rw [run_bind_ok (requireNodeSets_ok hboth)]
  rfl

theorem setCall_distinct {base : Expr} (h : base.MayBeNodes) :
    setCall "distinct" [base] position src ps = .ok (.distinct base, ps) := by
  change (requireNodeSet base "set:distinct" >>= fun _ => pure (.distinct base) : Reader Expr)
    src ps = _
  rw [run_bind_ok (requireNodeSet_ok h _ ps)]
  rfl

theorem setCall_distinctBy {base key : Expr} (h : base.MayBeNodes) :
    setCall "distinct" [base, key] position src ps = .ok (.distinctBy base key, ps) := by
  change (requireNodeSet base "set:distinct" >>= fun _ => pure (.distinctBy base key) :
    Reader Expr) src ps = _
  rw [run_bind_ok (requireNodeSet_ok h _ ps)]
  rfl

theorem setCall_function (hsrc : Reads S src) {f : SystemFunction} (hset : f.isSetFunction = true)
    (harity : f.arityFault? args.length = none) :
    setCall f.signature.name args position src ps = .ok (.call f args none (some S), ps) := by
  have hname : setOperator? f.signature.name = none ∧ f.signature.name ≠ "distinct" ∧
      SystemFunction.ofSetName? f.signature.name = some f := by
    cases f <;> first | exact ⟨rfl, by decide, rfl⟩ | cases hset
  obtain ⟨hoperator, hdistinct, hname⟩ := hname
  rw [setCall, hoperator]
  dsimp only
  rw [if_neg hdistinct, hname]
  dsimp only
  rw [harity]
  change (read >>= fun s => pure (.call f args none (some s.scope)) : Reader Expr) src ps = _
  rw [run_read, hsrc.scope]
  rfl

/-- A call with the prefix of the set functions is one of them. -/
theorem namespaceCall_set (hsrc : Reads S src) (h : w.Declares S Name.setsNamespace)
    (name localName : String) :
    namespaceCall name (w.declared Name.setsNamespace) localName args position src ps =
      setCall localName args position src ps := by
  rw [namespaceCall, run_read, hsrc.scope, h.resolved]
  rfl

/-- A call with another prefix is one of a function that the host offers, or fails when
evaluated. -/
theorem namespaceCall_host (hsrc : Reads S src) {name declared localName uri : String}
    (huri : S.uriForPrefix declared = .ok uri) (hne : uri ≠ Name.setsNamespace) :
    namespaceCall name declared localName args position src ps =
      .ok (if S.isExtensionNamespace uri || S.isFunctionAvailable (.make (some uri) localName)
        then .extension (.make (some uri) localName) args
        else .failure (.unavailableLibrary uri name), ps) := by
  rw [namespaceCall, run_read, hsrc.scope, huri]
  dsimp only
  rw [if_neg hne]
  split
  · rfl
  · rfl

end system

end calls

/-- A variable, behind the dollar sign. -/
theorem variable_takes (hsrc : Reads S src) {b : Binding} (h : w.Refers S b) :
    Takes src (primary nested) [.dollar, .name (w.variable b)] (.reference b) rest := by
  obtain ⟨n, hresolved, hbound⟩ := h.bound
  have hname : Takes src Reader.name [] (w.variable b) (.name (w.variable b) :: rest) := by
    apply Takes.peek
    exact Takes.pure
  apply Takes.peek
  apply Takes.advance hsrc.whole
  apply Takes.bind (p := []) hname
  apply Takes.bind (p := []) (resolve_takes hsrc hresolved)
  apply Takes.read
  rw [hsrc.scope]
  apply Takes.lift hbound
  apply Takes.advance hsrc.whole
  exact Takes.pure

end PathLanguage.Grammar
