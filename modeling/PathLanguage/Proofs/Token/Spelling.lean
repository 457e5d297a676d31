/- Tokens and their text: what the lexer takes from a text spells the token that it makes of it, and
a token that can stand at a place is read there from its own text. -/
import PathLanguage.Proofs.Token.Lexer

namespace PathLanguage

open Lexer

namespace Token

/-- The text of a token on its own: as messages show it, a literal between quotes of either sort
that are not in it. -/
def WrittenAs : Token → List Char → Prop
  | .literal s, cs => ∃ q, (q = '"' ∨ q = '\'') ∧ q ∉ s.toList ∧ cs = q :: s.toList ++ [q]
  | t, cs => cs = t.display.toList

/-- A text that a token covers: blanks may stand before the parenthesis or the colons that belong to
a name. -/
def Covers : Token → List Char → Prop
  | .function s, cs | .nodeType s, cs =>
    ∃ blanks, (∀ c ∈ blanks, Text.isBlank c = true) ∧ cs = s.toList ++ blanks ++ ['(']
  | .axis a, cs =>
    ∃ blanks, (∀ c ∈ blanks, Text.isBlank c = true) ∧ cs = a.name.toList ++ blanks ++ [':', ':']
  | t, cs => t.WrittenAs cs

/-- Whether a text can have a token where an operand has just ended, or has not. -/
def Stands (afterOperand : Bool) : Token → Prop
  | .literal s => ¬ ('"' ∈ s.toList ∧ '\'' ∈ s.toList)
  | .number s => IsNumber s.toList
  | .name s => IsName s.toList ∧ (afterOperand = true → operatorNamed? s = none)
  | .prefixWildcard s => IsSimpleName s.toList
  | .function s =>
    IsName s.toList ∧ nodeTypes.contains s = false ∧
      (afterOperand = true → operatorNamed? s = none)
  | .nodeType s => nodeTypes.contains s = true
  | .star => afterOperand = false
  | .arithmetic .times | .arithmetic .div | .arithmetic .mod | .logical _ => afterOperand = true
  | _ => True

variable {afterOperand : Bool} {t : Token} {cs rest : List Char}

/-- A token that can stand somewhere can be written. -/
theorem exists_written (h : t.Stands afterOperand) : ∃ cs, t.WrittenAs cs := by
  cases t with
  | literal s =>
    by_cases hdouble : '"' ∈ s.toList
    · exact ⟨_, '\'', .inr rfl, fun hsingle => h ⟨hdouble, hsingle⟩, rfl⟩
    · exact ⟨_, '"', .inl rfl, hdouble, rfl⟩
  | _ => exact ⟨_, rfl⟩

end Token

namespace Lexer

variable {afterOperand : Bool} {t : Token} {cs rest : List Char}

/-- What a token leaves of a text: it covers the beginning and can stand there, and a name is not
left with a parenthesis behind it. -/
structure Lexes (afterOperand : Bool) (cs : List Char) (t : Token) (rest : List Char) : Prop where
  stands : t.Stands afterOperand
  covers : ∃ piece, t.Covers piece ∧ cs = piece ++ rest
  ends : ∀ s, t = .name s → ∀ more, rest.dropWhile Text.isBlank ≠ '(' :: more

theorem operatorNamed?_eq_some {s : String} (h : operatorNamed? s = some t) :
    t.Stands true ∧ t.Covers s.toList ∧ ∀ s, t ≠ .name s := by
  rw [operatorNamed?.eq_def] at h
  split at h
  · cases h; exact ⟨rfl, rfl, nofun⟩
  · cases h; exact ⟨rfl, rfl, nofun⟩
  · cases h; exact ⟨rfl, rfl, nofun⟩
  · cases h; exact ⟨rfl, rfl, nofun⟩
  · cases h

/-- A name is taken as what follows it asks for. -/
theorem nameToken_lexes {name : List Char} (hname : IsName name)
    (h : nameToken afterOperand (String.ofList name) cs = .ok (t, rest)) :
    Lexes afterOperand (name ++ cs) t rest := by
  have hlist : (String.ofList name).toList = name := String.toList_ofList
  have hblanks : ∀ c ∈ cs.takeWhile Text.isBlank, Text.isBlank c = true :=
    fun _ hc => List.mem_takeWhile_imp hc
  have hsplit := List.takeWhile_append_dropWhile (p := Text.isBlank) (l := cs)
  rw [nameToken] at h
  split at h
  · next op hop =>
    cases afterOperand with
    | false => cases hop
    | true =>
      obtain ⟨rfl, rfl⟩ := Prod.mk.inj (Except.ok.inj h)
      obtain ⟨hstands, hcovers, hne⟩ := operatorNamed?_eq_some hop
      rw [hlist] at hcovers
      exact ⟨hstands, ⟨name, hcovers, rfl⟩, fun s hs => absurd hs (hne s)⟩
  · next hnone =>
    have hnot : afterOperand = true → operatorNamed? (String.ofList name) = none := by
      rintro rfl
      exact hnone
    have hplain (hends : ∀ more, cs.dropWhile Text.isBlank ≠ '(' :: more) :
        Lexes afterOperand (name ++ cs) (.name (String.ofList name)) cs :=
      ⟨⟨by rwa [hlist], hnot⟩, ⟨name, hlist.symm, rfl⟩, fun _ _ => hends⟩
    split at h
    · next inside hinside =>
      rw [hinside] at hsplit
      obtain ⟨rfl, rfl⟩ := Prod.mk.inj (Except.ok.inj h)
      have hcovered : name ++ cs = (name ++ cs.takeWhile Text.isBlank ++ ['(']) ++ inside := by
        simp [hsplit]
      split
      · next htype =>
        exact ⟨htype, ⟨_, ⟨_, hblanks, by rw [hlist]⟩, hcovered⟩, by simp⟩
      · next htype =>
        exact ⟨⟨by rwa [hlist], Bool.eq_false_iff.mpr htype, hnot⟩,
          ⟨_, ⟨_, hblanks, by rw [hlist]⟩, hcovered⟩, by simp⟩
    · next step hstep =>
      split at h
      · obtain ⟨rfl, rfl⟩ := Prod.mk.inj (Except.ok.inj h)
        exact hplain (by simp [hstep])
      · split at h
        · next a ha =>
          rw [hstep] at hsplit
          obtain ⟨rfl, rfl⟩ := Prod.mk.inj (Except.ok.inj h)
          have hnamed : a.name = String.ofList name := by simpa using List.find?_some ha
          have hcovered : name ++ cs =
              (name ++ cs.takeWhile Text.isBlank ++ [':', ':']) ++ step := by
            simp [hsplit]
          exact ⟨trivial, ⟨_, ⟨_, hblanks, by rw [hnamed, hlist]⟩, hcovered⟩, by simp⟩
        · cases h
    · next hother _ =>
      obtain ⟨rfl, rfl⟩ := Prod.mk.inj (Except.ok.inj h)
      exact hplain fun more hmore => hother more hmore

theorem symbolToken_lexes (h : symbolToken afterOperand cs = .ok (t, rest)) :
    Lexes afterOperand cs t rest := by
  have hsymbols : ∀ s ∈ symbols, s.2.WrittenAs s.1 ∧
      (s.2 = .star ∨ s.2.Stands afterOperand ∧ s.2.Covers s.1 ∧ ∀ name, s.2 ≠ .name name) := by
    simp [symbols, Token.Stands, Token.Covers, Token.WrittenAs, Token.display, Token.text,
      Comparison.symbol, ArithmeticOp.symbol]
  have hfound {s : List Char × Token} (hs : symbols.find? (·.1.isPrefixOf cs) = some s) :
      cs = s.1 ++ cs.drop s.1.length := by
    have hprefix := List.find?_some hs
    obtain ⟨more, rfl⟩ := List.isPrefixOf_iff_prefix.mp hprefix
    rw [List.drop_left]
  rw [symbolToken.eq_def] at h
  split at h
  · next s hs =>
    obtain ⟨rfl, rfl⟩ := Prod.mk.inj (Except.ok.inj h)
    obtain ⟨hstar, -⟩ := hsymbols _ (List.mem_of_find?_eq_some hs)
    cases afterOperand with
    | false => exact ⟨rfl, ⟨s, hstar, hfound hs⟩, nofun⟩
    | true => exact ⟨rfl, ⟨s, hstar, hfound hs⟩, nofun⟩
  · next s t' hne hs =>
    obtain ⟨rfl, rfl⟩ := Prod.mk.inj (Except.ok.inj h)
    rcases hsymbols _ (List.mem_of_find?_eq_some hs) with ⟨-, hstar | ⟨hstands, hcovers, hname⟩⟩
    · exact absurd hstar hne
    · exact ⟨hstands, ⟨s, hcovers, hfound hs⟩, fun name heq => absurd heq (hname name)⟩
  · split at h <;> cases h

theorem quoted_lexes {quote : Char} (hquote : quote = '"' ∨ quote = '\'')
    (h : quoted quote cs = .ok (t, rest)) : Lexes afterOperand (quote :: cs) t rest := by
  obtain ⟨content, hnone, rfl, rfl⟩ := quoted_eq_ok h
  have hlist : (String.ofList content).toList = content := String.toList_ofList
  refine ⟨?_, ⟨quote :: content ++ [quote], ⟨quote, hquote, ?_, ?_⟩, by simp⟩, nofun⟩
  · rintro ⟨hdouble, hsingle⟩
    rw [hlist] at hdouble hsingle
    rcases hquote with rfl | rfl
    · exact hnone hdouble
    · exact hnone hsingle
  · rwa [hlist]
  · rw [hlist]

/-- Every token that is read has its place and its text. -/
theorem token_lexes (h : token afterOperand cs = .ok (t, rest)) : Lexes afterOperand cs t rest := by
  rw [token.eq_def] at h
  split at h
  · exact quoted_lexes (.inl rfl) h
  · exact quoted_lexes (.inr rfl) h
  · split at h
    · next digits _ hdigits =>
      obtain ⟨rfl, rfl⟩ := Prod.mk.inj (Except.ok.inj h)
      obtain ⟨hcs, hnumber⟩ := number?_eq_some hdigits
      have hlist : (String.ofList digits).toList = digits := String.toList_ofList
      exact ⟨by rwa [Token.Stands, hlist], ⟨digits, hlist.symm, hcs⟩, nofun⟩
    · split at h
      · next declared _ hdeclared =>
        obtain ⟨rfl, rfl⟩ := Prod.mk.inj (Except.ok.inj h)
        obtain ⟨hcs, hsimple⟩ := simpleName?_eq_some hdeclared
        have hlist : (String.ofList declared).toList = declared := String.toList_ofList
        have hcovers : (Token.prefixWildcard (String.ofList declared)).Covers
            (declared ++ [':', '*']) := by
          simp [Token.Covers, Token.WrittenAs, Token.display]
        exact ⟨by rwa [Token.Stands, hlist], ⟨_, hcovers, by simpa using hcs⟩, nofun⟩
      · split at h
        · next hread =>
          obtain ⟨rfl, hname⟩ := name?_eq_some hread
          exact nameToken_lexes hname h
        · exact symbolToken_lexes h

theorem operator_eq_none {name : String} (h : afterOperand = true → operatorNamed? name = none) :
    (if afterOperand then operatorNamed? name else none) = none := by
  split
  · next hafter => exact h hafter
  · rfl

/-- A name is not taken for more than it is unless a parenthesis or colons follow it. -/
theorem nameToken_plain {name : String} (hname : afterOperand = true → operatorNamed? name = none)
    (h : ∀ c more, rest.dropWhile Text.isBlank = c :: more → c ≠ '(' ∧ c ≠ ':') :
    nameToken afterOperand name rest = .ok (.name name, rest) := by
  rw [nameToken, operator_eq_none hname]
  dsimp only
  split
  · next inside heq => exact absurd rfl (h _ _ heq).1
  · next step heq => exact absurd rfl (h _ _ heq).2
  · rfl

theorem nameToken_function {name : String} (htype : nodeTypes.contains name = false)
    (hname : afterOperand = true → operatorNamed? name = none) :
    nameToken afterOperand name ('(' :: rest) = .ok (.function name, rest) := by
  rw [nameToken, operator_eq_none hname]
  change Except.ok (if nodeTypes.contains name then Token.nodeType name else .function name, rest)
    = _
  rw [htype]
  rfl

/-- A token is read from its own text before a space, if it can stand there and is not a name that
goes on behind the space. -/
theorem token_written (h : t.Stands afterOperand) (hcs : t.WrittenAs cs)
    (hrest : rest = [] ∨ ∃ more, rest = ' ' :: more)
    (hname : ∀ name, t = .name name →
      ∀ c more, rest.dropWhile Text.isBlank = c :: more → c ≠ '(' ∧ c ≠ ':') :
    token afterOperand (cs ++ rest) = .ok (t, rest) := by
  -- symbols are read off with the space behind them, so that no two of them come together
  have hbreaks : Breaks rest := hrest.imp_right fun ⟨more, h⟩ => ⟨more, .inl h⟩
  cases t with
  | literal s =>
    obtain ⟨q, hq, hnone, rfl⟩ := hcs
    rw [List.append_assoc, List.cons_append, List.singleton_append]
    rcases hq with rfl | rfl
    · rw [token, quoted_append hnone, String.ofList_toList]
    · rw [token, quoted_append hnone, String.ofList_toList]
  | number s =>
    obtain rfl : cs = s.toList := hcs
    rw [token_number h hbreaks, String.ofList_toList]
  | name s =>
    obtain rfl : cs = s.toList := hcs
    rw [token_name h.1 hbreaks, String.ofList_toList, nameToken_plain h.2 (hname s rfl)]
  | prefixWildcard s =>
    obtain rfl : cs = s.toList ++ [':', '*'] := hcs.trans (by simp [Token.display])
    rw [List.append_assoc]
    exact (token_wildcard h).trans (by rw [String.ofList_toList]; rfl)
  | function s =>
    obtain rfl : cs = s.toList ++ ['('] := hcs.trans (by simp [Token.display])
    rw [List.append_assoc, List.singleton_append, token_name h.1 (.inr ⟨rest, .inr rfl⟩),
      String.ofList_toList, nameToken_function h.2.1 h.2.2]
  | nodeType s =>
    obtain rfl := hcs
    have hmem : s ∈ nodeTypes := List.contains_iff_mem.mp h
    simp only [nodeTypes, List.mem_cons, List.not_mem_nil, or_false] at hmem
    rcases hmem with rfl | rfl | rfl | rfl <;> cases afterOperand <;> rfl
  | axis a =>
    obtain rfl : cs = a.name.toList ++ [':', ':'] := hcs.trans (by simp [Token.display])
    rw [List.append_assoc]
    exact token_axis a
  | comparison op =>
    obtain rfl := hcs
    cases op <;> rcases hrest with rfl | ⟨more, rfl⟩ <;> rfl
  | arithmetic op =>
    obtain rfl := hcs
    cases op with
    | plus | minus => rcases hrest with rfl | ⟨more, rfl⟩ <;> rfl
    | times | div | mod =>
      obtain rfl : afterOperand = true := h
      rcases hrest with rfl | ⟨more, rfl⟩ <;> rfl
  | logical op =>
    obtain rfl := hcs
    obtain rfl : afterOperand = true := h
    cases op <;> rcases hrest with rfl | ⟨more, rfl⟩ <;> rfl
  | star =>
    obtain rfl := hcs
    obtain rfl : afterOperand = false := h
    rcases hrest with rfl | ⟨more, rfl⟩ <;> rfl
  | slash | doubleSlash | bar | openParen | closeParen | openBracket | closeBracket | comma
  | dollar | atSign | dot | twoDots =>
    obtain rfl := hcs
    rcases hrest with rfl | ⟨more, rfl⟩ <;> rfl

end Lexer

namespace Token

variable {afterOperand : Bool} {t : Token} {c : Char} {cs : List Char}

/-- What the first character of a token does to a name before it: it is no blank, and the name does
not go on there unless it is an opening parenthesis. -/
def Begins (t : Token) (c : Char) : Prop :=
  Text.isBlank c = false ∧ c ≠ ':' ∧ (c = '(' → t = .openParen)

theorem begins_of_ne (h : ∀ d ∈ [' ', '\t', '\r', '\n', '(', ':'], c ≠ d) : t.Begins c := by
  simp only [List.forall_mem_cons] at h
  simp [Begins, Text.isBlank, h]

theorem begins_of_contains (h : [' ', '\t', '\r', '\n', '(', ':'].contains c = false) :
    t.Begins c := by
  apply begins_of_ne
  rintro d hd rfl
  rw [List.contains_iff_mem.mpr hd] at h
  cases h

theorem begins_of_start (h : isNameStart c = true) : t.Begins c := by
  apply begins_of_ne
  rintro d hd rfl
  have hle := le_of_isNameStart h
  revert hd
  simp only [List.mem_cons, List.not_mem_nil, or_false]
  rintro (rfl | rfl | rfl | rfl | rfl | rfl) <;> exact absurd hle (by decide)

/-- The text of a token is not empty, and no name before it goes on with it by mistake. -/
theorem written_begins (h : t.Stands afterOperand) (hcs : t.WrittenAs cs) :
    ∃ c tail, cs = c :: tail ∧ t.Begins c := by
  have hname (tail : List Char) {name : List Char} (hname : IsName name)
      (heq : cs = name ++ tail) : ∃ c tail, cs = c :: tail ∧ t.Begins c := by
    obtain ⟨c, more, rfl, hc⟩ := hname.exists_start
    exact ⟨c, _, heq, begins_of_start hc⟩
  cases t with
  | literal s =>
    obtain ⟨q, rfl | rfl, -, rfl⟩ := hcs
    · exact ⟨_, _, rfl, begins_of_contains rfl⟩
    · exact ⟨_, _, rfl, begins_of_contains rfl⟩
  | number s =>
    obtain ⟨c, tail, hc, hdigit⟩ := IsNumber.exists_start h
    refine ⟨c, tail, hcs.trans hc, begins_of_ne fun d hd => ?_⟩
    rintro rfl
    revert hd
    simp only [List.mem_cons, List.not_mem_nil, or_false]
    rintro (rfl | rfl | rfl | rfl | rfl | rfl) <;> rcases hdigit with h | h <;> cases h
  | name s => exact hname [] h.1 (hcs.trans (List.append_nil _).symm)
  | prefixWildcard s => exact hname [':', '*'] (.inl h) (hcs.trans (by simp [display]))
  | function s => exact hname ['('] h.1 (hcs.trans (by simp [display]))
  | nodeType s => exact hname ['('] (isName_nodeType h) (hcs.trans (by simp [display]))
  | axis a => exact hname [':', ':'] (.inl (isSimpleName_axis a)) (hcs.trans (by simp [display]))
  | comparison op => cases op <;> exact ⟨_, _, hcs, begins_of_contains rfl⟩
  | arithmetic op => cases op <;> exact ⟨_, _, hcs, begins_of_contains rfl⟩
  | logical op => cases op <;> exact ⟨_, _, hcs, begins_of_contains rfl⟩
  | openParen => exact ⟨_, _, hcs, rfl, by decide, fun _ => rfl⟩
  | star | slash | doubleSlash | bar | closeParen | openBracket | closeBracket | comma | dollar
  | atSign | dot | twoDots => exact ⟨_, _, hcs, begins_of_contains rfl⟩

end Token

/-- Every token of a text can stand where an operand has ended or where none has. -/
theorem TokenList.ofChars_stands {limit : Nat} {afterOperand : Bool} {offset : Nat}
    {cs : List Char} :
    ∀ p ∈ (ofChars limit afterOperand offset cs).tokens, ∃ behind, p.token.Stands behind := by
  induction limit generalizing afterOperand offset cs with
  | zero => exact List.forall_mem_nil _
  | succ n ih =>
    rw [ofChars]
    dsimp only
    split
    · exact List.forall_mem_nil _
    · split
      · exact List.forall_mem_nil _
      · next htoken => exact List.forall_mem_cons.mpr ⟨⟨_, (token_lexes htoken).stands⟩, ih⟩

end PathLanguage
