/- Spacing: the tokens of a text lie one behind another with blanks between them, and the same
tokens are read where each of them is written out with a single space before the next. -/
import Mathlib.Data.List.Forall2
import PathLanguage.Proofs.Token.Spelling

namespace PathLanguage

open Lexer

namespace Lexer

theorem foldl_utf8Size (cs : List Char) (n : Nat) :
    cs.foldl (fun size c => size + c.utf8Size) n = n + byteSize cs := by
  induction cs generalizing n with
  | nil => rfl
  | cons c cs ih =>
    have hcons : byteSize (c :: cs) = c.utf8Size + byteSize cs := by
      rw [byteSize, List.foldl_cons, ih, Nat.zero_add]
    rw [List.foldl_cons, ih, hcons, Nat.add_assoc]

theorem byteSize_append (cs ds : List Char) : byteSize (cs ++ ds) = byteSize cs + byteSize ds := by
  rw [byteSize, List.foldl_append, foldl_utf8Size ds]
  rfl

theorem byteSize_pos {cs : List Char} (h : cs ≠ []) : 0 < byteSize cs := by
  obtain ⟨c, rest, rfl⟩ := List.exists_cons_of_ne_nil h
  rw [byteSize, List.foldl_cons, foldl_utf8Size, Nat.zero_add]
  exact Nat.add_pos_left c.utf8Size_pos _

end Lexer

namespace Token

theorem WrittenAs.ne_nil {afterOperand : Bool} {t : Token} {cs : List Char}
    (h : t.Stands afterOperand) (hcs : t.WrittenAs cs) : cs ≠ [] := by
  obtain ⟨c, tail, rfl, -⟩ := written_begins h hcs
  exact List.cons_ne_nil c tail

theorem Covers.ne_nil {afterOperand : Bool} {t : Token} {cs : List Char}
    (h : t.Stands afterOperand) (hcs : t.Covers cs) : cs ≠ [] := by
  cases t with
  | function | nodeType | axis =>
    obtain ⟨blanks, -, rfl⟩ := hcs
    simp
  | _ => exact WrittenAs.ne_nil h hcs

/-- Tokens that can follow one another, the first of them behind an operand or not: each stands
where it can, and a name is not followed by a parenthesis. -/
def Follow (afterOperand : Bool) : List Token → Prop
  | [] => True
  | t :: rest =>
    t.Stands afterOperand ∧ (∀ s, t = .name s → rest.head? ≠ some .openParen) ∧
      Follow t.endsOperand rest

variable {afterOperand : Bool} {ts : List Token}

/-- Tokens that can follow one another can all be written. -/
theorem Follow.exists_written (h : Follow afterOperand ts) : ∀ t ∈ ts, ∃ cs, t.WrittenAs cs := by
  induction ts generalizing afterOperand with
  | nil => exact List.forall_mem_nil _
  | cons t rest ih => exact List.forall_mem_cons.mpr ⟨Token.exists_written h.1, ih h.2.2⟩

end Token

namespace TokenList

open Token (Follow)

section ranges

/-- A text from a byte offset on in which tokens have their places: nothing but blanks lies before
the first, between two of them and behind the last. -/
inductive Spaced : Nat → List Char → List PlacedToken → Prop
  | blanks {offset : Nat} {cs : List Char} (h : ∀ c ∈ cs, Text.isBlank c = true) :
    Spaced offset cs []
  | token {offset : Nat} {blanks piece rest : List Char} {t : Token} {ts : List PlacedToken}
    (hblanks : ∀ c ∈ blanks, Text.isBlank c = true) (hpiece : t.Covers piece) (hne : piece ≠ [])
    (h : Spaced (offset + byteSize blanks + byteSize piece) rest ts) :
    Spaced offset (blanks ++ (piece ++ rest))
      (⟨t, offset + byteSize blanks, offset + byteSize blanks + byteSize piece⟩ :: ts)

variable {offset limit : Nat} {afterOperand : Bool} {cs : List Char} {ps : List PlacedToken}

/-- No token comes before the offset, and each has a part of the text. -/
theorem Spaced.bounds (h : Spaced offset cs ps) :
    ∀ p ∈ ps, offset ≤ p.start ∧ p.start < p.stop := by
  induction h with
  | blanks => exact List.forall_mem_nil _
  | @token offset blanks piece rest t ts _ _ hne _ ih =>
    have hpos := byteSize_pos hne
    refine List.forall_mem_cons.mpr ⟨⟨Nat.le_add_right _ _, Nat.lt_add_of_pos_right hpos⟩, ?_⟩
    intro p hp
    obtain ⟨hstart, hstop⟩ := ih p hp
    exact ⟨by omega, hstop⟩

/-- No token begins before the end of an earlier one. -/
theorem Spaced.apart (h : Spaced offset cs ps) : ps.Pairwise fun p q => p.stop ≤ q.start := by
  induction h with
  | blanks => exact .nil
  | token _ _ _ hrest ih => exact .cons (fun p hp => (hrest.bounds p hp).1) ih

/-- Where a parenthesis comes first, it comes behind blanks. -/
theorem Spaced.begins_paren (h : Spaced offset cs ps)
    (hparen : (ps.map (·.token)).head? = some .openParen) :
    ∃ more, cs.dropWhile Text.isBlank = '(' :: more := by
  cases h with
  | blanks => cases hparen
  | @token offset blanks piece rest t ts hblanks hpiece =>
    obtain rfl : t = .openParen := Option.some.inj hparen
    obtain rfl : piece = ['('] := hpiece
    exact ⟨rest, by rw [List.dropWhile_append_of_pos hblanks]; rfl⟩

/-- A text that is read to its end has its tokens where they are said to be. -/
theorem ofChars_spaced (hfault : (ofChars limit afterOperand offset cs).fault = none)
    (hlimit : cs.length < limit) :
    Spaced offset cs (ofChars limit afterOperand offset cs).tokens ∧
      Follow afterOperand ((ofChars limit afterOperand offset cs).tokens.map (·.token)) := by
  -- every token takes a character at least, so the limit outlasts the text
  induction limit generalizing afterOperand offset cs with
  | zero => exact absurd hlimit (Nat.not_lt_zero _)
  | succ n ih =>
    obtain ⟨blanks, more, hblanks, hmore, rfl⟩ : ∃ blanks more,
        (∀ c ∈ blanks, Text.isBlank c = true) ∧ cs.dropWhile Text.isBlank = more ∧
          cs = blanks ++ more :=
      ⟨_, _, fun _ => List.mem_takeWhile_imp, rfl, List.takeWhile_append_dropWhile.symm⟩
    rw [ofChars, hmore] at hfault ⊢
    simp only [byteSize_append, Nat.add_sub_cancel] at hfault ⊢
    split at hfault
    · next hempty =>
      rw [List.isEmpty_iff] at hempty
      subst hempty
      exact ⟨.blanks (by simpa using hblanks), trivial⟩
    · next hempty =>
      rw [if_neg hempty]
      split at hfault
      · cases hfault
      · next t rest htoken =>
        have hlexes := token_lexes htoken
        obtain ⟨piece, hpiece, rfl⟩ := hlexes.covers
        have hne := hpiece.ne_nil hlexes.stands
        simp only [byteSize_append, Nat.add_sub_cancel] at hfault ⊢
        have hshort : rest.length < n := by
          have hpos := List.length_pos_iff.mpr hne
          simp only [List.length_append] at hlimit
          omega
        obtain ⟨hspaced, hfollow⟩ := ih hfault hshort
        refine ⟨.token hblanks hpiece hne hspaced, hlexes.stands, fun s hs hparen => ?_, hfollow⟩
        obtain ⟨inside, hinside⟩ := hspaced.begins_paren hparen
        exact hlexes.ends s hs inside hinside

theorem ofText_spaced {text : String} (hfault : (ofText text).fault = none) :
    Spaced 0 text.toList (ofText text).tokens ∧
      Follow false ((ofText text).tokens.map (·.token)) := by
  apply ofChars_spaced hfault
  rw [String.length_toList]
  exact Nat.lt_succ_self _

end ranges

section writing

variable {afterOperand : Bool} {ts : List Token} {pieces : List (List Char)}

/-- What is written begins with no blank, with no colon, and with a parenthesis only if that is the
first token. -/
theorem written_begins (h : Follow afterOperand ts) (hw : List.Forall₂ Token.WrittenAs ts pieces) :
    ∀ c more, [' '].intercalate pieces = c :: more →
      Text.isBlank c = false ∧ c ≠ ':' ∧ (c = '(' → ts.head? = some .openParen) := by
  intro c more heq
  cases hw with
  | nil => cases heq
  | @cons t cs ts pieces hcs hw =>
    obtain ⟨d, tail, rfl, hblank, hcolon, hparen⟩ := Token.written_begins h.1 hcs
    obtain rfl : d = c := by
      cases hw with
      | nil =>
        rw [List.intercalate_singleton] at heq
        exact (List.cons.inj heq).1
      | cons =>
        rw [List.intercalate_cons_cons, List.append_assoc, List.cons_append] at heq
        exact (List.cons.inj heq).1
    exact ⟨hblank, hcolon, fun hc => congrArg some (hparen hc)⟩

theorem dropWhile_written (h : Follow afterOperand ts)
    (hw : List.Forall₂ Token.WrittenAs ts pieces) :
    ([' '].intercalate pieces).dropWhile Text.isBlank = [' '].intercalate pieces := by
  cases heq : [' '].intercalate pieces with
  | nil => rfl
  | cons c more =>
    have hc := (written_begins h hw c more heq).1
    rw [List.dropWhile_cons_of_neg (by simp [hc])]

theorem length_le_written (h : Follow afterOperand ts)
    (hw : List.Forall₂ Token.WrittenAs ts pieces) :
    ts.length ≤ ([' '].intercalate pieces).length := by
  induction hw generalizing afterOperand with
  | nil => exact Nat.zero_le _
  | @cons t cs ts pieces hcs hw ih =>
    have hpos := List.length_pos_iff.mpr (Token.WrittenAs.ne_nil h.1 hcs)
    have hrest := ih h.2.2
    cases hw with
    | nil =>
      rw [List.intercalate_singleton]
      exact hpos
    | cons =>
      rw [List.intercalate_cons_cons]
      simp only [List.length_append, List.length_cons, List.length_nil] at hrest ⊢
      omega

/-- Reading tokens that are written with single spaces, from a place where blanks may come first. -/
theorem ofChars_written (h : Follow afterOperand ts) (hw : List.Forall₂ Token.WrittenAs ts pieces)
    {limit : Nat} (hlimit : ts.length < limit) (offset : Nat) {cs : List Char}
    (hcs : cs.dropWhile Text.isBlank = [' '].intercalate pieces) :
    (ofChars limit afterOperand offset cs).fault = none ∧
      (ofChars limit afterOperand offset cs).tokens.map (·.token) = ts := by
  induction hw generalizing afterOperand limit offset cs with
  | nil =>
    cases limit with
    | zero => exact absurd hlimit (Nat.not_lt_zero _)
    | succ n => simp [ofChars, hcs]
  | @cons t piece ts pieces hpiece hw ih =>
    cases limit with
    | zero => exact absurd hlimit (Nat.not_lt_zero _)
    | succ n =>
      obtain ⟨after, htext, hafter, hblank⟩ : ∃ after,
          [' '].intercalate (piece :: pieces) = piece ++ after ∧
          (after = [] ∨ ∃ more, after = ' ' :: more) ∧
          after.dropWhile Text.isBlank = [' '].intercalate pieces := by
        cases hw with
        | nil => exact ⟨[], by simp, .inl rfl, rfl⟩
        | @cons u next us nexts hnext hw =>
          refine ⟨' ' :: [' '].intercalate (next :: nexts), ?_, .inr ⟨_, rfl⟩, ?_⟩
          · rw [List.intercalate_cons_cons, List.append_assoc, List.singleton_append]
          · rw [List.dropWhile_cons_of_pos (by decide), dropWhile_written h.2.2 (.cons hnext hw)]
      have htoken : Lexer.token afterOperand (piece ++ after) = .ok (t, after) := by
        apply token_written h.1 hpiece hafter
        intro name hname c more hc
        rw [hblank] at hc
        obtain ⟨-, hcolon, hparen⟩ := written_begins h.2.2 hw c more hc
        exact ⟨fun heq => h.2.1 name hname (hparen heq), hcolon⟩
      have hne : (piece ++ after).isEmpty = false := by
        rw [List.isEmpty_eq_false_iff]
        exact List.append_ne_nil_of_left_ne_nil (Token.WrittenAs.ne_nil h.1 hpiece) after
      rw [ofChars, hcs, htext]
      simp only [hne, htoken, TokenList.cons]
      obtain ⟨hfault, htokens⟩ := ih h.2.2 (Nat.lt_of_succ_lt_succ hlimit) _ hblank
      exact ⟨hfault, congrArg (t :: ·) htokens⟩

/-- Tokens that can follow one another are read where they are written with single spaces. -/
theorem ofText_written (h : Follow false ts) (hw : List.Forall₂ Token.WrittenAs ts pieces) :
    (ofText (String.ofList ([' '].intercalate pieces))).fault = none ∧
      (ofText (String.ofList ([' '].intercalate pieces))).tokens.map (·.token) = ts := by
  have hlength := length_le_written h hw
  rw [ofText]
  apply ofChars_written h hw
  · simpa using Nat.lt_succ_of_le hlength
  · rw [String.toList_ofList, dropWhile_written h hw]

end writing

/-- The tokens of a text that is read to its end lie one behind another, with nothing but blanks
between them; and each of them on its own, in whatever quotes a literal allows, with a single space
before the next, they are read as the same tokens. -/
theorem ofText_respaced {text : String} (h : (ofText text).fault = none) :
    (∀ p ∈ (ofText text).tokens, p.start < p.stop) ∧
      (ofText text).tokens.Pairwise (fun p q => p.stop ≤ q.start) ∧
      Spaced 0 text.toList (ofText text).tokens ∧
      (∀ t ∈ (ofText text).tokens.map (·.token), ∃ cs, t.WrittenAs cs) ∧
      ∀ pieces, List.Forall₂ Token.WrittenAs ((ofText text).tokens.map (·.token)) pieces →
        (ofText (String.ofList ([' '].intercalate pieces))).fault = none ∧
          (ofText (String.ofList ([' '].intercalate pieces))).tokens.map (·.token) =
            (ofText text).tokens.map (·.token) := by
  obtain ⟨hspaced, hfollow⟩ := ofText_spaced h
  exact ⟨fun p hp => (hspaced.bounds p hp).2, hspaced.apart, hspaced, hfollow.exists_written,
    fun pieces hw => ofText_written hfollow hw⟩

/-- A name and an operator of one spelling, and a literal that goes into other quotes. -/
theorem ofText_respaced_operators :
    (ofText "div div(.5)*'a'").fault = none ∧
      (ofText "div div ( .5 ) * \"a\"").tokens.map (·.token) =
        (ofText "div div(.5)*'a'").tokens.map (·.token) := by
  have hfault : (ofText "div div(.5)*'a'").fault = none := by decide +kernel
  have htokens : (ofText "div div(.5)*'a'").tokens.map (·.token) =
      [.name "div", .arithmetic .div, .openParen, .number ".5", .closeParen, .arithmetic .times,
        .literal "a"] := by decide +kernel
  have hpieces : List.Forall₂ Token.WrittenAs ((ofText "div div(.5)*'a'").tokens.map (·.token))
      ["div".toList, "div".toList, "(".toList, ".5".toList, ")".toList, "*".toList,
        "\"a\"".toList] := by
    rw [htokens]
    simp only [List.forall₂_cons, List.forall₂_nil_left_iff, and_true]
    exact ⟨rfl, rfl, rfl, rfl, rfl, rfl, '"', .inl rfl, by decide, rfl⟩
  exact ⟨hfault, ((ofText_respaced hfault).2.2.2.2 _ hpieces).2⟩

end TokenList

end PathLanguage
