/- Names of the lexer: what it takes for a name is one to those who resolve it, unless there is a
mark in it that is not alphabetic. -/
import PathLanguage.Proofs.Token.Spelling
import PathLanguage.Scope

namespace PathLanguage

namespace Text

/-- Whether no code point lies in two lists of ranges: each range of the first is below the next
one of the second that does not end before it. Both lists are gone through once. -/
def Ranges.apart : Ranges → Ranges → Bool
  | [], _ => true
  | (first, last) :: rest, others =>
    let others' := others.dropWhile fun r => r.2 < first
    (match others' with
      | (next, _) :: _ => last < next
      | [] => true) && Ranges.apart rest others'

namespace Ranges

theorem contains_dropWhile {rs : Ranges} {first n : Nat} (hn : first ≤ n)
    (h : rs.contains n = true) :
    Ranges.contains (rs.dropWhile fun r => r.2 < first) n = true := by
  induction rs with
  | nil => cases h
  | cons r rs ih =>
    by_cases hr : r.2 < first
    · rw [List.dropWhile_cons_of_pos (by simpa using hr)]
      rw [contains] at h
      split at h
      · cases h
      · have hlast : ¬ n ≤ r.2 := by omega
        exact ih (by simpa [hlast] using h)
    · rwa [List.dropWhile_cons_of_neg (by simpa using hr)]

theorem not_contains_of_apart {rs ss : Ranges} (hapart : rs.apart ss = true) {n : Nat}
    (h : rs.contains n = true) : ss.contains n = false := by
  rw [Bool.eq_false_iff]
  intro hs
  induction rs generalizing ss with
  | nil => cases h
  | cons r rs ih =>
    rw [contains] at h
    split at h
    · cases h
    · next hfirst =>
      have hrest := contains_dropWhile (Nat.le_of_not_lt hfirst) hs
      rw [apart, Bool.and_eq_true] at hapart
      rw [Bool.or_eq_true, decide_eq_true_eq] at h
      rcases h with hlast | hlater
      · -- The ranges that are left begin above the whole of this one.
        have hnext := hapart.1
        cases hdrop : ss.dropWhile fun r' => r'.2 < r.1 with
        | nil =>
          rw [hdrop] at hrest
          cases hrest
        | cons s more =>
          rw [hdrop] at hrest hnext
          have habove : n < s.1 := Nat.lt_of_le_of_lt hlast (by simpa using hnext)
          rw [contains, if_pos habove] at hrest
          cases hrest
      · exact ih hapart.2 hlater hrest

end Ranges

theorem isNumeric_of_isMark {c : Char} (h : isMark c = true) : isNumeric c = false := by
  have hnumber : markRanges.apart numberRanges = true := by decide +kernel
  have hlater : markRanges.apart laterNumberRanges = true := by decide +kernel
  rw [isNumeric, isNumber, Ranges.not_contains_of_apart hnumber h,
    Ranges.not_contains_of_apart hlater h]
  rfl

end Text

namespace Lexer

/-- Among the characters there is no mark but those that count as letters. -/
def MarksAlphabetic (cs : List Char) : Prop :=
  ∀ c ∈ cs, Text.isMark c = true → Text.isAlphabetic c = true

variable {c : Char} {cs : List Char}

theorem isMark_sign (h : c = '_' ∨ c = '-' ∨ c = '.' ∨ c = '\u00b7' ∨ c = ':') :
    Text.isMark c = false := by
  rcases h with rfl | rfl | rfl | rfl | rfl <;> decide +kernel

theorem isStartChar_of_start (h : isNameStart c = true) : Name.isStartChar c = true := by
  rw [isNameStart, Bool.or_eq_true] at h
  rw [Name.isStartChar, Text.isAlphabetic]
  rcases h with h | h <;> simp [h]

/-- A character of names is one to the checker too, if it is alphabetic or no mark. -/
theorem isChar_iff (h : isNameChar c = true) :
    Name.isChar c = true ↔ (Text.isMark c = true → Text.isAlphabetic c = true) := by
  constructor
  · intro hchar hmark
    have hsign : ¬ (c = '_' ∨ c = '-' ∨ c = '.' ∨ c = '\u00b7' ∨ c = ':') := by
      intro hsign
      rw [isMark_sign hsign] at hmark
      cases hmark
    simp only [not_or] at hsign
    simpa [Name.isChar, Text.isNumeric_of_isMark hmark, hsign] using hchar
  · intro hmark
    by_cases hm : Text.isMark c = true
    · simp [Name.isChar, hmark hm]
    · simp only [isNameChar, hm, Bool.or_false, Bool.or_eq_true] at h
      rw [Name.isChar, Text.isAlphabetic, Text.isNumeric]
      rcases h with ((((h | h) | h) | h) | h) | h <;> simp [h]

theorem colon_notMem {cs : List Char} (h : IsSimpleName cs) : ':' ∉ cs := by
  intro hmem
  cases cs with
  | nil => cases hmem
  | cons c cs =>
    rcases List.mem_cons.mp hmem with rfl | hmem
    · exact absurd h.1 (by decide)
    · exact absurd (h.2 _ hmem) (by decide)

theorem splitColon?_append {lead more : List Char} (h : ':' ∉ lead) :
    Name.splitColon? (lead ++ ':' :: more) = some (lead, more) := by
  induction lead with
  | nil => rfl
  | cons c lead ih =>
    have hc : (c == ':') = false := beq_false_of_ne fun hc => h (hc ▸ .head _)
    rw [List.cons_append, Name.splitColon?, hc, ih fun hmem => h (.tail _ hmem)]
    rfl

theorem splitColon?_eq_none {cs : List Char} (h : ':' ∉ cs) : Name.splitColon? cs = none := by
  induction cs with
  | nil => rfl
  | cons c cs ih =>
    have hc : (c == ':') = false := beq_false_of_ne fun hc => h (hc ▸ .head _)
    rw [Name.splitColon?, hc, ih fun hmem => h (.tail _ hmem)]
    rfl

theorem isUnqualified_iff (h : IsSimpleName cs) :
    Name.isUnqualified cs = true ↔ MarksAlphabetic cs := by
  cases cs with
  | nil => exact h.elim
  | cons c cs =>
    have hstart := isStartChar_of_start h.1
    have hfirst : Text.isMark c = true → Text.isAlphabetic c = true := by
      intro hmark
      rw [Name.isStartChar, Bool.or_eq_true, beq_iff_eq] at hstart
      rcases hstart with hletter | hsign
      · exact hletter
      · rw [isMark_sign (.inl hsign)] at hmark
        cases hmark
    rw [Name.isUnqualified, hstart, Bool.true_and, List.all_eq_true, MarksAlphabetic,
      List.forall_mem_cons, and_iff_right hfirst]
    exact forall₂_congr fun d hd => isChar_iff (h.2 d hd)

theorem isQualified_iff (h : IsName cs) : Name.isQualified cs = true ↔ MarksAlphabetic cs := by
  rcases h with h | ⟨declared, localName, rfl, hd, hl⟩
  · rw [Name.isQualified, splitColon?_eq_none (colon_notMem h)]
    exact isUnqualified_iff h
  · have hcolon : Text.isMark ':' = true → Text.isAlphabetic ':' = true := by
      rw [isMark_sign (by simp)]
      exact nofun
    rw [Name.isQualified, splitColon?_append (colon_notMem hd), Bool.and_eq_true,
      isUnqualified_iff hd, isUnqualified_iff hl]
    simp only [MarksAlphabetic, List.forall_mem_append, List.forall_mem_cons,
      and_iff_right hcolon]

end Lexer

/-- A name is refused as none if it has not the form of one, whatever the scope declares. -/
theorem Scope.makeName_eq_invalid {S : Scope} {s : String} :
    S.makeName s = .error (.invalidName s) ↔ Name.isQualified s.toList = false := by
  rw [makeName]
  split
  · next h =>
    rw [h]
    refine iff_of_false ?_ (by decide)
    split
    · exact nofun
    · next declared localName _ _ =>
      rw [uriForPrefix]
      split <;> exact nofun
  · next h => exact iff_of_true rfl (Bool.eq_false_iff.mpr h)

/-- What a text has for names and prefixes is taken by those who resolve it, up to marks that are
not alphabetic, and for these it is refused. -/
theorem TokenList.ofText_names {text : String} {p : PlacedToken} (hp : p ∈ (ofText text).tokens) :
    (∀ s, p.token = .name s ∨ p.token = .function s →
      (Name.isQualified s.toList = true ↔ Lexer.MarksAlphabetic s.toList) ∧
        ∀ S : Scope, S.makeName s = .error (.invalidName s) ↔ ¬ Lexer.MarksAlphabetic s.toList) ∧
      ∀ s, p.token = .prefixWildcard s →
        (Name.isUnqualified s.toList = true ↔ Lexer.MarksAlphabetic s.toList) := by
  obtain ⟨behind, hstands⟩ := ofChars_stands p hp
  constructor
  · intro s hs
    have hname : Lexer.IsName s.toList := by
      rcases hs with hs | hs
      · rw [hs] at hstands
        exact hstands.1
      · rw [hs] at hstands
        exact hstands.1
    have hiff := Lexer.isQualified_iff hname
    refine ⟨hiff, fun S => ?_⟩
    rw [Scope.makeName_eq_invalid, ← hiff, Bool.not_eq_true]
  · intro s hs
    rw [hs] at hstands
    exact Lexer.isUnqualified_iff hstands

/-- A letter with an accent behind it as a mark of its own. -/
theorem TokenList.ofText_names_accent :
    (⟨.name "e\u0301", 0, 3⟩ : PlacedToken) ∈ (ofText "e\u0301").tokens ∧
      ∀ S : Scope, S.makeName "e\u0301" = .error (.invalidName "e\u0301") := by
  have hp : (⟨.name "e\u0301", 0, 3⟩ : PlacedToken) ∈ (ofText "e\u0301").tokens := by
    decide +kernel
  have haccent : ¬ Lexer.MarksAlphabetic "e\u0301".toList := by
    intro h
    exact absurd (h '\u0301' (by decide) (by decide +kernel)) (by decide +kernel)
  exact ⟨hp, fun S => (((ofText_names hp).1 _ (.inl rfl)).2 S).mpr haccent⟩

end PathLanguage
