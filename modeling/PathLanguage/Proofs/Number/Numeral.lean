/- The texts that denote a number: digits with an optional point, behind an optional minus and with
nothing but blanks around them. -/
import PathLanguage.Number.Literal
import PathLanguage.Proofs.Number.Rounding

namespace PathLanguage

namespace Text

variable {left cs right : List Char}

theorem isBlank_of_isDigit {c : Char} (h : c.isDigit = true) : isBlank c = false := by
  cases hb : isBlank c with
  | false => rfl
  | true =>
    simp only [isBlank, Bool.or_eq_true, beq_iff_eq] at hb
    obtain ((rfl | rfl) | rfl) | rfl := hb <;> exact absurd h (by decide)

/-- Blanks around a text without any are trimmed off. -/
theorem trim_append (hl : ∀ c ∈ left, isBlank c = true) (hr : ∀ c ∈ right, isBlank c = true)
    (hne : cs ≠ []) (h : ∀ c ∈ cs, isBlank c = false) : trim (left ++ cs ++ right) = cs := by
  have hdrop (ls ms rs : List Char) (hls : ∀ c ∈ ls, isBlank c = true) (hms : ms ≠ [])
      (hsolid : ∀ c ∈ ms, isBlank c = false) :
      (ls ++ (ms ++ rs)).dropWhile isBlank = ms ++ rs := by
    rw [List.dropWhile_append_of_pos hls]
    cases ms with
    | nil => exact absurd rfl hms
    | cons c ms =>
      rw [List.cons_append, List.dropWhile_cons_of_neg]
      rw [hsolid c (List.mem_cons_self ..)]
      exact Bool.false_ne_true
  have hback := hdrop right.reverse cs.reverse []
    (fun c hc => hr c (List.mem_reverse.mp hc)) (mt List.reverse_eq_nil_iff.mp hne)
    (fun c hc => h c (List.mem_reverse.mp hc))
  rw [List.append_nil] at hback
  rw [trim, List.append_assoc, hdrop left cs right hl hne h, List.reverse_append, hback,
    List.reverse_reverse]

/-- What is trimmed off a text are blanks. -/
theorem exists_trim (cs : List Char) : ∃ left right,
    (∀ c ∈ left ++ right, isBlank c = true) ∧ cs = left ++ trim cs ++ right := by
  let rest := cs.dropWhile isBlank
  refine ⟨cs.takeWhile isBlank, (rest.reverse.takeWhile isBlank).reverse, ?_, ?_⟩
  · intro c hc
    rw [List.mem_append, List.mem_reverse] at hc
    exact hc.elim List.mem_takeWhile_imp List.mem_takeWhile_imp
  · rw [trim, List.append_assoc, ← List.reverse_append, List.takeWhile_append_dropWhile,
      List.reverse_reverse, List.takeWhile_append_dropWhile]

end Text

/-- Perhaps a minus, then digits, then perhaps a point and more digits; there is at least one
digit. -/
structure Numeral where
  negative : Bool
  whole : List Char
  fraction : Option (List Char)
  digits : ∀ c ∈ whole ++ fraction.getD [], c.isDigit = true
  nonempty : whole ++ fraction.getD [] ≠ []

namespace Numeral

open Number

variable {n : Numeral} {c : Char}

/-- The digits and the point. -/
def unsigned (n : Numeral) : List Char := n.whole ++ n.fraction.elim [] ('.' :: ·)

def text (n : Numeral) : List Char := if n.negative then '-' :: n.unsigned else n.unsigned

/-- What a numeral denotes, its sign aside. -/
def amount (n : Numeral) : ℚ := Decimal.amount n.whole (n.fraction.getD [])

/-- A numeral is all of a text but for blanks around it. -/
def Fills (n : Numeral) (s : String) : Prop :=
  ∃ left right, (∀ c ∈ left ++ right, Text.isBlank c = true) ∧ s.toList = left ++ n.text ++ right

/-- The digits behind the point. -/
def decimals (n : Numeral) : List Char := n.fraction.getD []

theorem mem_unsigned :
    c ∈ n.unsigned ↔ c ∈ n.whole ++ n.decimals ∨ c = '.' ∧ n.fraction.isSome := by
  unfold unsigned decimals
  cases n.fraction with
  | none => simp
  | some f => simp [or_assoc, or_comm]

theorem isDigit_of_mem_unsigned (h : c ∈ n.unsigned) : c.isDigit = true ∨ c = '.' :=
  (mem_unsigned.mp h).imp (n.digits c) And.left

theorem mem_text (h : c ∈ n.text) : c.isDigit = true ∨ c = '.' ∨ c = '-' := by
  unfold text at h
  split at h
  · cases h with
    | head => exact .inr (.inr rfl)
    | tail _ h => exact (isDigit_of_mem_unsigned h).imp_right .inl
  · exact (isDigit_of_mem_unsigned h).imp_right .inl

theorem isBlank_of_mem_text (h : c ∈ n.text) : Text.isBlank c = false := by
  obtain hdigit | rfl | rfl := mem_text h
  · exact Text.isBlank_of_isDigit hdigit
  · rfl
  · rfl

theorem exists_digit (n : Numeral) : ∃ c ∈ n.text, c.isDigit = true := by
  obtain ⟨c, hc⟩ := List.exists_mem_of_ne_nil _ n.nonempty
  have hu : c ∈ n.unsigned := mem_unsigned.mpr (.inl hc)
  refine ⟨c, ?_, n.digits c hc⟩
  unfold text
  split
  · exact .tail _ hu
  · exact hu

/-- Trimming the text that a numeral fills leaves the numeral. -/
theorem Fills.trim {s : String} (h : n.Fills s) : Text.trim s.toList = n.text := by
  obtain ⟨left, right, hblank, hs⟩ := h
  rw [hs]
  refine Text.trim_append (fun c hc => hblank c (List.mem_append_left _ hc))
    (fun c hc => hblank c (List.mem_append_right _ hc)) ?_ fun c hc => isBlank_of_mem_text hc
  obtain ⟨c, hc, -⟩ := n.exists_digit
  exact List.ne_nil_of_mem hc

theorem fills_iff {s : String} : n.Fills s ↔ Text.trim s.toList = n.text := by
  constructor
  · exact Fills.trim
  · intro h
    obtain ⟨left, right, hblank, hs⟩ := Text.exists_trim s.toList
    exact ⟨left, right, hblank, h ▸ hs⟩

/-- The digits of a numeral are read, the point aside. -/
theorem ofUnsignedNumeral_unsigned (n : Numeral) (negative : Bool) :
    ofUnsignedNumeral negative n.unsigned =
      ofDecimal negative (ofDigits (n.whole ++ n.decimals)) (-(n.decimals.length : Int)) := by
  obtain ⟨_, whole, fraction, hdigits, hne⟩ := n
  have hwhole : ∀ c ∈ whole, c.isDigit = true := fun c hc => hdigits c (List.mem_append_left _ hc)
  unfold unsigned decimals ofUnsignedNumeral
  cases fraction with
  | none =>
    have hnonempty : whole.isEmpty = false := by simpa using hne
    simp [List.takeWhile_eq_self_iff.mpr hwhole, List.dropWhile_eq_nil_iff.mpr hwhole, hnonempty]
  | some f =>
    have htake : (whole ++ '.' :: f).takeWhile Char.isDigit = whole := by
      rw [List.takeWhile_append_of_pos hwhole]
      exact List.append_nil _
    have hdrop : (whole ++ '.' :: f).dropWhile Char.isDigit = '.' :: f := by
      rw [List.dropWhile_append_of_pos hwhole]
      rfl
    have hall : (f.all Char.isDigit && !(whole.isEmpty && f.isEmpty)) = true := by
      rw [Bool.and_eq_true, List.all_eq_true]
      exact ⟨fun c hc => hdigits c (List.mem_append_right _ hc),
        by simpa [imp_iff_not_or] using hne⟩
    simp only [Option.elim_some, htake, hdrop, hall, if_true, Option.getD_some]

/-- Only numerals are read as numbers. -/
theorem exists_of_ofUnsignedNumeral {negative : Bool} {cs : List Char}
    (h : ofUnsignedNumeral negative cs ≠ .nan) :
    ∃ n : Numeral, n.negative = negative ∧ n.unsigned = cs := by
  have hsplit : cs.takeWhile Char.isDigit ++ cs.dropWhile Char.isDigit = cs :=
    List.takeWhile_append_dropWhile
  have hwhole : ∀ c ∈ cs.takeWhile Char.isDigit, c.isDigit = true := fun c hc =>
    List.mem_takeWhile_imp hc
  unfold ofUnsignedNumeral at h
  extract_lets whole at h
  split at h
  · next hrest =>
    rw [hrest, List.append_nil] at hsplit
    by_cases hempty : whole.isEmpty = true
    · exact absurd (if_pos hempty) h
    · refine ⟨⟨negative, whole, none, ?_, ?_⟩, rfl, ?_⟩
      · simpa using hwhole
      · simpa using hempty
      · rw [← hsplit]
        exact List.append_nil _
  · next fraction hrest =>
    rw [hrest] at hsplit
    by_cases hdigits : (fraction.all Char.isDigit && !(whole.isEmpty && fraction.isEmpty)) = true
    · rw [Bool.and_eq_true, List.all_eq_true] at hdigits
      refine ⟨⟨negative, whole, some fraction, ?_, ?_⟩, rfl, hsplit⟩
      · intro c hc
        exact (List.mem_append.mp hc).elim (hwhole c) (hdigits.1 c)
      · simpa [imp_iff_not_or] using hdigits.2
    · exact absurd (if_neg hdigits) h
  · exact absurd rfl h

/-- A numeral that fills a text is read. -/
theorem Fills.ofText_eq {s : String} (h : n.Fills s) : ofText s =
    ofDecimal n.negative (ofDigits (n.whole ++ n.decimals)) (-(n.decimals.length : Int)) := by
  rw [ofText, h.trim, ← n.ofUnsignedNumeral_unsigned]
  unfold text
  split
  · next cs hcs =>
    split at hcs
    · next hneg =>
      cases hcs
      rw [hneg]
    · have hminus : '-' ∈ n.unsigned := hcs ▸ List.mem_cons_self ..
      exact absurd (isDigit_of_mem_unsigned hminus) (by decide)
  · next hplain =>
    split at hplain
    · exact absurd rfl (hplain _)
    · next hneg =>
      rw [Bool.eq_false_of_not_eq_true hneg]
      rfl

/-- A text that is read as a number is filled by a numeral. -/
theorem exists_fills {s : String} (h : ofText s ≠ .nan) : ∃ n : Numeral, n.Fills s := by
  rw [ofText] at h
  split at h
  · next cs hcs =>
    obtain ⟨n, hneg, hn⟩ := exists_of_ofUnsignedNumeral h
    refine ⟨n, fills_iff.mpr ?_⟩
    rw [hcs, text, if_pos hneg, hn]
  · next hplain =>
    obtain ⟨n, hneg, hn⟩ := exists_of_ofUnsignedNumeral h
    refine ⟨n, fills_iff.mpr ?_⟩
    rw [text, if_neg (Bool.eq_false_iff.mp hneg), hn]

section Literal

variable {cs : List Char}

/-- A text of digits and points begins with no sign. -/
theorem splitSign_of_unsigned (h : ∀ c ∈ cs, c.isDigit = true ∨ c = '.') :
    splitSign cs = (false, cs) := by
  unfold splitSign
  split
  · exact absurd (h '-' (List.mem_cons_self ..)) (by decide)
  · exact absurd (h '+' (List.mem_cons_self ..)) (by decide)
  · rfl

theorem toLower_of_unsigned (h : c.isDigit = true ∨ c = '.') : c.toLower = c := by
  have hlow : ¬ ('A'.val ≤ c.val ∧ c.val ≤ 'Z'.val) := by
    obtain h | rfl := h
    · simp only [Char.isDigit, Bool.and_eq_true, decide_eq_true_eq, ge_iff_le,
        UInt32.le_iff_toNat_le] at h ⊢
      have hA : '9'.val.toNat < 'A'.val.toNat := by decide
      exact fun hup => absurd (hup.1.trans h.2) (Nat.not_le.mpr hA)
    · decide
  unfold Char.toLower
  exact dif_neg hlow

/-- A numeral has no exponent. -/
theorem not_exponent_of_mem_unsigned (h : c ∈ n.unsigned) : (!(c == 'e' || c == 'E')) = true := by
  rw [Bool.not_eq_true', Bool.or_eq_false_iff, beq_eq_false_iff_ne, beq_eq_false_iff_ne]
  constructor
  · rintro rfl
    exact absurd (isDigit_of_mem_unsigned h) (by decide)
  · rintro rfl
    exact absurd (isDigit_of_mem_unsigned h) (by decide)

/-- The point parts the digits. -/
theorem unsigned_parts (n : Numeral) : n.unsigned.takeWhile (· != '.') = n.whole ∧
    (n.unsigned.dropWhile (· != '.')).drop 1 = n.decimals := by
  have hpoint : ∀ c ∈ n.whole, (c != '.') = true := by
    intro c hc
    rw [bne_iff_ne]
    rintro rfl
    exact absurd (n.digits '.' (List.mem_append_left _ hc)) (by decide)
  unfold unsigned decimals
  cases n.fraction with
  | none => simp [List.takeWhile_eq_self_iff.mpr hpoint, List.dropWhile_eq_nil_iff.mpr hpoint]
  | some f =>
    rw [List.takeWhile_append_of_pos hpoint, List.dropWhile_append_of_pos hpoint]
    exact ⟨List.append_nil _, rfl⟩

end Literal

/-- The numeral is read like any decimal literal. -/
theorem ofLiteral_text (n : Numeral) : ofLiteral (String.ofList n.text) =
    ofDecimal n.negative (ofDigits (n.whole ++ n.decimals)) (-(n.decimals.length : Int)) := by
  have hsign : splitSign n.text = (n.negative, n.unsigned) := by
    unfold text
    cases n.negative with
    | false => exact splitSign_of_unsigned fun c hc => isDigit_of_mem_unsigned hc
    | true => rfl
  have hlower : n.unsigned.map Char.toLower = n.unsigned :=
    (List.map_congr_left fun c hc => toLower_of_unsigned (isDigit_of_mem_unsigned hc)).trans
      (List.map_id' _)
  have hword {w : String} (h : ∃ c ∈ w.toList, ¬ (c.isDigit = true ∨ c = '.')) :
      (String.ofList n.unsigned == w) = false := by
    rw [beq_eq_false_iff_ne]
    rintro rfl
    obtain ⟨c, hc, hother⟩ := h
    rw [String.toList_ofList] at hc
    exact hother (isDigit_of_mem_unsigned hc)
  have hall : n.unsigned.takeWhile (fun c => !(c == 'e' || c == 'E')) = n.unsigned :=
    List.takeWhile_eq_self_iff.mpr fun c hc => not_exponent_of_mem_unsigned hc
  have hnone : n.unsigned.dropWhile (fun c => !(c == 'e' || c == 'E')) = [] :=
    List.dropWhile_eq_nil_iff.mpr fun c hc => not_exponent_of_mem_unsigned hc
  obtain ⟨hwhole, hfraction⟩ := n.unsigned_parts
  have hinf := hword (w := "inf") ⟨'i', by decide, by decide⟩
  have hinfinity := hword (w := "infinity") ⟨'i', by decide, by decide⟩
  have hnan := hword (w := "nan") ⟨'n', by decide, by decide⟩
  have hexponent : readExponent [] = 0 := rfl
  simp only [ofLiteral, String.toList_ofList, hsign, hlower, hinf, hinfinity, hnan, Bool.or_false,
    Bool.false_eq_true, if_false, hall, hnone, hwhole, hfraction, List.drop_nil, hexponent,
    Int.zero_sub]

end Numeral

namespace Number

/-- A text denotes a number just if a numeral fills it, and then the value nearest to the amount of
the numeral; characters that no numeral has, or the lack of any digit, make it NaN. -/
theorem ofText_spec (s : String) :
    (ofText s ≠ .nan ↔ ∃ n : Numeral, n.Fills s) ∧
    (∀ n : Numeral, n.Fills s → (∀ x, Rounds n.negative n.amount x ↔ x = ofText s) ∧
      ofText s = ofLiteral (String.ofList n.text)) ∧
    ((∃ c ∈ Text.trim s.toList, c.isDigit = false ∧ c ≠ '.' ∧ c ≠ '-') ∨
      (∀ c ∈ s.toList, c.isDigit = false) → ofText s = .nan) := by
  have hrounds : ∀ n : Numeral, n.Fills s → Rounds n.negative n.amount (ofText s) := by
    intro n h
    rw [h.ofText_eq]
    exact ofDecimal_rounds n.negative n.whole n.decimals
  refine ⟨⟨Numeral.exists_fills, ?_⟩, ?_, ?_⟩
  · rintro ⟨n, h⟩
    exact (hrounds n h).ne_nan
  · intro n h
    refine ⟨fun x => ⟨fun hx => hx.unique (hrounds n h), ?_⟩,
      h.ofText_eq.trans n.ofLiteral_text.symm⟩
    rintro rfl
    exact hrounds n h
  · intro hother
    by_contra hne
    obtain ⟨n, h⟩ := Numeral.exists_fills hne
    obtain ⟨c, hc, hdigit, hpoint, hminus⟩ | hnone := hother
    · rw [h.trim] at hc
      obtain hd | rfl | rfl := Numeral.mem_text hc
      · exact Bool.false_ne_true (hdigit.symm.trans hd)
      · exact hpoint rfl
      · exact hminus rfl
    · obtain ⟨left, right, -, hs⟩ := h
      obtain ⟨c, hc, hd⟩ := n.exists_digit
      have hcs : c ∈ s.toList := hs ▸ List.mem_append_left _ (List.mem_append_right _ hc)
      exact Bool.false_ne_true ((hnone c hcs).symm.trans hd)

/-- A numeral between blanks is read; an exponent, a plus sign, a blank inside, a lone point and a
word are not. -/
theorem ofText_spec_numeral :
    Rounds true (25 / 2) (ofText "\t-12.5 ") ∧ ofText "1e3" = .nan ∧ ofText "+1" = .nan ∧
      ofText "1 2" = .nan ∧ ofText "-." = .nan ∧ ofText "inf" = .nan := by
  obtain ⟨n, hnegative, hamount, hfills⟩ :
      ∃ n : Numeral, n.negative = true ∧ n.amount = 25 / 2 ∧ n.Fills "\t-12.5 " := by
    refine ⟨⟨true, ['1', '2'], some ['5'], List.all_eq_true.mp rfl, by decide⟩, rfl, ?_,
      ['\t'], [' '], List.all_eq_true.mp rfl, by decide⟩
    have hwhole : ofDigits ['1', '2'] = 12 := by decide
    have hfraction : ofDigits ['5'] = 5 := by decide
    simp only [Numeral.amount, Decimal.amount, Option.getD_some, hwhole, hfraction]
    norm_num
  have hnone {s : String} (h : s.toList.any Char.isDigit = false) : ofText s = .nan :=
    (ofText_spec s).2.2 (.inr fun c hc => Bool.eq_false_iff.mpr (List.any_eq_false.mp h c hc))
  obtain ⟨hread, -⟩ := (ofText_spec "\t-12.5 ").2.1 n hfills
  rw [hnegative, hamount] at hread
  exact ⟨(hread _).mpr rfl, (ofText_spec "1e3").2.2 (.inl ⟨'e', by decide⟩),
    (ofText_spec "+1").2.2 (.inl ⟨'+', by decide⟩), (ofText_spec "1 2").2.2 (.inl ⟨' ', by decide⟩),
    hnone (by decide), hnone (by decide)⟩

end Number

end PathLanguage
