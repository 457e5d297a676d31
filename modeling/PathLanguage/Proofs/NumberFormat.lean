/- The text of a number in a picture shows the same amount as its decimal rendering, with as many
digits as the picture asks for and the separators where it puts them. -/
import PathLanguage.Proofs.Number.Decimal
import PathLanguage.Proofs.NumberFormat.Picture

namespace PathLanguage

/-- Whole digits and the digits of a fraction as a picture asks for them: there are some, as many
of either as it says at least and most, and no zeros at the outer ends that it does not ask for,
but for a single one where there would be no digit. -/
structure Picture.Admits (p : Picture) (whole fraction : List Char) : Prop where
  digits : ∀ c ∈ whole ++ fraction, c.isDigit = true
  nonempty : whole ++ fraction ≠ []
  leastWhole : p.leastWhole ≤ whole.length
  noLeadingZero : p.leastWhole < whole.length → whole.head? = some '0' →
    whole = ['0'] ∧ fraction = []
  leastFraction : p.leastFraction ≤ fraction.length
  mostFraction : fraction.length ≤ p.mostFraction
  noTrailingZero : p.leastFraction < fraction.length → fraction.getLast? ≠ some '0'

namespace NumberFormat

/-- The characters of a format that mean something in a picture or in the text of a number. -/
def symbols (f : NumberFormat) : List Char :=
  [f.decimalSeparator, f.groupingSeparator, f.minus, f.percent, f.perMille, f.zero, f.digit,
    f.patternSeparator]

/-- A format tells its symbols apart, and ten characters from its zero on, none of them one of the
separators, are digits. -/
structure Proper (f : NumberFormat) : Prop where
  distinct : f.symbols.Nodup
  digits : ∀ v < 10, (f.zero.toNat + v).isValidChar
  apart : ∀ v < 10, f.zero.toNat + v ≠ f.decimalSeparator.toNat ∧
    f.zero.toNat + v ≠ f.groupingSeparator.toNat

/-- The default character for a digit or the decimal separator of a format. -/
def delocalize (f : NumberFormat) (c : Char) : Char :=
  if c = f.decimalSeparator then '.' else Char.ofNat ('0'.toNat + (c.toNat - f.zero.toNat))

/-- A formatted text without its grouping separators, in default characters. -/
def plain (f : NumberFormat) (cs : List Char) : List Char :=
  (cs.filter (· ≠ f.groupingSeparator)).map f.delocalize

/-- Characters with a separator before each one whose index has a property. -/
def separated (separator : Char) (P : Nat → Bool) (cs : List Char) : List Char :=
  (cs.mapIdx fun i c => if P i then [separator, c] else [c]).flatten

/-- Whole digits in a format: a grouping separator stands before each digit, other than the first,
from which a multiple of the group size remain. -/
def wholeText (f : NumberFormat) (grouping : Option Nat) (whole : List Char) : List Char :=
  separated f.groupingSeparator (fun i => 0 < i && grouping.any (· ∣ whole.length - i))
    (whole.map f.localize)

/-- The digits of a fraction in a format, after the decimal separator if there are any. -/
def fractionText (f : NumberFormat) (fraction : List Char) : List Char :=
  if fraction = [] then [] else f.decimalSeparator :: fraction.map f.localize

variable {f : NumberFormat} {c : Char} {cs whole fraction : List Char}

/-- Digits are shown by the characters from the zero of a format on, if they are characters. -/
theorem localize_toNat (hdigits : ∀ v < 10, (f.zero.toNat + v).isValidChar)
    (hc : c.isDigit = true) : c.toNat - '0'.toNat < 10 ∧
      (f.localize c).toNat = f.zero.toNat + (c.toNat - '0'.toNat) := by
  have hv : c.toNat - '0'.toNat < 10 := by
    simp only [Char.isDigit, Bool.and_eq_true, decide_eq_true_eq] at hc
    have hle : c.toNat ≤ '9'.toNat := hc.2
    have hnine : '9'.toNat = '0'.toNat + 9 := rfl
    omega
  refine ⟨hv, ?_⟩
  rw [localize, if_pos hc]
  dsimp only
  rw [if_pos (hdigits _ hv), Char.ofNat, dif_pos (hdigits _ hv)]
  rfl

theorem delocalize_localize (hf : f.Proper) (hc : c.isDigit = true) :
    f.delocalize (f.localize c) = c := by
  obtain ⟨hv, hcode⟩ := localize_toNat hf.digits hc
  have hne : f.localize c ≠ f.decimalSeparator := fun h =>
    (hf.apart _ hv).1 (hcode.symm.trans (congrArg Char.toNat h))
  have hzero : '0'.toNat ≤ c.toNat := by
    simp only [Char.isDigit, Bool.and_eq_true, decide_eq_true_eq] at hc
    exact hc.1
  rw [delocalize, if_neg hne, hcode, Nat.add_sub_cancel_left, Nat.add_sub_cancel' hzero,
    Char.ofNat_toNat]

theorem localize_ne_groupingSeparator (hf : f.Proper) (hc : c.isDigit = true) :
    f.localize c ≠ f.groupingSeparator := fun h =>
  have ⟨hv, hcode⟩ := localize_toNat hf.digits hc
  (hf.apart _ hv).2 (hcode.symm.trans (congrArg Char.toNat h))

theorem separated_cons (separator : Char) (P : Nat → Bool) (c : Char) (cs : List Char) :
    separated separator P (c :: cs) =
      (if P 0 then [separator, c] else [c]) ++ separated separator (fun i => P (i + 1)) cs := by
  simp [separated, List.mapIdx_cons]

theorem separated_never (separator : Char) (cs : List Char) :
    separated separator (fun _ => false) cs = cs := by
  induction cs with
  | nil => rfl
  | cons c cs ih => rw [separated_cons, ih]; rfl

/-- Without the separators the characters are left. -/
theorem filter_separated {separator : Char} (P : Nat → Bool) {cs : List Char}
    (h : ∀ c ∈ cs, c ≠ separator) : (separated separator P cs).filter (· ≠ separator) = cs := by
  induction cs generalizing P with
  | nil => rfl
  | cons c cs ih =>
    obtain ⟨hc, hcs⟩ := List.forall_mem_cons.mp h
    rw [separated_cons, List.filter_append, ih _ hcs]
    cases P 0 <;> simp [hc]

/-- What grouping puts after the first character: each of the others, after a separator where a
multiple of the group size remain. -/
theorem group_cons (separator : Char) (size : Nat) (c : Char) (cs : List Char) :
    group separator size (c :: cs) =
      c :: separated separator (fun i => size ∣ cs.length - i) cs := by
  induction cs generalizing c with
  | nil => rfl
  | cons d cs ih =>
    have hhead : ((cs.length + 1) % size == 0) = decide (size ∣ cs.length + 1) := by
      rw [Bool.eq_iff_iff, beq_iff_eq, decide_eq_true_iff, Nat.dvd_iff_mod_eq_zero]
    rw [group, ih, separated_cons, hhead]
    simp only [List.length_cons, Nat.add_sub_add_right, Nat.sub_zero]
    split <;> rfl

/-- Grouping puts the separator where the group size says. -/
theorem group_eq (separator : Char) (size : Nat) (cs : List Char) :
    group separator size cs =
      separated separator (fun i => 0 < i && size ∣ cs.length - i) cs := by
  cases cs with
  | nil => rfl
  | cons c cs =>
    rw [group_cons, separated_cons]
    simp

/-- The whole digits of a number in the groups of a picture. -/
theorem wholeText_eq (grouping : Option Nat) (whole : List Char) :
    f.wholeText grouping whole = match grouping with
      | some size => group f.groupingSeparator size (whole.map f.localize)
      | none => whole.map f.localize := by
  cases grouping with
  | none => simp [wholeText, separated_never]
  | some size => simp [wholeText, group_eq]

theorem plain_append (xs ys : List Char) : f.plain (xs ++ ys) = f.plain xs ++ f.plain ys := by
  simp [plain]

theorem ne_groupingSeparator_of_mem (hf : f.Proper) (h : ∀ c ∈ cs, c.isDigit = true) :
    ∀ c ∈ cs.map f.localize, c ≠ f.groupingSeparator := by
  intro c hc
  obtain ⟨d, hd, rfl⟩ := List.mem_map.mp hc
  exact localize_ne_groupingSeparator hf (h d hd)

theorem map_delocalize (hf : f.Proper) (h : ∀ c ∈ cs, c.isDigit = true) :
    (cs.map f.localize).map f.delocalize = cs := by
  rw [List.map_map]
  exact (List.map_congr_left fun c hc => delocalize_localize hf (h c hc)).trans (List.map_id cs)

/-- Whole digits are read back from their text. -/
theorem plain_wholeText (hf : f.Proper) (h : ∀ c ∈ whole, c.isDigit = true)
    (grouping : Option Nat) : f.plain (f.wholeText grouping whole) = whole := by
  rw [plain, wholeText, filter_separated _ (ne_groupingSeparator_of_mem hf h), map_delocalize hf h]

theorem plain_fractionText (hf : f.Proper) (h : ∀ c ∈ fraction, c.isDigit = true) :
    f.plain (f.fractionText fraction) = if fraction = [] then [] else '.' :: fraction := by
  have hpoint : f.decimalSeparator ≠ f.groupingSeparator := by
    have := hf.distinct
    simp [symbols] at this
    tauto
  have hfilter : (fraction.map f.localize).filter (· ≠ f.groupingSeparator) =
      fraction.map f.localize := by
    simpa using ne_groupingSeparator_of_mem hf h
  unfold fractionText plain
  split
  · rfl
  · rw [List.filter_cons_of_pos (by simpa using hpoint), hfilter, List.map_cons,
      map_delocalize hf h, delocalize, if_pos rfl]

/-- Zeros are trimmed off a fraction, but not below the least number of its digits. -/
theorem trimFraction_spec {least : Nat} (h : least ≤ cs.length) :
    (∃ zs, (∀ c ∈ zs, c = '0') ∧ cs = trimFraction least cs ++ zs) ∧
      least ≤ (trimFraction least cs).length ∧
      (least < (trimFraction least cs).length → (trimFraction least cs).getLast? ≠ some '0') := by
  obtain ⟨zs, hzs, hrest⟩ := Decimal.dropTrailingZeros_append (cs.drop least)
  have hlength : (cs.take least).length = least := List.length_take_of_le h
  refine ⟨⟨zs, hzs, ?_⟩, ?_, fun hlt => ?_⟩
  · rw [trimFraction, List.append_assoc, ← hrest, List.take_append_drop]
  · rw [trimFraction, List.length_append, hlength]
    exact Nat.le_add_right _ _
  · rw [trimFraction, List.length_append, hlength] at hlt
    have hne : Decimal.dropTrailingZeros (cs.drop least) ≠ [] := by
      rw [← List.length_pos_iff]
      omega
    rw [trimFraction, List.getLast?_append_of_ne_nil _ hne]
    exact Decimal.getLast?_dropTrailingZeros _

/-- The whole digits of a number that are shown: a leading zero only where a picture asks for more
digits than there are, or where no digit would be shown. -/
def wholeDigits (least : Nat) (cs fraction : List Char) : List Char :=
  let trimmed := cs.dropWhile (· == '0')
  let padded := List.replicate (least - trimmed.length) '0' ++ trimmed
  if padded.isEmpty && fraction.isEmpty then ['0'] else padded

/-- Shown are the digits from the first one on that is no zero, after as many zeros as are wanted,
or one zero where there would be no digit. -/
theorem wholeDigits_cases (least : Nat) (cs fraction : List Char) : ∃ zs rest,
    (∀ c ∈ zs, c = '0') ∧ cs = zs ++ rest ∧ rest.head? ≠ some '0' ∧
      (wholeDigits least cs fraction = ['0'] ∧ rest = [] ∧ fraction = [] ∧ least = 0 ∨
        wholeDigits least cs fraction = List.replicate (least - rest.length) '0' ++ rest ∧
          wholeDigits least cs fraction ++ fraction ≠ []) := by
  refine ⟨cs.takeWhile (· == '0'), cs.dropWhile (· == '0'), fun c hc => ?_,
    List.takeWhile_append_dropWhile.symm, fun h => ?_, ?_⟩
  · exact eq_of_beq (List.mem_takeWhile_imp (p := (· == '0')) hc)
  · have hhead := List.head?_dropWhile_not (· == '0') cs
    rw [h] at hhead
    cases hhead
  · unfold wholeDigits
    dsimp only
    split
    · next hnone =>
      simp only [Bool.and_eq_true, List.isEmpty_iff, List.append_eq_nil_iff,
        List.replicate_eq_nil_iff] at hnone
      obtain ⟨⟨hleast, htrim⟩, hfraction⟩ := hnone
      rw [htrim] at hleast
      exact .inl ⟨rfl, htrim, hfraction, by simpa using hleast⟩
    · next hsome =>
      refine .inr ⟨rfl, fun hnil => hsome ?_⟩
      obtain ⟨hwhole, hfraction⟩ := List.append_eq_nil_iff.mp hnil
      simp [hwhole, hfraction]

/-- The whole digits that are shown denote the same, are as many as wanted at least, and begin with
a zero that is not wanted only where there would be no digit. -/
theorem wholeDigits_spec (least : Nat) (cs fraction : List Char) :
    ((∀ c ∈ cs, c.isDigit = true) → ∀ c ∈ wholeDigits least cs fraction, c.isDigit = true) ∧
    Decimal.amount (wholeDigits least cs fraction) fraction = Decimal.amount cs fraction ∧
    wholeDigits least cs fraction ++ fraction ≠ [] ∧
    least ≤ (wholeDigits least cs fraction).length ∧
    (least < (wholeDigits least cs fraction).length →
      (wholeDigits least cs fraction).head? = some '0' →
      wholeDigits least cs fraction = ['0'] ∧ fraction = []) := by
  have hzero : ∀ c ∈ ['0'], c = '0' := fun c => List.mem_singleton.mp
  obtain ⟨zs, rest, hzs, rfl, hrest, ⟨h, rfl, rfl, rfl⟩ | ⟨h, hne⟩⟩ :=
    wholeDigits_cases least cs fraction
  · rw [h]
    refine ⟨fun _ c hc => ?_, ?_, nofun, Nat.zero_le 1, fun _ _ => ⟨rfl, rfl⟩⟩
    · rw [hzero c hc]
      rfl
    · have hsingle : Decimal.amount (['0'] ++ []) [] = Decimal.amount [] [] :=
        Decimal.amount_zeros_append hzero
      exact hsingle.trans (Decimal.amount_zeros_append hzs).symm
  · have hpad : ∀ c ∈ List.replicate (least - rest.length) '0', c = '0' :=
      fun c => List.eq_of_mem_replicate
    refine ⟨fun hcs c hc => ?_, ?_, hne, ?_, fun hlt hz => ?_⟩
    · rw [h] at hc
      rcases List.mem_append.mp hc with hc | hc
      · rw [hpad c hc]
        rfl
      · exact hcs c (List.mem_append_right _ hc)
    · rw [h, Decimal.amount_zeros_append hpad, Decimal.amount_zeros_append hzs]
    · rw [h, List.length_append, List.length_replicate]
      omega
    · rw [h, List.length_append, List.length_replicate] at hlt
      have hnone : least - rest.length = 0 := by omega
      rw [h, hnone] at hz
      exact absurd hz hrest

/-- The text of a number is that of the digits that are shown of its rendering. -/
theorem formatDigits_eq {x : Number} {p : Picture} (hx : x.isInfinite = false)
    (h : x.fixedPlaces p.mostFraction = (whole, fraction)) :
    let shown := trimFraction p.leastFraction fraction
    f.formatDigits x p =
      f.wholeText p.grouping (wholeDigits p.leastWhole whole shown) ++ f.fractionText shown := by
  intro shown
  have hshape : f.formatDigits x p =
      if shown.isEmpty then f.wholeText p.grouping (wholeDigits p.leastWhole whole shown)
      else f.wholeText p.grouping (wholeDigits p.leastWhole whole shown) ++
        f.decimalSeparator :: shown.map f.localize := by
    rw [wholeText_eq, formatDigits, hx, h]
    rfl
  rw [hshape, fractionText]
  by_cases hshown : shown = [] <;> simp [hshown]

/-- The digits of a rendering with the most places that a picture allows are shown as it asks, and
denote the same as all of them. -/
theorem shown_admits {p : Picture} (hp : p.Sound)
    (hdigits : ∀ c ∈ whole ++ fraction, c.isDigit = true)
    (hlength : fraction.length = p.mostFraction) :
    let shown := trimFraction p.leastFraction fraction
    p.Admits (wholeDigits p.leastWhole whole shown) shown ∧
      Decimal.amount (wholeDigits p.leastWhole whole shown) shown =
        Decimal.amount whole fraction := by
  intro shown
  obtain ⟨⟨zs, hzs, hfraction⟩, hleast, htrailing⟩ : (∃ zs, (∀ c ∈ zs, c = '0') ∧
      fraction = shown ++ zs) ∧ p.leastFraction ≤ shown.length ∧
      (p.leastFraction < shown.length → shown.getLast? ≠ some '0') :=
    trimFraction_spec (hlength.symm ▸ hp.fraction)
  obtain ⟨hwhole, hamount, hne, hpadded, hleading⟩ :=
    wholeDigits_spec p.leastWhole whole shown
  refine ⟨⟨fun c hc => ?_, hne, hpadded, hleading, hleast, ?_, htrailing⟩, ?_⟩
  · rcases List.mem_append.mp hc with hc | hc
    · exact hwhole (fun d hd => hdigits d (List.mem_append_left _ hd)) c hc
    · refine hdigits c (List.mem_append_right _ ?_)
      rw [hfraction]
      exact List.mem_append_left zs hc
  · calc
      shown.length ≤ (shown ++ zs).length := by simp
      _ = p.mostFraction := by rw [← hfraction, hlength]
  · calc
      Decimal.amount (wholeDigits p.leastWhole whole shown) shown =
        Decimal.amount whole shown := hamount
      _ = Decimal.amount whole (shown ++ zs) := (Decimal.amount_append_zeros hzs).symm
      _ = Decimal.amount whole fraction := by rw [← hfraction]

/-- A number in a picture is shown by digits that denote the same as its rendering with the most
places that the picture allows, as many as the picture asks for. The text is that of the whole
digits in their groups and of the fraction, and the digits are read back from it. -/
theorem formatDigits_shows (hf : f.Proper) {p : Picture} (hp : f.readPicture cs = .ok p)
    {n : Number} (hn : (n.abs * p.multiplier).isNaN = false)
    (hi : (n.abs * p.multiplier).isInfinite = false) :
    let fixed := (n.abs * p.multiplier).fixedPlaces p.mostFraction
    let text := f.formatDigits (n.abs * p.multiplier) p
    ∃ whole fraction, p.Admits whole fraction ∧
      Decimal.amount whole fraction = Decimal.amount fixed.1 fixed.2 ∧
      text = f.wholeText p.grouping whole ++ f.fractionText fraction ∧
      f.plain text = whole ++ if fraction = [] then [] else '.' :: fraction := by
  intro fixed text
  obtain ⟨hdigits, hlength⟩ := Number.fixedPlaces_spec hn hi p.mostFraction
  obtain ⟨hadmits, hamount⟩ := shown_admits (readPicture_sound hp) hdigits hlength
  have hfixed : fixed = (fixed.1, fixed.2) := rfl
  have htext : text = _ := formatDigits_eq hi hfixed
  refine ⟨_, _, hadmits, hamount, htext, ?_⟩
  rw [htext, plain_append, plain_wholeText hf, plain_fractionText hf]
  · exact fun c hc => hadmits.digits c (List.mem_append_right _ hc)
  · exact fun c hc => hadmits.digits c (List.mem_append_left _ hc)

/-- In a format with wide digits, a point between groups and a comma before the fraction, 1234.5 has
one group of three and one digit of the two that its fraction may have. -/
theorem formatDigits_shows_wide : ∃ (f : NumberFormat) (p : Picture) (n : Number)
    (whole fraction : List Char),
    f.Proper ∧ f.readPicture "#.##０,０#".toList = .ok p ∧
      (n.abs * p.multiplier).isNaN = false ∧ (n.abs * p.multiplier).isInfinite = false ∧
      (n.abs * p.multiplier).fixedPlaces p.mostFraction = ("1234".toList, "50".toList) ∧
      p.Admits whole fraction ∧
      Decimal.amount whole fraction = Decimal.amount "1234".toList "50".toList ∧
      "１.２３４,５".toList = f.wholeText p.grouping whole ++ f.fractionText fraction ∧
      f.plain "１.２３４,５".toList =
        whole ++ if fraction = [] then [] else '.' :: fraction := by
  let f : NumberFormat := { zero := '０', decimalSeparator := ',', groupingSeparator := '.' }
  let p : Picture :=
    { leastWhole := 1, leastFraction := 1, mostFraction := 2, grouping := some 3 }
  let n : Number := .ofText "-1234.5"
  have hf : f.Proper := ⟨by decide, by decide, by decide⟩
  have hp : f.readPicture "#.##０,０#".toList = .ok p := rfl
  have hn : (n.abs * p.multiplier).isNaN = false := by decide +kernel
  have hi : (n.abs * p.multiplier).isInfinite = false := by decide +kernel
  have hfixed : (n.abs * p.multiplier).fixedPlaces p.mostFraction =
    ("1234".toList, "50".toList) := by decide +kernel
  have htext : f.formatDigits (n.abs * p.multiplier) p = "１.２３４,５".toList := by
    decide +kernel
  obtain ⟨whole, fraction, hadmits, hamount, hshown, hplain⟩ := formatDigits_shows hf hp hn hi
  rw [hfixed] at hamount
  rw [htext] at hshown hplain
  exact ⟨f, p, n, whole, fraction, hf, hp, hn, hi, hfixed, hadmits, hamount, hshown, hplain⟩

end NumberFormat

end PathLanguage
