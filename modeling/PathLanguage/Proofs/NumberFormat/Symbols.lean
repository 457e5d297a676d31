/- The text of a number in a picture shows nothing but the text around the digits of the picture and
symbols of the format, as long as the factor of the picture leaves the number finite. -/
import PathLanguage.Proofs.NumberFormat
import PathLanguage.Proofs.NumberFormat.Affix

namespace PathLanguage

namespace Number

theorem ofRatio_isNaN (negative : Bool) (num den : Nat) :
    (ofRatio negative num den).isNaN = false := by
  unfold ofRatio
  dsimp only
  split <;> rfl

/-- A product of finite numbers is a number. -/
theorem mul_isNaN {x y : Number} (hx : x.isNaN = false) (hxi : x.isInfinite = false)
    (hy : y.isNaN = false) (hyi : y.isInfinite = false) : (x * y).isNaN = false := by
  cases x with
  | nan => cases hx
  | infinite s => cases hxi
  | finite a s _ =>
    cases y with
    | nan => cases hy
    | infinite s => cases hyi
    | finite b t _ => exact ofRatio_isNaN (a != b) (s * t) unit

end Number

namespace NumberFormat

/-- One of the ten characters of a format from its zero on. -/
def IsOwnDigit (f : NumberFormat) (c : Char) : Prop := ∃ v < 10, c.toNat = f.zero.toNat + v

variable {f : NumberFormat} {c : Char} {cs whole fraction : List Char} {n : Number} {p : Picture}
  {picture text : String}

/-- A digit of a number is shown by one of the ten characters of the format. -/
theorem localize_isOwnDigit (hdigits : ∀ v < 10, (f.zero.toNat + v).isValidChar)
    (hc : c.isDigit = true) : f.IsOwnDigit (f.localize c) :=
  ⟨_, localize_toNat hdigits hc⟩

/-- Separated characters are all there, and nothing else but the separator. -/
theorem mem_separated {separator : Char} {P : Nat → Bool} :
    (c ∈ separated separator P cs → c = separator ∨ c ∈ cs) ∧
      (c ∈ cs → c ∈ separated separator P cs) := by
  induction cs generalizing P with
  | nil => exact ⟨nofun, nofun⟩
  | cons d cs ih =>
    obtain ⟨hof, hto⟩ := ih (P := fun i => P (i + 1))
    rw [separated_cons, List.mem_append, List.mem_cons]
    cases P 0 <;> simp only [Bool.false_eq_true, if_true, if_false, List.mem_cons, List.not_mem_nil,
      or_false] <;> tauto

/-- The digits of a fraction are all in its text, and nothing else but the decimal separator. -/
theorem mem_fractionText :
    (c ∈ f.fractionText fraction → c = f.decimalSeparator ∨ c ∈ fraction.map f.localize) ∧
      (c ∈ fraction.map f.localize → c ∈ f.fractionText fraction) := by
  unfold fractionText
  split
  · next hnone => exact ⟨nofun, fun hc => absurd hc (by simp [hnone])⟩
  · exact ⟨List.mem_cons.mp, List.mem_cons_of_mem _⟩

/-- The digits of a finite number are shown by symbols of the format; there is at least one. -/
theorem formatDigits_symbols (hdigits : ∀ v < 10, (f.zero.toNat + v).isValidChar)
    (hp : f.readPicture cs = .ok p) {x : Number} (hn : x.isNaN = false)
    (hi : x.isInfinite = false) :
    (∃ c ∈ f.formatDigits x p, f.IsOwnDigit c) ∧
      ∀ c ∈ f.formatDigits x p,
        f.IsOwnDigit c ∨ c = f.groupingSeparator ∨ c = f.decimalSeparator := by
  obtain ⟨whole, fraction, hadmits, htext⟩ : ∃ whole fraction, p.Admits whole fraction ∧
      f.formatDigits x p = f.wholeText p.grouping whole ++ f.fractionText fraction := by
    obtain ⟨hplaces, hlength⟩ := Number.fixedPlaces_spec hn hi p.mostFraction
    have hfixed : x.fixedPlaces p.mostFraction =
      ((x.fixedPlaces p.mostFraction).1, (x.fixedPlaces p.mostFraction).2) := rfl
    exact ⟨_, _, (shown_admits (readPicture_sound hp) hplaces hlength).1, formatDigits_eq hi hfixed⟩
  have hown : ∀ d ∈ whole ++ fraction, f.IsOwnDigit (f.localize d) := fun d hd =>
    localize_isOwnDigit hdigits (hadmits.digits d hd)
  rw [htext]
  constructor
  · obtain ⟨d, hd⟩ := List.exists_mem_of_ne_nil _ hadmits.nonempty
    refine ⟨f.localize d, ?_, hown d hd⟩
    rw [List.mem_append] at hd ⊢
    exact hd.imp (fun hd => mem_separated.2 (List.mem_map_of_mem hd))
      (fun hd => mem_fractionText.2 (List.mem_map_of_mem hd))
  · intro c hc
    rcases List.mem_append.mp hc with hc | hc
    · rcases mem_separated.1 hc with rfl | hc
      · exact .inr (.inl rfl)
      · obtain ⟨d, hd, rfl⟩ := List.mem_map.mp hc
        exact .inl (hown d (List.mem_append_left _ hd))
    · rcases mem_fractionText.1 hc with rfl | hc
      · exact .inr (.inr rfl)
      · obtain ⟨d, hd, rfl⟩ := List.mem_map.mp hc
        exact .inl (hown d (List.mem_append_right _ hd))

/-- An infinite product is shown by the letters of its default rendering, behind the zeros that a
picture asks for. -/
theorem formatDigits_infinite {x : Number} (hx : x.isInfinite = true) (p : Picture) :
    f.formatDigits x p =
      f.wholeText p.grouping (List.replicate (p.leastWhole - 3) '0' ++ ['i', 'n', 'f']) := by
  have htrim : trimFraction p.leastFraction [] = [] := by
    simp [trimFraction, Decimal.dropTrailingZeros]
  have hdrop : ['i', 'n', 'f'].dropWhile (· == '0') = ['i', 'n', 'f'] := rfl
  have hpadded (k : Nat) : (List.replicate k '0' ++ ['i', 'n', 'f']).isEmpty = false := by simp
  rw [wholeText_eq, formatDigits, hx]
  simp only [if_true, htrim, hdrop, hpadded, Bool.false_and]
  rfl

theorem finite_of_factor (h : p.multiplier = 1 ∨ p.multiplier = 100 ∨ p.multiplier = 1000) :
    p.multiplier.isNaN = false ∧ p.multiplier.isInfinite = false := by
  rcases h with h | h | h <;> rw [h] <;> decide +kernel

/-- A format whose ten digits are characters gives its text for what is no number, or the text that
a picture has around its digits, and between: its text for the infinite, or only its digits, of
which there is one, and its separators. The factor of the picture may take a finite number beyond
the greatest one; the letters of its default rendering are shown then. -/
theorem format_shows_own_symbols (hdigits : ∀ v < 10, (f.zero.toNat + v).isValidChar)
    (h : f.format n picture = .ok text) :
    n.isNaN = true ∧ text = f.nan ∨
      n.isNaN = false ∧ ∃ p lead body trail,
        f.readPicture (f.splitPicture picture.toList).1 = .ok p ∧
        f.Surrounds picture.toList n lead trail ∧
        text = String.ofList (lead ++ body ++ trail) ∧
        (n.isInfinite = true ∧ body = f.infinity.toList ∨
          n.isInfinite = false ∧ (n.abs * p.multiplier).isInfinite = false ∧
            (∃ c ∈ body, f.IsOwnDigit c) ∧
            (∀ c ∈ body, f.IsOwnDigit c ∨ c = f.groupingSeparator ∨ c = f.decimalSeparator) ∨
          n.isInfinite = false ∧ (n.abs * p.multiplier).isInfinite = true ∧
            body = f.wholeText p.grouping
              (List.replicate (p.leastWhole - 3) '0' ++ ['i', 'n', 'f'])) := by
  obtain ⟨p, hp, ⟨hnan, htext⟩ | ⟨hnan, lead, trail, hframes, htext⟩⟩ := format_ok h
  · exact .inl ⟨hnan, htext⟩
  · refine .inr ⟨hnan, p, lead, f.body n p, trail, hp, hframes, htext, ?_⟩
    unfold body
    cases hinf : n.isInfinite with
    | true => exact .inl ⟨rfl, rfl⟩
    | false =>
      refine .inr ?_
      cases hover : (n.abs * p.multiplier).isInfinite with
      | true => exact .inr ⟨rfl, rfl, formatDigits_infinite hover p⟩
      | false =>
        obtain ⟨hfactor, hfinite⟩ := finite_of_factor (readPicture_factor hp)
        have habs : n.abs.isNaN = false ∧ n.abs.isInfinite = false := by
          cases n with
          | nan => cases hnan
          | infinite s => cases hinf
          | finite s t g => exact ⟨rfl, rfl⟩
        have hproduct := Number.mul_isNaN habs.1 habs.2 hfactor hfinite
        exact .inl ⟨rfl, rfl, formatDigits_symbols hdigits hp hproduct hover⟩

/-- A negative number between the parentheses of a second part, in digits and separators of its
format's own, with a factor of a hundred that the first part asks for. -/
theorem format_shows_own_symbols_negative : ∃ (f : NumberFormat) (n : Number) (p : Picture)
    (lead body trail : List Char),
    (∀ v < 10, (f.zero.toNat + v).isValidChar) ∧
      f.format n "#٬##٠٫٠'%'٪;('#'٠)" = .ok "(#١٬٢٥٠٫٠)" ∧
      f.readPicture "#٬##٠٫٠'%'٪".toList = .ok p ∧
      f.Surrounds "#٬##٠٫٠'%'٪;('#'٠)".toList n lead trail ∧
      "(#١٬٢٥٠٫٠)" = String.ofList (lead ++ body ++ trail) ∧
      (∃ c ∈ body, f.IsOwnDigit c) ∧
      ∀ c ∈ body, f.IsOwnDigit c ∨ c = f.groupingSeparator ∨ c = f.decimalSeparator := by
  let f : NumberFormat :=
    { zero := '٠', decimalSeparator := '٫', groupingSeparator := '٬', percent := '٪' }
  -- the number stays a variable, lest its sign be computed wherever the affixes are looked at
  obtain ⟨n, hn⟩ : ∃ n : Number, n = .ofText "-12.5" := ⟨_, rfl⟩
  let p : Picture :=
    { trail := ['%', '٪'], leastWhole := 1, leastFraction := 1, mostFraction := 1,
      grouping := some 3, multiplier := 100 }
  have hdigits : ∀ v < 10, (f.zero.toNat + v).isValidChar := by decide
  have hpart : (f.splitPicture "#٬##٠٫٠'%'٪;('#'٠)".toList).1 = "#٬##٠٫٠'%'٪".toList := by decide
  have hp : f.readPicture "#٬##٠٫٠'%'٪".toList = .ok p := rfl
  have h : f.format n "#٬##٠٫٠'%'٪;('#'٠)" = .ok "(#١٬٢٥٠٫٠)" := by
    rw [hn]
    decide +kernel
  have hnan : n.isNaN = false := by
    rw [hn]
    decide +kernel
  have hinf : n.isInfinite = false := by
    rw [hn]
    decide +kernel
  have hover : (n.abs * p.multiplier).isInfinite = false := by
    rw [hn]
    decide +kernel
  obtain ⟨htrue, -⟩ | ⟨-, q, lead, body, trail, hq, hframes, htext, hbody⟩ :=
    format_shows_own_symbols hdigits h
  · rw [hnan] at htrue
    cases htrue
  · rw [hpart, hp] at hq
    rw [← Except.ok.inj hq, hinf, hover] at hbody
    obtain ⟨hfalse, -⟩ | ⟨-, -, hdigit, hown⟩ | ⟨-, hfalse, -⟩ := hbody
    · cases hfalse
    · exact ⟨f, n, p, lead, body, trail, hdigits, h, hp, hframes, htext, hdigit, hown⟩
    · cases hfalse

-- The product with the factor of a picture may be infinite where the number is not.
example : ({} : NumberFormat).format (.ofDecimal false 1 308) "0%" = .ok "inf%" := by
  decide +kernel

end NumberFormat

end PathLanguage
