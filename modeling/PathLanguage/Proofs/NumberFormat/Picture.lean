/- What a picture that is read without a fault says of the digits of a number. -/
import PathLanguage.NumberFormat

namespace PathLanguage

/-- The counts of a picture agree with each other. -/
structure Picture.Sound (p : Picture) : Prop where
  fraction : p.leastFraction ≤ p.mostFraction
  grouping : ∀ size ∈ p.grouping, 0 < size

namespace NumberFormat

/-- A sequence of readings succeeds only if each of them does. -/
theorem except_bind_ok {ε α β : Type} {a : Except ε α} {g : α → Except ε β} {y : β}
    (h : a >>= g = .ok y) : ∃ x, a = .ok x ∧ g x = .ok y := by
  cases a with
  | error e => cases h
  | ok x => exact ⟨x, rfl, h⟩

variable {f : NumberFormat} {s t : DigitScan} {cs : List Char}

/-- Each character of a fraction counts among the greatest number of its digits. -/
theorem DigitScan.step_fraction {c : Char} (h : DigitScan.step f s c = .ok t)
    (hs : s.leastFraction ≤ s.mostFraction) : t.leastFraction ≤ t.mostFraction := by
  unfold DigitScan.step at h
  -- only a digit of the fraction changes the two counts
  split at h <;> grind

theorem DigitScan.foldlM_fraction (h : cs.foldlM (DigitScan.step f) s = .ok t)
    (hs : s.leastFraction ≤ s.mostFraction) : t.leastFraction ≤ t.mostFraction := by
  induction cs generalizing s with
  | nil =>
    cases h
    exact hs
  | cons c cs ih =>
    rw [List.foldlM_cons] at h
    obtain ⟨u, hc, hrest⟩ := except_bind_ok h
    exact ih hrest (step_fraction hc hs)

/-- What is read of a picture is what its digits and the text around them come to. -/
theorem readPicture_ok {p : Picture} (h : f.readPicture cs = .ok p) :
    ∃ scan trail,
      ((f.readLead false cs).2.takeWhile f.isPictureDigit).foldlM (DigitScan.step f) {} = .ok scan ∧
      scan.sawDigit = true ∧
      f.readTrail false ((f.readLead false cs).2.dropWhile f.isPictureDigit) = .ok trail ∧
      p = {
        lead := (f.readLead false cs).1.text
        trail := trail.text
        leastWhole := scan.leastWhole
        leastFraction := scan.leastFraction
        mostFraction := scan.mostFraction
        grouping := scan.sinceGrouping.filter (0 < ·)
        multiplier := (trail.multiplier <|> (f.readLead false cs).1.multiplier).getD 1 } := by
  unfold readPicture at h
  obtain ⟨scan, hscan, hrest⟩ := except_bind_ok h
  cases hdigit : scan.sawDigit with
  | false => rw [hdigit] at hrest; cases hrest
  | true =>
    rw [hdigit] at hrest
    obtain ⟨trail, htrail, hp⟩ := except_bind_ok hrest
    cases hp
    exact ⟨scan, trail, hscan, hdigit, htrail, rfl⟩

theorem readPicture_sound {p : Picture} (h : f.readPicture cs = .ok p) : p.Sound := by
  obtain ⟨scan, trail, hscan, -, -, rfl⟩ := readPicture_ok h
  refine ⟨DigitScan.foldlM_fraction hscan (Nat.le_refl 0), fun size hsize => ?_⟩
  exact of_decide_eq_true (Option.filter_eq_some_iff.mp hsize).2

end NumberFormat

end PathLanguage
