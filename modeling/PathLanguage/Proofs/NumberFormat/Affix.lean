/- The text of a number in a picture is that of its digits between the texts that the picture has
around its own, shown without their quotes. What stands between quotes is no more than text. -/
import Mathlib.Data.List.TakeWhile
import PathLanguage.Proofs.NumberFormat.Picture

namespace PathLanguage

/-- Characters without the quotes among them. -/
def NumberFormat.unquoted (cs : List Char) : List Char := cs.filter (· ≠ '\'')

/-- What characters around the digits of a picture are read as: a text without their quotes, and
a factor of a hundred or a thousand if one is asked for. -/
structure Affix.Renders (a : Affix) (cs : List Char) : Prop where
  text : a.text = NumberFormat.unquoted cs
  factor : ∀ m ∈ a.multiplier, m = 100 ∨ m = 1000

namespace NumberFormat

/-- A part of a picture with digits in it, and the text before and behind them without quotes. -/
def Frames (f : NumberFormat) (part lead trail : List Char) : Prop :=
  ∃ before digits after, part = before ++ digits ++ after ∧
    digits ≠ [] ∧ (∀ c ∈ digits, f.isPictureDigit c = true) ∧
    lead = unquoted before ∧ trail = unquoted after

/-- The text around the digits of a number: that of the first part of the picture; for a negative
number that of the second part or, without one, that of the first behind a minus sign. -/
def Surrounds (f : NumberFormat) (picture : List Char) (n : Number) (lead trail : List Char) :
    Prop :=
  match n.lt 0, f.splitPicture picture with
  | false, (part, _) => f.Frames part lead trail
  | true, (_, some part) => f.Frames part lead trail
  | true, (part, none) => ∃ text, lead = f.minus :: text ∧ f.Frames part text trail

/-- The text of the amount of a number, without any text around it. -/
def body (f : NumberFormat) (n : Number) (p : Picture) : List Char :=
  if n.isInfinite then f.infinity.toList else f.formatDigits (n.abs * p.multiplier) p

variable {f : NumberFormat} {quoted : Bool} {c : Char} {cs t rest : List Char} {a : Affix}
  {p : Picture} {n : Number} {picture text : String}

section reading

/-- What holds of both of two possible values holds of the first one there is. -/
theorem forall_mem_orElse {α : Type} {P : α → Prop} {x y : Option α} (hx : ∀ a ∈ x, P a)
    (hy : ∀ a ∈ y, P a) : ∀ a ∈ (x <|> y), P a := by
  cases x with
  | none => exact hy
  | some a => exact hx

theorem multiplier?_factor : ∀ m ∈ f.multiplier? c, m = 100 ∨ m = 1000 := by
  intro m hm
  rw [Option.mem_def, multiplier?] at hm
  split at hm
  · exact .inl (Option.some.inj hm).symm
  · split at hm
    · exact .inr (Option.some.inj hm).symm
    · cases hm

theorem renders_nil : Affix.Renders {} [] := ⟨rfl, fun m hm => absurd hm (Option.not_mem_none m)⟩

theorem renders_quote (h : a.Renders cs) : a.Renders ('\'' :: cs) := ⟨h.text, h.factor⟩

theorem renders_push (hc : c ≠ '\'') (h : a.Renders cs) :
    (Affix.push f quoted c a).Renders (c :: cs) where
  text := by
    have hkept : unquoted (c :: cs) = c :: unquoted cs := by simp [unquoted, hc]
    rw [hkept, ← h.text]
    rfl
  factor := by
    cases quoted with
    | true => exact h.factor
    | false => exact forall_mem_orElse h.factor multiplier?_factor

/-- What is read before the digits is the text up to them. -/
theorem readLead_renders (f : NumberFormat) (quoted : Bool) (cs : List Char) :
    ∃ before, cs = before ++ (f.readLead quoted cs).2 ∧
      (f.readLead quoted cs).1.Renders before := by
  induction cs generalizing quoted with
  | nil => exact ⟨[], rfl, renders_nil⟩
  | cons c cs ih =>
    rw [readLead]
    split
    · exact ⟨[], rfl, renders_nil⟩
    · split
      · next hquote =>
        obtain rfl : c = '\'' := eq_of_beq hquote
        obtain ⟨before, hcs, hbefore⟩ := ih (!quoted)
        exact ⟨'\'' :: before, congrArg ('\'' :: ·) hcs, renders_quote hbefore⟩
      · next hquote =>
        obtain ⟨before, hcs, hbefore⟩ := ih quoted
        refine ⟨c :: before, congrArg (c :: ·) hcs, renders_push ?_ hbefore⟩
        exact fun h => hquote (beq_iff_eq.mpr h)

/-- What is read behind the digits is all the text there. -/
theorem readTrail_renders (h : f.readTrail quoted cs = .ok a) : a.Renders cs := by
  induction cs generalizing quoted a with
  | nil =>
    cases quoted <;> cases h
    exact renders_nil
  | cons c cs ih =>
    rw [readTrail] at h
    split at h
    · cases h
    · split at h
      · next hquote =>
        obtain rfl : c = '\'' := eq_of_beq hquote
        exact renders_quote (ih h)
      · next hquote =>
        cases hrest : f.readTrail quoted cs with
        | error e => rw [hrest] at h; cases h
        | ok b =>
          rw [hrest] at h
          cases h
          exact renders_push (fun h => hquote (beq_iff_eq.mpr h)) (ih hrest)

/-- The factor of a picture is one unless a sign asks for another. -/
theorem readPicture_factor (h : f.readPicture cs = .ok p) :
    p.multiplier = 1 ∨ p.multiplier = 100 ∨ p.multiplier = 1000 := by
  obtain ⟨scan, trail, -, -, htrail, rfl⟩ := readPicture_ok h
  obtain ⟨before, -, hlead⟩ := readLead_renders f false cs
  have hfactor := forall_mem_orElse (readTrail_renders htrail).factor hlead.factor
  dsimp only
  cases hm : trail.multiplier <|> (f.readLead false cs).1.multiplier with
  | none => exact .inl rfl
  | some m => exact .inr (hfactor m hm)

/-- The text around the digits of a picture is kept but for its quotes. -/
theorem readPicture_frames (h : f.readPicture cs = .ok p) : f.Frames cs p.lead p.trail := by
  obtain ⟨scan, trail, hscan, hdigit, htrail, rfl⟩ := readPicture_ok h
  obtain ⟨before, hcs, hlead⟩ := readLead_renders f false cs
  let rest := (f.readLead false cs).2
  refine ⟨before, rest.takeWhile f.isPictureDigit, rest.dropWhile f.isPictureDigit, ?_, ?_,
    fun c hc => List.mem_takeWhile_imp hc, hlead.text, (readTrail_renders htrail).text⟩
  · rw [List.append_assoc, List.takeWhile_append_dropWhile]
    exact hcs
  · intro hnone
    rw [hnone] at hscan
    cases hscan
    cases hdigit

end reading

section quoting

/-- Quoted text before the digits stands before what is read behind it. -/
theorem readLead_quoted (ht : '\'' ∉ t) (rest : List Char) :
    f.readLead true (t ++ '\'' :: rest) =
      ({ (f.readLead false rest).1 with text := t ++ (f.readLead false rest).1.text },
        (f.readLead false rest).2) := by
  induction t with
  | nil => simp [readLead]
  | cons c t ih =>
    obtain ⟨hc, ht⟩ := List.ne_and_not_mem_of_not_mem_cons ht
    rw [List.cons_append, readLead, ih ht]
    simp [hc.symm, Affix.push]

/-- Quoted text behind the digits stands before what is read behind it. -/
theorem readTrail_quoted (ht : '\'' ∉ t) (rest : List Char) :
    f.readTrail true (t ++ '\'' :: rest) =
      (f.readTrail false rest).map fun a => { a with text := t ++ a.text } := by
  induction t with
  | nil =>
    have hclose : f.readTrail true ('\'' :: rest) = f.readTrail false rest := by simp [readTrail]
    rw [List.nil_append, hclose]
    cases f.readTrail false rest <;> rfl
  | cons c t ih =>
    obtain ⟨hc, ht⟩ := List.ne_and_not_mem_of_not_mem_cons ht
    rw [List.cons_append, readTrail, ih ht]
    cases f.readTrail false rest <;> simp [hc.symm, Except.map, Affix.push]

/-- No digit is found behind a quote that stays open. -/
theorem readLead_open (ht : '\'' ∉ t) : (f.readLead true t).2 = [] := by
  induction t with
  | nil => rfl
  | cons c t ih =>
    obtain ⟨hc, ht⟩ := List.ne_and_not_mem_of_not_mem_cons ht
    simp [readLead, hc.symm, ih ht]

theorem readTrail_open (ht : '\'' ∉ t) : f.readTrail true t = .error .unclosedQuote := by
  induction t with
  | nil => rfl
  | cons c t ih =>
    obtain ⟨hc, ht⟩ := List.ne_and_not_mem_of_not_mem_cons ht
    simp [readTrail, hc.symm, ih ht, Except.map]

end quoting

section whole

/-- A picture without the pattern separator has one part. -/
theorem splitPicture_single (h : f.patternSeparator ∉ cs) : f.splitPicture cs = (cs, none) := by
  have hnone : cs.dropWhile (· != f.patternSeparator) = [] := by
    rw [List.dropWhile_eq_nil_iff]
    intro c hc
    rw [bne_iff_ne]
    rintro rfl
    exact h hc
  rw [splitPicture, hnone]

/-- The first part of a picture ends before the first pattern separator. -/
theorem splitPicture_double (h : f.patternSeparator ∉ cs) (rest : List Char) :
    f.splitPicture (cs ++ f.patternSeparator :: rest) = (cs, some rest) := by
  have hcs : ∀ c ∈ cs, (c != f.patternSeparator) = true := by
    intro c hc
    rw [bne_iff_ne]
    rintro rfl
    exact h hc
  rw [splitPicture, List.dropWhile_append_of_pos hcs, List.takeWhile_append_of_pos hcs]
  simp

/-- What the text of a number is put together from. -/
theorem format_ok (h : f.format n picture = .ok text) :
    ∃ p, f.readPicture (f.splitPicture picture.toList).1 = .ok p ∧
      (n.isNaN = true ∧ text = f.nan ∨
        n.isNaN = false ∧ ∃ lead trail, f.Surrounds picture.toList n lead trail ∧
          text = String.ofList (lead ++ f.body n p ++ trail)) := by
  unfold format at h
  unfold Surrounds
  generalize f.splitPicture picture.toList = parts at h ⊢
  obtain ⟨part, other⟩ := parts
  dsimp only at h ⊢
  cases hp : f.readPicture part with
  | error e => rw [hp] at h; cases h
  | ok p =>
    refine ⟨p, rfl, ?_⟩
    rw [hp] at h
    have hframes := readPicture_frames hp
    cases hnan : n.isNaN with
    | true =>
      rw [hnan] at h
      cases h
      exact .inl ⟨rfl, rfl⟩
    | false =>
      rw [hnan] at h
      refine .inr ⟨rfl, ?_⟩
      cases hneg : n.lt 0 with
      | false =>
        rw [hneg] at h
        cases h
        exact ⟨p.lead, p.trail, hframes, rfl⟩
      | true =>
        rw [hneg] at h
        cases other with
        | none =>
          cases h
          exact ⟨f.minus :: p.lead, p.trail, ⟨p.lead, rfl, hframes⟩, rfl⟩
        | some cs =>
          dsimp only at h
          cases hq : f.readPicture cs with
          | error e => rw [hq] at h; cases h
          | ok q =>
            rw [hq] at h
            cases h
            exact ⟨q.lead, q.trail, readPicture_frames hq, rfl⟩

/-- In a picture of one part, a number that is not negative has the text of that part around it. -/
theorem format_single (hn : n.isNaN = false) (hsign : n.lt 0 = false)
    (hcs : f.patternSeparator ∉ picture.toList) (hp : f.readPicture picture.toList = .ok p) :
    f.format n picture = .ok (String.ofList (p.lead ++ f.body n p ++ p.trail)) := by
  unfold format
  rw [splitPicture_single hcs]
  dsimp only
  rw [hp, hn, hsign]
  rfl

/-- The part of a picture before the first pattern separator is read before anything else. -/
theorem format_fault {e : PictureFault}
    (hpicture : picture.toList = cs ++ f.patternSeparator :: rest)
    (hcs : f.patternSeparator ∉ cs) (h : f.readPicture cs = .error e) :
    f.format n picture = .error (.badPicture picture e) := by
  unfold format
  rw [hpicture, splitPicture_double hcs]
  dsimp only
  rw [h]
  rfl

end whole

end NumberFormat

end PathLanguage
