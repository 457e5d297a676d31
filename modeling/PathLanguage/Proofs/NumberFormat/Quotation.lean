/- Quoted text in a picture is literal: whatever symbols of the format it has in it, it stands
before or behind the digits as it is. The pattern separator alone is looked for in quoted text
too. -/
import PathLanguage.Proofs.NumberFormat
import PathLanguage.Proofs.NumberFormat.Affix

namespace PathLanguage.NumberFormat

variable {f : NumberFormat} {cs t digits rest : List Char} {lead trail : Affix} {p : Picture}
  {scan : DigitScan} {n : Number}

/-- The quote is no symbol of the format. -/
theorem not_isPictureDigit_quote (h : '\'' ∉ f.symbols) : f.isPictureDigit '\'' = false := by
  simp [symbols] at h
  simp [isPictureDigit, h]

/-- A pattern separator that is told apart from the other symbols stands for no digit. -/
theorem not_isPictureDigit_separator (h : f.symbols.Nodup) :
    f.isPictureDigit f.patternSeparator = false := by
  simp [symbols] at h
  simp [isPictureDigit]
  tauto

/-- A picture is what the text before its digits, the digits and the text behind them come to. -/
theorem readPicture_of_scan (hlead : f.readLead false cs = (lead, digits ++ rest))
    (hdigits : ∀ c ∈ digits, f.isPictureDigit c = true)
    (hrest : ∀ c more, rest = c :: more → f.isPictureDigit c = false)
    (hscan : digits.foldlM (DigitScan.step f) {} = .ok scan) (hsaw : scan.sawDigit = true) :
    f.readPicture cs = (f.readTrail false rest).map fun trail => {
      lead := lead.text
      trail := trail.text
      leastWhole := scan.leastWhole
      leastFraction := scan.leastFraction
      mostFraction := scan.mostFraction
      grouping := scan.sinceGrouping.filter (0 < ·)
      multiplier := (trail.multiplier <|> lead.multiplier).getD 1 } := by
  have hends : rest.takeWhile f.isPictureDigit = [] ∧ rest.dropWhile f.isPictureDigit = rest := by
    cases rest with
    | nil => exact ⟨rfl, rfl⟩
    | cons c more => simp [hrest c more rfl]
  have htake : (digits ++ rest).takeWhile f.isPictureDigit = digits := by
    rw [List.takeWhile_append_of_pos hdigits, hends.1, List.append_nil]
  have hdrop : (digits ++ rest).dropWhile f.isPictureDigit = rest := by
    rw [List.dropWhile_append_of_pos hdigits, hends.2]
  unfold readPicture
  rw [hlead]
  dsimp only
  rw [htake, hdrop, hscan]
  simp only [bind, Except.bind, hsaw]
  cases f.readTrail false rest <;> rfl

/-- The text before the digits ends at the first of them. -/
theorem readLead_digits (hdigits : ∀ c ∈ digits, f.isPictureDigit c = true)
    (h : digits = [] → rest = []) : f.readLead false (digits ++ rest) = ({}, digits ++ rest) := by
  cases digits with
  | nil => rw [h rfl]; rfl
  | cons c cs => simp [readLead, hdigits c (.head _)]

/-- A picture of digits alone has no text around them and asks for no factor. -/
theorem readPicture_bare (hdigits : ∀ c ∈ digits, f.isPictureDigit c = true)
    (hp : f.readPicture digits = .ok p) :
    ∃ scan, digits.foldlM (DigitScan.step f) {} = .ok scan ∧ scan.sawDigit = true ∧
      p = {
        leastWhole := scan.leastWhole
        leastFraction := scan.leastFraction
        mostFraction := scan.mostFraction
        grouping := scan.sinceGrouping.filter (0 < ·) } := by
  have hlead : f.readLead false (digits ++ []) = ({}, digits ++ []) :=
    readLead_digits hdigits fun _ => rfl
  rw [List.append_nil] at hlead
  have htake : digits.takeWhile f.isPictureDigit = digits := List.takeWhile_eq_self_iff.mpr hdigits
  have hdrop : digits.dropWhile f.isPictureDigit = [] := List.dropWhile_eq_nil_iff.mpr hdigits
  obtain ⟨scan, trail, hscan, hsaw, htrail, rfl⟩ := readPicture_ok hp
  rw [hlead] at hscan htrail ⊢
  dsimp only at hscan htrail ⊢
  rw [htake] at hscan
  rw [hdrop] at htrail
  cases htrail
  exact ⟨scan, hscan, hsaw, rfl⟩

/-- Characters between quotes. -/
def enclosed (t : List Char) : List Char := '\'' :: t ++ ['\'']

/-- A quote that is no digit begins quoted text. -/
theorem read_quote (hquote : f.isPictureDigit '\'' = false) (cs : List Char) :
    f.readLead false ('\'' :: cs) = f.readLead true cs ∧
      f.readTrail false ('\'' :: cs) = f.readTrail true cs := by
  simp [readLead, readTrail, hquote]

/-- Digits with a quote behind them are read as they are alone, and then what follows the quote. -/
theorem readPicture_digits_quote (hquote : f.isPictureDigit '\'' = false)
    (hdigits : ∀ c ∈ digits, f.isPictureDigit c = true) (hp : f.readPicture digits = .ok p) :
    f.readPicture (digits ++ '\'' :: rest) = (f.readTrail true rest).map fun trail =>
      { p with trail := trail.text, multiplier := (trail.multiplier <|> none).getD 1 } := by
  obtain ⟨scan, hscan, hsaw, rfl⟩ := readPicture_bare hdigits hp
  have hlead : f.readLead false (digits ++ '\'' :: rest) = ({}, digits ++ '\'' :: rest) := by
    refine readLead_digits hdigits ?_
    rintro rfl
    cases hscan
    cases hsaw
  rw [← (read_quote hquote rest).2]
  refine readPicture_of_scan hlead hdigits ?_ hscan hsaw
  rintro c more ⟨⟩
  exact hquote

/-- Quoted text behind digits or before them is the text around them. -/
theorem readPicture_enclosed (hquote : f.isPictureDigit '\'' = false) (ht : '\'' ∉ t)
    (hdigits : ∀ c ∈ digits, f.isPictureDigit c = true) (hp : f.readPicture digits = .ok p) :
    f.readPicture (digits ++ enclosed t) = .ok { p with trail := t } ∧
      f.readPicture (enclosed t ++ digits) = .ok { p with lead := t } := by
  constructor
  · rw [enclosed, List.cons_append, readPicture_digits_quote hquote hdigits hp, readTrail_quoted ht]
    obtain ⟨scan, -, -, rfl⟩ := readPicture_bare hdigits hp
    simp [readTrail, Except.map]
  · obtain ⟨scan, hscan, hsaw, rfl⟩ := readPicture_bare hdigits hp
    have hlead : f.readLead false (enclosed t ++ digits) = ({ text := t }, digits ++ []) := by
      rw [enclosed, List.cons_append, List.cons_append, (read_quote hquote _).1, List.append_assoc,
        List.singleton_append, readLead_quoted ht, ← List.append_nil digits,
        readLead_digits hdigits fun _ => rfl]
      simp
    exact readPicture_of_scan hlead hdigits (by simp) hscan hsaw

/-- A quote that stays open is a fault behind digits, and leaves none to be found before them. -/
theorem readPicture_open (hquote : f.isPictureDigit '\'' = false) (ht : '\'' ∉ t)
    (hdigits : ∀ c ∈ digits, f.isPictureDigit c = true) (hp : f.readPicture digits = .ok p) :
    f.readPicture (digits ++ '\'' :: t) = .error .unclosedQuote ∧
      f.readPicture ('\'' :: t) = .error .noDigits := by
  constructor
  · rw [readPicture_digits_quote hquote hdigits hp, readTrail_open ht]
    rfl
  · unfold readPicture
    rw [(read_quote hquote t).1]
    dsimp only
    rw [readLead_open ht]
    rfl

/-- In a format that tells its symbols apart and from the quote, quoted text without the pattern
separator stands behind the digits, or before them, as it is. With a pattern separator in it the
picture is cut there, and its first part has an open quote. -/
theorem format_keeps_quoted (hdistinct : f.symbols.Nodup) (hquote : '\'' ∉ f.symbols)
    {digits t : String} (hdigits : ∀ c ∈ digits.toList, f.isPictureDigit c = true)
    (hp : f.readPicture digits.toList = .ok p) (ht : '\'' ∉ t.toList) (hn : n.isNaN = false)
    (hsign : n.lt 0 = false) :
    let shown := String.ofList (f.body n p)
    (f.patternSeparator ∉ t.toList →
      f.format n digits = .ok shown ∧
      f.format n (digits ++ "'" ++ t ++ "'") = .ok (shown ++ t) ∧
      f.format n ("'" ++ t ++ "'" ++ digits) = .ok (t ++ shown)) ∧
    (f.patternSeparator ∈ t.toList →
      f.format n (digits ++ "'" ++ t ++ "'") =
        .error (.badPicture (digits ++ "'" ++ t ++ "'") .unclosedQuote) ∧
      f.format n ("'" ++ t ++ "'" ++ digits) =
        .error (.badPicture ("'" ++ t ++ "'" ++ digits) .noDigits)) := by
  intro shown
  have hchar : f.isPictureDigit '\'' = false := not_isPictureDigit_quote hquote
  have hapart : f.patternSeparator ≠ '\'' := by
    intro h
    simp [symbols, h] at hquote
  have hseparator : f.patternSeparator ∉ digits.toList := by
    intro hc
    have hfalse := not_isPictureDigit_separator hdistinct
    rw [hdigits _ hc] at hfalse
    cases hfalse
  constructor
  · intro hnone
    have hbehind : (digits ++ "'" ++ t ++ "'").toList = digits.toList ++ enclosed t.toList := by
      simp [enclosed]
    have hbefore : ("'" ++ t ++ "'" ++ digits).toList = enclosed t.toList ++ digits.toList := by
      simp [enclosed]
    have henclosed : f.patternSeparator ∉ enclosed t.toList := by simp [enclosed, hapart, hnone]
    obtain ⟨htrail, hlead⟩ := readPicture_enclosed hchar ht hdigits hp
    obtain ⟨scan, -, -, rfl⟩ := readPicture_bare hdigits hp
    rw [← hbehind] at htrail
    rw [← hbefore] at hlead
    refine ⟨?_, ?_, ?_⟩
    · refine (format_single hn hsign hseparator hp).trans (congrArg Except.ok ?_)
      simp [shown]
    · refine (format_single hn hsign ?_ htrail).trans (congrArg Except.ok ?_)
      · simp [hbehind, hseparator, henclosed]
      · rw [String.ofList_append, String.ofList_toList]
        rfl
    · refine (format_single hn hsign ?_ hlead).trans (congrArg Except.ok ?_)
      · simp [hbefore, hseparator, henclosed]
      · rw [List.append_nil, String.ofList_append, String.ofList_toList]
        rfl
  · intro hsome
    obtain ⟨first, more, hcut, hfirst⟩ := List.eq_append_cons_of_mem hsome
    have hopen : '\'' ∉ first := fun hc => ht (hcut ▸ List.mem_append_left _ hc)
    obtain ⟨htrail, hlead⟩ := readPicture_open hchar hopen hdigits hp
    have hbehind : (digits ++ "'" ++ t ++ "'").toList =
        (digits.toList ++ '\'' :: first) ++ f.patternSeparator :: (more ++ ['\'']) := by
      simp [hcut]
    have hbefore : ("'" ++ t ++ "'" ++ digits).toList =
        '\'' :: first ++ f.patternSeparator :: (more ++ '\'' :: digits.toList) := by
      simp [hcut]
    constructor
    · exact format_fault hbehind (by simp [hseparator, hapart, hfirst]) htrail
    · exact format_fault hbefore (by simp [hapart, hfirst]) hlead

/-- A sign for a hundred, digits and separators in quoted text. -/
theorem format_keeps_quoted_symbols : ∃ (f : NumberFormat) (n : Number) (p : Picture),
    f.symbols.Nodup ∧ '\'' ∉ f.symbols ∧
      (∀ c ∈ "#,##0.00".toList, f.isPictureDigit c = true) ∧
      f.readPicture "#,##0.00".toList = .ok p ∧ '\'' ∉ "% of #0,-.".toList ∧
      n.isNaN = false ∧ n.lt 0 = false ∧ f.patternSeparator ∉ "% of #0,-.".toList ∧
      f.format n ("#,##0.00" ++ "'" ++ "% of #0,-." ++ "'") = .ok ("1,234.50" ++ "% of #0,-.") ∧
      f.format n ("'" ++ "% of #0,-." ++ "'" ++ "#,##0.00") = .ok ("% of #0,-." ++ "1,234.50") := by
  let f : NumberFormat := {}
  let p : Picture :=
    { leastWhole := 1, leastFraction := 2, mostFraction := 2, grouping := some 3 }
  obtain ⟨n, hn⟩ : ∃ n : Number, n = .ofText "1234.5" := ⟨_, rfl⟩
  have hdistinct : f.symbols.Nodup := by decide
  have hquote : '\'' ∉ f.symbols := by decide
  have hdigits : ∀ c ∈ "#,##0.00".toList, f.isPictureDigit c = true :=
    List.all_eq_true.mp (by decide)
  have hp : f.readPicture "#,##0.00".toList = .ok p := rfl
  have ht : '\'' ∉ "% of #0,-.".toList := by decide
  have hnan : n.isNaN = false := by
    rw [hn]
    decide +kernel
  have hsign : n.lt 0 = false := by
    rw [hn]
    decide +kernel
  have hseparator : f.patternSeparator ∉ "% of #0,-.".toList := by decide
  have hshown : String.ofList (f.body n p) = "1,234.50" := by
    rw [hn]
    decide +kernel
  obtain ⟨-, htrail, hlead⟩ :=
    (format_keeps_quoted hdistinct hquote hdigits hp ht hnan hsign).1 hseparator
  rw [hshown] at htrail hlead
  exact ⟨f, n, p, hdistinct, hquote, hdigits, hp, ht, hnan, hsign, hseparator, htrail, hlead⟩

-- A pattern separator in quoted text cuts the picture, and the quote stays open.
example : ({} : NumberFormat).format 1 "0';'" = .error (.badPicture "0';'" .unclosedQuote) := by
  decide +kernel

end PathLanguage.NumberFormat
