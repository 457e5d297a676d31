/- Names, numbers and quoted texts: what the lexer takes for one has its form, and each of them is
read up to a place where the text breaks. -/
import Mathlib.Data.List.TakeWhile
import PathLanguage.Token.Lexer

namespace PathLanguage

namespace Lexer

/-- A name without a colon. -/
def IsSimpleName : List Char → Prop
  | [] => False
  | c :: rest => isNameStart c = true ∧ ∀ d ∈ rest, isNameChar d = true

theorem isSimpleName_of_all {c : Char} {rest : List Char}
    (h : (isNameStart c && rest.all isNameChar) = true) : IsSimpleName (c :: rest) := by
  rw [Bool.and_eq_true, List.all_eq_true] at h
  exact h

/-- A name, or two joined by a colon. -/
def IsName (cs : List Char) : Prop :=
  IsSimpleName cs ∨ ∃ declared localName, cs = declared ++ ':' :: localName ∧
    IsSimpleName declared ∧ IsSimpleName localName

def AreDigits (cs : List Char) : Prop := ∀ c ∈ cs, c.isDigit = true

/-- Digits with an optional point and fraction, or a point with digits. -/
inductive IsNumber : List Char → Prop
  | whole {ds : List Char} (h : AreDigits ds) (hne : ds ≠ []) : IsNumber ds
  | mixed {ds fraction : List Char} (h : AreDigits ds) (hne : ds ≠ []) (hf : AreDigits fraction) :
    IsNumber (ds ++ '.' :: fraction)
  | fraction {ds : List Char} (h : AreDigits ds) (hne : ds ≠ []) : IsNumber ('.' :: ds)

/-- The text ends or goes on with a space or a parenthesis, which belong to no name or number. -/
def Breaks (rest : List Char) : Prop :=
  rest = [] ∨ ∃ more, rest = ' ' :: more ∨ rest = '(' :: more

section classes

variable {c : Char} {cs rest : List Char}

/-- Names begin with characters from `A` on. -/
theorem le_of_isNameStart (h : isNameStart c = true) : 65 ≤ c.toNat := by
  apply Nat.le_of_not_lt
  intro hlt
  have hletter : Text.isLetter c = false := by
    change Text.Ranges.contains ((65, 90) :: Text.letterRanges.tail) c.toNat = false
    rw [Text.Ranges.contains, if_pos hlt]
  have hne : c ≠ '_' := by
    rintro rfl
    exact absurd hlt (by decide)
  simp [isNameStart, hletter, hne] at h

theorem not_isDigit_of_start (h : isNameStart c = true) : c.isDigit = false := by
  have hle := le_of_isNameStart h
  rw [Bool.eq_false_iff]
  intro hd
  simp only [Char.isDigit, Bool.and_eq_true, decide_eq_true_eq] at hd
  have hhigh : c.toNat ≤ 57 := hd.2
  omega

theorem Breaks.takeWhile {p : Char → Bool} (h : Breaks rest) (hspace : p ' ' = false)
    (hparen : p '(' = false) : rest.takeWhile p = [] ∧ rest.dropWhile p = rest := by
  rcases h with rfl | ⟨more, rfl | rfl⟩
  · exact ⟨rfl, rfl⟩
  · exact ⟨List.takeWhile_cons_of_neg (by simp [hspace]),
      List.dropWhile_cons_of_neg (by simp [hspace])⟩
  · exact ⟨List.takeWhile_cons_of_neg (by simp [hparen]),
      List.dropWhile_cons_of_neg (by simp [hparen])⟩

/-- What belongs to a class up to a place where the class ends. -/
theorem takeWhile_append {p : Char → Bool} (h : ∀ c ∈ cs, p c = true)
    (hrest : rest.takeWhile p = [] ∧ rest.dropWhile p = rest) :
    (cs ++ rest).takeWhile p = cs ∧ (cs ++ rest).dropWhile p = rest := by
  constructor
  · rw [List.takeWhile_append_of_pos h, hrest.1, List.append_nil]
  · rw [List.dropWhile_append_of_pos h, hrest.2]

end classes

section names

variable {cs rest declared localName : List Char}

/-- A simple name is read up to a character that belongs to none. -/
theorem simpleName?_append (h : IsSimpleName cs)
    (hrest : rest.takeWhile isNameChar = [] ∧ rest.dropWhile isNameChar = rest) :
    simpleName? (cs ++ rest) = some (cs, rest) := by
  cases cs with
  | nil => exact h.elim
  | cons c cs =>
    obtain ⟨htake, hdrop⟩ := takeWhile_append h.2 hrest
    rw [List.cons_append, simpleName?, if_pos h.1, htake, hdrop]

theorem name?_simple (h : IsSimpleName cs)
    (hrest : rest.takeWhile isNameChar = [] ∧ rest.dropWhile isNameChar = rest)
    (hcolon : ∀ more, rest = ':' :: more → simpleName? more = none) :
    name? (cs ++ rest) = some (cs, rest) := by
  rw [name?, simpleName?_append h hrest, Option.map_some]
  dsimp only
  split
  · next more =>
    rw [hcolon more rfl]
  · rfl

theorem name?_qualified (hd : IsSimpleName declared) (hl : IsSimpleName localName)
    (hrest : rest.takeWhile isNameChar = [] ∧ rest.dropWhile isNameChar = rest) :
    name? (declared ++ ':' :: localName ++ rest) = some (declared ++ ':' :: localName, rest) := by
  have hcolon : (':' :: localName ++ rest).takeWhile isNameChar = [] ∧
      (':' :: localName ++ rest).dropWhile isNameChar = ':' :: localName ++ rest := ⟨rfl, rfl⟩
  rw [List.append_assoc, name?, simpleName?_append hd hcolon, Option.map_some]
  simp only [List.cons_append, simpleName?_append hl hrest]

theorem name?_append (h : IsName cs) (hrest : Breaks rest) :
    name? (cs ++ rest) = some (cs, rest) := by
  have hend := hrest.takeWhile (p := isNameChar) rfl rfl
  rcases h with h | ⟨declared, localName, rfl, hd, hl⟩
  · apply name?_simple h hend
    rintro more rfl
    rcases hrest with h | ⟨_, h | h⟩ <;> cases h
  · exact name?_qualified hd hl hend

/-- What is taken for a simple name is one, and stands at the beginning of the text. -/
theorem simpleName?_eq_some {name : List Char} (h : simpleName? cs = some (name, rest)) :
    cs = name ++ rest ∧ IsSimpleName name := by
  cases cs with
  | nil => cases h
  | cons c cs =>
    rw [simpleName?] at h
    split at h
    · next hc =>
      obtain ⟨rfl, rfl⟩ := Prod.mk.inj (Option.some.inj h)
      exact ⟨congrArg (c :: ·) List.takeWhile_append_dropWhile.symm, hc,
        fun _ hd => List.mem_takeWhile_imp hd⟩
    · cases h

theorem name?_eq_some {name : List Char} (h : name? cs = some (name, rest)) :
    cs = name ++ rest ∧ IsName name := by
  rw [name?, Option.map_eq_some_iff] at h
  obtain ⟨⟨first, more⟩, hfirst, h⟩ := h
  obtain ⟨rfl, hsimple⟩ := simpleName?_eq_some hfirst
  dsimp only at h
  split at h
  · next behind =>
    split at h
    · next second _ hsecond =>
      obtain ⟨rfl, rfl⟩ := Prod.mk.inj h
      obtain ⟨rfl, hlocal⟩ := simpleName?_eq_some hsecond
      exact ⟨by simp, .inr ⟨first, second, rfl, hsimple, hlocal⟩⟩
    · obtain ⟨rfl, rfl⟩ := Prod.mk.inj h
      exact ⟨rfl, .inl hsimple⟩
  · obtain ⟨rfl, rfl⟩ := Prod.mk.inj h
    exact ⟨rfl, .inl hsimple⟩

end names

section numbers

variable {ds fraction cs rest : List Char}

/-- What begins with a digit is a number, with a fraction if a point follows the digits. -/
theorem number?_cons {d : Char} (hd : d.isDigit = true) (rest : List Char) :
    number? (d :: rest) =
      match rest.dropWhile Char.isDigit with
      | '.' :: more =>
        some (d :: rest.takeWhile Char.isDigit ++ '.' :: more.takeWhile Char.isDigit,
          more.dropWhile Char.isDigit)
      | after => some (d :: rest.takeWhile Char.isDigit, after) := by
  have hpoint : d ≠ '.' := by
    rintro rfl
    cases hd
  rewrite [number?.eq_2 _ _ (fun _ _ hp _ => hpoint hp), if_pos hd]
  rfl

theorem number?_append (h : IsNumber cs) (hrest : Breaks rest) :
    number? (cs ++ rest) = some (cs, rest) := by
  have hend := hrest.takeWhile (p := Char.isDigit) rfl rfl
  cases h with
  | whole h hne =>
    cases cs with
    | nil => exact absurd rfl hne
    | cons d ds =>
      obtain ⟨htake, hdrop⟩ := takeWhile_append (fun c hc => h c (.tail _ hc)) hend
      rw [List.cons_append, number?_cons (h d (.head _)), htake, hdrop]
      split
      · rcases hrest with h | ⟨_, h | h⟩ <;> cases h
      · rfl
  | @mixed ds fraction h hne hf =>
    cases ds with
    | nil => exact absurd rfl hne
    | cons d ds =>
      have hstop : ('.' :: (fraction ++ rest)).takeWhile Char.isDigit = [] ∧
          ('.' :: (fraction ++ rest)).dropWhile Char.isDigit = '.' :: (fraction ++ rest) :=
        ⟨rfl, rfl⟩
      obtain ⟨htake, hdrop⟩ := takeWhile_append (fun c hc => h c (.tail _ hc)) hstop
      obtain ⟨hfraction, hafter⟩ := takeWhile_append hf hend
      rw [List.append_assoc, List.cons_append, List.cons_append, number?_cons (h d (.head _)),
        htake, hdrop]
      simp only [hfraction, hafter, List.cons_append]
  | @fraction ds h hne =>
    cases ds with
    | nil => exact absurd rfl hne
    | cons d ds =>
      obtain ⟨htake, hdrop⟩ := takeWhile_append (fun c hc => h c (.tail _ hc)) hend
      rw [List.cons_append, List.cons_append, number?, if_pos (h d (.head _)), htake, hdrop]

/-- What is taken for a number is one, and stands at the beginning of the text. -/
theorem number?_eq_some {digits : List Char} (h : number? cs = some (digits, rest)) :
    cs = digits ++ rest ∧ IsNumber digits := by
  have hsplit (ds : List Char) : ds.takeWhile Char.isDigit ++ ds.dropWhile Char.isDigit = ds :=
    List.takeWhile_append_dropWhile
  have hcons {d : Char} (hd : d.isDigit = true) (ds : List Char) :
      AreDigits (d :: ds.takeWhile Char.isDigit) :=
    List.forall_mem_cons.mpr ⟨hd, fun _ => List.mem_takeWhile_imp⟩
  rw [number?.eq_def] at h
  split at h
  · next d ds =>
    split at h
    · next hd =>
      obtain ⟨rfl, rfl⟩ := Prod.mk.inj (Option.some.inj h)
      exact ⟨by simp [hsplit], .fraction (hcons hd ds) nofun⟩
    · cases h
  · next d ds _ =>
    split at h
    · next hd =>
      have hds := hsplit ds
      dsimp only at h
      split at h
      · next more hmore =>
        rw [hmore] at hds
        obtain ⟨rfl, rfl⟩ := Prod.mk.inj (Option.some.inj h)
        exact ⟨by simp [hsplit, hds], .mixed (hcons hd ds) nofun fun _ => List.mem_takeWhile_imp⟩
      · obtain ⟨rfl, rfl⟩ := Prod.mk.inj (Option.some.inj h)
        exact ⟨by simp [hsplit], .whole (hcons hd ds) nofun⟩
    · cases h
  · cases h

theorem IsNumber.exists_start (h : IsNumber cs) :
    ∃ c tail, cs = c :: tail ∧ (c.isDigit = true ∨ c = '.') := by
  have hdigits {ds : List Char} (hd : AreDigits ds) (hne : ds ≠ []) :
      ∃ c tail, ds = c :: tail ∧ (c.isDigit = true ∨ c = '.') := by
    cases ds with
    | nil => exact absurd rfl hne
    | cons d ds => exact ⟨d, ds, rfl, .inl (hd d (.head _))⟩
  cases h with
  | whole hd hne => exact hdigits hd hne
  | mixed hd hne =>
    obtain ⟨c, tail, rfl, hc⟩ := hdigits hd hne
    exact ⟨c, _, rfl, hc⟩
  | fraction => exact ⟨'.', _, rfl, .inr rfl⟩

/-- A number with neither a digit nor a point behind it. -/
theorem token_number {afterOperand : Bool} (h : IsNumber cs) (hrest : Breaks rest) :
    token afterOperand (cs ++ rest) = .ok (.number (String.ofList cs), rest) := by
  obtain ⟨c, tail, rfl, hc⟩ := h.exists_start
  have hquote : c ≠ '"' ∧ c ≠ '\'' := by
    constructor <;> rintro rfl <;> rcases hc with hc | hc <;> cases hc
  rw [List.cons_append, token.eq_3 _ _ (fun _ h => hquote.1 (List.cons.inj h).1)
    (fun _ h => hquote.2 (List.cons.inj h).1), ← List.cons_append, number?_append h hrest]

end numbers

section literals

variable {quote : Char} {cs rest : List Char}

/-- A quoted text ends at the first quote. -/
theorem quoted_append (h : quote ∉ cs) (rest : List Char) :
    quoted quote (cs ++ quote :: rest) = .ok (.literal (String.ofList cs), rest) := by
  have hcs : ∀ c ∈ cs, (c != quote) = true := by
    intro c hc
    rw [bne_iff_ne]
    rintro rfl
    exact h hc
  have hquote : (quote :: rest).takeWhile (· != quote) = [] ∧
      (quote :: rest).dropWhile (· != quote) = quote :: rest := by simp
  obtain ⟨htake, hdrop⟩ := takeWhile_append hcs hquote
  rw [quoted, htake, hdrop]

theorem quoted_eq_ok {t : Token} (h : quoted quote cs = .ok (t, rest)) :
    ∃ content, quote ∉ content ∧ t = .literal (String.ofList content) ∧
      cs = content ++ quote :: rest := by
  rw [quoted] at h
  split at h
  · next c more hmore =>
    obtain ⟨rfl, rfl⟩ := Prod.mk.inj (Except.ok.inj h)
    have hnone : quote ∉ cs.takeWhile (· != quote) := fun hmem => by
      simpa using List.mem_takeWhile_imp hmem
    have hc : c = quote := by
      have := List.head?_dropWhile_not (· != quote) cs
      rw [hmore] at this
      simpa using this
    subst hc
    exact ⟨_, hnone, rfl, by rw [← hmore, List.takeWhile_append_dropWhile]⟩
  · cases h

end literals

section words

variable {afterOperand : Bool} {cs rest : List Char}

theorem IsName.exists_start (h : IsName cs) : ∃ c tail, cs = c :: tail ∧ isNameStart c = true := by
  rcases h with h | ⟨declared, localName, rfl, h, -⟩
  · cases cs with
    | nil => exact h.elim
    | cons c tail => exact ⟨c, tail, rfl, h.1⟩
  · cases declared with
    | nil => exact h.elim
    | cons c tail => exact ⟨c, _, rfl, h.1⟩

/-- What begins as names do is read as a name or as a wildcard. -/
theorem token_of_start (h : ∃ c tail, cs = c :: tail ∧ isNameStart c = true) :
    token afterOperand cs =
      match simpleName? cs with
      | some (declared, ':' :: '*' :: rest) =>
        .ok (.prefixWildcard (String.ofList declared), rest)
      | _ =>
        match name? cs with
        | some (name, rest) => nameToken afterOperand (String.ofList name) rest
        | none => symbolToken afterOperand cs := by
  obtain ⟨c, tail, rfl, hc⟩ := h
  have hlow {d : Char} (hd : d.toNat < 65) : c ≠ d := by
    rintro rfl
    exact absurd (le_of_isNameStart hc) (by omega)
  have hnumber : number? (c :: tail) = none := by
    rw [number?.eq_2 _ _ (fun _ _ hp _ => hlow (by decide) hp), not_isDigit_of_start hc]
    rfl
  rewrite [token.eq_3 _ _ (fun _ h => hlow (by decide) (List.cons.inj h).1)
    (fun _ h => hlow (by decide) (List.cons.inj h).1), hnumber]
  rfl

/-- A name with neither two colons nor a star behind it. -/
theorem token_name (h : IsName cs) (hrest : Breaks rest) :
    token afterOperand (cs ++ rest) = nameToken afterOperand (String.ofList cs) rest := by
  have hstart : ∃ c tail, cs ++ rest = c :: tail ∧ isNameStart c = true := by
    obtain ⟨c, tail, rfl, hc⟩ := h.exists_start
    exact ⟨c, tail ++ rest, rfl, hc⟩
  rw [token_of_start hstart, name?_append h hrest]
  split
  · next declared more heq =>
    rcases h with h | ⟨first, second, rfl, hf, hs⟩
    · rw [simpleName?_append h (hrest.takeWhile rfl rfl)] at heq
      obtain ⟨rfl, rfl⟩ := Prod.mk.inj (Option.some.inj heq)
      rcases hrest with h | ⟨_, h | h⟩ <;> cases h
    · rw [List.append_assoc, simpleName?_append hf ⟨rfl, rfl⟩] at heq
      obtain ⟨rfl, heq⟩ := Prod.mk.inj (Option.some.inj heq)
      cases second with
      | nil => exact hs.elim
      | cons c second =>
        obtain ⟨-, rfl, -⟩ : ':' = ':' ∧ c = '*' ∧ second ++ rest = more := by simpa using heq
        exact absurd hs.1 (by decide)
  · rfl

theorem token_wildcard (h : IsSimpleName cs) :
    token afterOperand (cs ++ ':' :: '*' :: rest) =
      .ok (.prefixWildcard (String.ofList cs), rest) := by
  have hstart : ∃ c tail, cs ++ ':' :: '*' :: rest = c :: tail ∧ isNameStart c = true := by
    obtain ⟨c, tail, rfl, hc⟩ := IsName.exists_start (.inl h)
    exact ⟨c, _, rfl, hc⟩
  rw [token_of_start hstart, simpleName?_append h ⟨rfl, rfl⟩]
  rfl

theorem isName_nodeType {s : String} (h : nodeTypes.contains s = true) : IsName s.toList := by
  have hmem : s ∈ nodeTypes := List.contains_iff_mem.mp h
  simp only [nodeTypes, List.mem_cons, List.not_mem_nil, or_false] at hmem
  rcases hmem with rfl | rfl | rfl | rfl <;> exact .inl (isSimpleName_of_all rfl)

theorem isSimpleName_axis (a : Axis) : IsSimpleName a.name.toList := by
  cases a <;> exact isSimpleName_of_all rfl

theorem token_axis (a : Axis) :
    token afterOperand (a.name.toList ++ ':' :: ':' :: rest) = .ok (.axis a, rest) := by
  have hname := isSimpleName_axis a
  have hstart : ∃ c tail, a.name.toList ++ ':' :: ':' :: rest = c :: tail ∧
      isNameStart c = true := by
    obtain ⟨c, tail, heq, hc⟩ := IsName.exists_start (.inl hname)
    exact ⟨c, _, by rw [heq, List.cons_append], hc⟩
  have hoperator : operatorNamed? a.name = none := by cases a <;> rfl
  have hcolon : a.name.contains ':' = false := by cases a <;> simp [Axis.name]
  have haxis : Axis.ofName? a.name = some a := by cases a <;> rfl
  have hread : name? (a.name.toList ++ ':' :: ':' :: rest) =
      some (a.name.toList, ':' :: ':' :: rest) := by
    apply name?_simple hname ⟨rfl, rfl⟩
    rintro more ⟨⟩
    rfl
  rw [token_of_start hstart, simpleName?_append hname ⟨rfl, rfl⟩, hread]
  change nameToken afterOperand (String.ofList a.name.toList) (':' :: ':' :: rest) = _
  have hblank : (':' :: ':' :: rest).dropWhile Text.isBlank = ':' :: ':' :: rest := rfl
  simp [nameToken, String.ofList_toList, hoperator, hblank, hcolon, haxis]

end words

end Lexer

end PathLanguage
