/- What can be known of global variables whatever is referenced first: the values of definitions
that refer to nothing, then of those that refer to no others, and so on until no more is found. -/
import PathLanguage.Proofs.Bindings.Evaluation
import PathLanguage.Proofs.Direct.Evaluation

namespace PathLanguage

variable {T : Transformation} {E E' : Engine} {s : Session} {name : ExpandedName}

/-- A variable with a direct definition, or with a value that is no lazy node-set. -/
def Slot.Direct : Slot → Prop
  | .pending definition => definition.Direct true
  | .evaluating => False
  | .evaluated v => v.AtHand

namespace Session

/-- All variables have direct definitions or values that are no lazy node-sets. -/
def Direct (s : Session) : Prop := ∀ name slot, s.slot? name = some slot → slot.Direct

/-- A session in which some variables have known values and none can be computed. -/
def Knows (s : Session) (values : ExpandedName → Option Value) (t : Session) : Prop :=
  ∀ name, t.slot? name = (s.slot? name).map fun _ => (values name).elim .evaluating .evaluated

def knowing (s : Session) (values : ExpandedName → Option Value) : Session :=
  { s with globals := s.globals.map fun g => (g.1, (values g.1).elim .evaluating .evaluated) }

/-- The values that are found without a reference to anything but what was found before. -/
def known (T : Transformation) (s : Session) : Nat → ExpandedName → Option Value
  | 0, _ => none
  | n + 1, name =>
    match s.slot? name with
    | some (.pending d) =>
      (((engine T n).value d T.globalContext).attempt.run (s.knowing (known T s n))).1.toOption
    | some (.evaluated v) => some v
    | _ => none

theorem knows_knowing (s : Session) (values : ExpandedName → Option Value) :
    s.Knows values (s.knowing values) := by
  intro name
  change List.lookup name (s.globals.map _) = (List.lookup name s.globals).map _
  induction s.globals with
  | nil => rfl
  | cons g rest ih =>
    rw [List.map_cons, List.lookup_cons, List.lookup_cons]
    split
    · next h => rw [eq_of_beq h, Option.map_some]
    · exact ih

theorem slot?_congr {t u : Session} (h : u.globals = t.globals) (name : ExpandedName) :
    u.slot? name = t.slot? name :=
  congrArg (List.lookup name) h

section knowing

variable {values values' : ExpandedName → Option Value} {t : Session}

theorem Knows.congr (h : s.Knows values t) {u : Session} (hu : u.globals = t.globals) :
    s.Knows values u :=
  fun name => (slot?_congr hu name).trans (h name)

/-- References change nothing in a session in which nothing can be computed. -/
theorem Knows.globalValue (h : s.Knows values t) (E : Engine) (name : ExpandedName) :
    ((globalValue T E name).attempt.run t).2 = t ∧
      ∀ v, ((globalValue T E name).attempt.run t).1 = .ok v → values name = some v := by
  have hslot := h name
  cases hs : s.slot? name with
  | none =>
    rw [hs] at hslot
    rw [globalValue_undefined hslot]
    exact ⟨rfl, nofun⟩
  | some slot =>
    rw [hs] at hslot
    cases hv : values name with
    | none =>
      rw [hv] at hslot
      rw [globalValue_evaluating hslot]
      exact ⟨rfl, nofun⟩
    | some w =>
      rw [hv] at hslot
      rw [globalValue_evaluated hslot]
      exact ⟨rfl, fun v h => congrArg some (Except.ok.inj h)⟩

theorem Knows.globalValue_known (h : s.Knows values t) (E : Engine) {v : Value}
    (hs : s.slot? name ≠ none) (hv : values name = some v) :
    (PathLanguage.globalValue T E name).attempt.run t = (.ok v, t) := by
  obtain ⟨slot, hslot⟩ := Option.ne_none_iff_exists'.mp hs
  apply globalValue_evaluated
  rw [h name, hslot, Option.map_some, hv]
  rfl

/-- Where more is known, references are answered alike. -/
theorem knows_answers (E E' : Engine) (hs : ∀ name v, values name = some v → s.slot? name ≠ none)
    (hv : ∀ name v, values name = some v → v.AtHand ∧ values' name = some v) :
    E.Answers T (fun t u => s.Knows values t ∧ s.Knows values' u) E' := by
  rintro name t u ⟨ht, hu⟩
  obtain ⟨hkeep, hknown⟩ := ht.globalValue (T := T) E name
  refine ⟨u, ⟨hkeep.symm ▸ ht, hu⟩, ?_⟩
  rintro ⟨v, hok⟩
  have hname := hknown v hok
  obtain ⟨hhand, hname'⟩ := hv name v hname
  refine ⟨fun x hx => ?_, ?_⟩
  · obtain rfl : v = x := Except.ok.inj (hok.symm.trans hx)
    exact hhand
  · rw [hu.globalValue_known E' (hs name v hname) hname', hok]

/-- Where more is known, a definition that has a value has the same value, also to a greater
depth. -/
theorem value_knowing (hs : ∀ name v, values name = some v → s.slot? name ≠ none)
    (hv : ∀ name v, values name = some v → v.AtHand ∧ values' name = some v) {i j : Nat}
    (hij : i ≤ j) {d : Expr} (hd : d.Direct true) {v : Value} {u : Session}
    (ht : s.Knows values t) (hu : s.Knows values' u)
    (h : (((engine T i).value d T.globalContext).attempt.run t).1 = .ok v) :
    v.AtHand ∧ (((engine T j).value d T.globalContext).attempt.run u).1 = .ok v := by
  obtain ⟨more, rfl⟩ := Nat.exists_eq_add_of_le' hij
  have hR : OfGlobals fun t u => s.Knows values t ∧ s.Knows values' u :=
    fun _ _ _ _ ht hu h => ⟨h.1.congr ht, h.2.congr hu⟩
  have hE := engine_follows hR i more
    fun n _ => knows_answers (engine T n) (engine T (more + n)) hs hv
  have hvalue := hE.value (c := T.globalContext) hd rfl
  obtain ⟨hhand, _, -, hrun⟩ := hvalue.ok ⟨ht, hu⟩ (Prod.ext h rfl)
  exact ⟨hhand, congrArg Prod.fst hrun⟩

end knowing

theorem known_slot {n : Nat} {v : Value} (h : s.known T n name = some v) : s.slot? name ≠ none := by
  intro hs
  cases n with
  | zero => cases h
  | succ n =>
    rw [known, hs] at h
    cases h

theorem known_pending {n : Nat} {d : Expr} (hd : s.slot? name = some (.pending d)) (v : Value) :
    s.known T (n + 1) name = some v ↔
      (((engine T n).value d T.globalContext).attempt.run (s.knowing (s.known T n))).1 = .ok v := by
  rw [known, hd]
  dsimp only
  generalize ((engine T n).value d T.globalContext).attempt.run (s.knowing (s.known T n)) = x
  obtain ⟨r, t⟩ := x
  cases r with
  | ok w =>
    exact ⟨fun h => congrArg Except.ok (Option.some.inj h),
      fun h => congrArg some (Except.ok.inj h)⟩
  | error f => exact ⟨nofun, nofun⟩

/-- What is known stays known. -/
theorem known_succ (hs : s.Direct) (n : Nat) : ∀ name v, s.known T n name = some v →
    v.AtHand ∧ s.known T (n + 1) name = some v := by
  induction n with
  | zero => exact nofun
  | succ n ih =>
    intro name v h
    cases hslot : s.slot? name with
    | none => exact absurd hslot (known_slot h)
    | some slot =>
      cases slot with
      | evaluating => exact (hs name _ hslot).elim
      | evaluated w =>
        rw [known, hslot] at h ⊢
        obtain rfl : w = v := Option.some.inj h
        exact ⟨hs name _ hslot, rfl⟩
      | pending d =>
        have hrun := (known_pending hslot v).mp h
        obtain ⟨hv, hrun'⟩ := value_knowing (fun _ _ => known_slot) ih n.le_succ (hs name _ hslot)
          (s.knows_knowing _) (s.knows_knowing _) hrun
        exact ⟨hv, (known_pending hslot v).mpr hrun'⟩

theorem known_mono (hs : s.Direct) {m n : Nat} (h : m ≤ n) {v : Value}
    (hv : s.known T m name = some v) : s.known T n name = some v := by
  induction h with
  | refl => exact hv
  | step _ ih => exact (known_succ hs _ name v ih).2

theorem known_atHand (hs : s.Direct) {n : Nat} {v : Value} (h : s.known T n name = some v) :
    v.AtHand :=
  (known_succ hs n name v h).1

/-- What is known of a definition at one time and depth is known at every later time and to every
greater depth. -/
theorem value_mono (hs : s.Direct) {m n i j : Nat} (hmn : m ≤ n) (hij : i ≤ j) {d : Expr}
    (hd : d.Direct true) {v : Value} {t u : Session} (ht : s.Knows (s.known T m) t)
    (hu : s.Knows (s.known T n) u)
    (h : (((engine T i).value d T.globalContext).attempt.run t).1 = .ok v) :
    (((engine T j).value d T.globalContext).attempt.run u).1 = .ok v :=
  (value_knowing (fun _ _ => known_slot)
    (fun _ _ hv => ⟨known_atHand hs hv, known_mono hs hmn hv⟩) hij hd ht hu h).2

/-- In the end no more is found. -/
theorem exists_known (T : Transformation) (hs : s.Direct) :
    ∃ last, ∀ n name v, s.known T n name = some v → s.known T last name = some v := by
  have hlist (names : List ExpandedName) : ∃ last, ∀ name ∈ names, ∀ n v,
      s.known T n name = some v → s.known T last name = some v := by
    induction names with
    | nil => exact ⟨0, fun _ h => absurd h List.not_mem_nil⟩
    | cons first rest ih =>
      obtain ⟨last, hlast⟩ := ih
      by_cases hfirst : ∃ k w, s.known T k first = some w
      · obtain ⟨k, w, hk⟩ := hfirst
        refine ⟨max k last, fun name hname n v hv => ?_⟩
        rcases List.mem_cons.mp hname with rfl | hname
        · -- Two values of one variable would both be known in the end.
          have hw := known_mono hs (Nat.le_max_left k n) hk
          have hv' := known_mono hs (Nat.le_max_right k n) hv
          obtain rfl : w = v := Option.some.inj (hw.symm.trans hv')
          exact known_mono hs (Nat.le_max_left k last) hk
        · exact known_mono hs (Nat.le_max_right k last) (hlast name hname n v hv)
      · refine ⟨last, fun name hname n v hv => ?_⟩
        rcases List.mem_cons.mp hname with rfl | hname
        · exact absurd ⟨n, v, hv⟩ hfirst
        · exact hlast name hname n v hv
  obtain ⟨last, hlast⟩ := hlist (s.globals.map Prod.fst)
  refine ⟨last, fun n name v hv => hlast name ?_ n v hv⟩
  by_contra hmem
  refine known_slot hv (List.lookup_eq_none_iff.mpr fun g hg => bne_iff_ne.mpr ?_)
  rintro rfl
  exact hmem (List.mem_map_of_mem hg)

end Session

end PathLanguage
