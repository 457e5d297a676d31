/- Global variables with direct definitions, referenced one after the other: every variable has one
value in whatever order the run comes to it, or fails in every order. -/
import PathLanguage.Proofs.Bindings.Requests
import PathLanguage.Proofs.Direct.Known

namespace PathLanguage

variable {T : Transformation} {s t : Session} {name : ExpandedName} {last : Nat}
  {marked : ExpandedName → Prop}

/-- What may have become of a variable in the course of a run: nothing, or it is being computed, or
it has the value that is known of it. -/
inductive Slot.Course (known : Option Value) (marked : Prop) : Option Slot → Option Slot → Prop
  | undefined (h : ¬marked) : Course known marked none none
  | pending (d : Expr) (h : ¬marked) : Course known marked (some (.pending d)) (some (.pending d))
  | evaluating (d : Expr) (h : marked) : Course known marked (some (.pending d)) (some .evaluating)
  | evaluated (slot : Slot) (v : Value) (h : ¬marked) (hv : known = some v) :
    Course known marked (some slot) (some (.evaluated v))

namespace Session

/-- A session in the course of a run of references, in the midst of the computation of the marked
variables. -/
def Course (T : Transformation) (s : Session) (last : Nat) (marked : ExpandedName → Prop)
    (t : Session) : Prop :=
  ∀ name, Slot.Course (s.known T last name) (marked name) (s.slot? name) (t.slot? name)

/-- Nothing is known that is not known in the end. -/
def KnownBy (T : Transformation) (s : Session) (last : Nat) : Prop :=
  ∀ n name v, s.known T n name = some v → s.known T last name = some v

namespace Course

theorem of_pending (h : s.Course T last marked t) {d : Expr}
    (ht : t.slot? name = some (.pending d)) : ¬marked name ∧ s.slot? name = some (.pending d) := by
  have hn := h name
  rw [ht] at hn
  generalize s.slot? name = slot at hn ⊢
  cases hn with
  | pending d hm => exact ⟨hm, rfl⟩

theorem of_evaluated (h : s.Course T last marked t) {v : Value}
    (ht : t.slot? name = some (.evaluated v)) : s.known T last name = some v := by
  have hn := h name
  rw [ht] at hn
  generalize s.slot? name = slot at hn
  cases hn with
  | evaluated slot v hm hv => exact hv

/-- Any change of one variable that fits the course leads to a session of the course. -/
theorem setSlot {marked' : ExpandedName → Prop} (h : s.Course T last marked t) {slot : Slot}
    (hother : ∀ name', name' ≠ name → (marked' name' ↔ marked name'))
    (hslot : Slot.Course (s.known T last name) (marked' name) (s.slot? name) (some slot)) :
    s.Course T last marked' (t.setSlot name slot) := by
  intro name'
  by_cases hn : name' = name
  · subst hn
    rw [slot?_setSlot_self]
    exact hslot
  · rw [slot?_setSlot_ne t hn, propext (hother name' hn)]
    exact h name'

/-- The computation of a pending variable begins. -/
theorem mark (h : s.Course T last marked t) {d : Expr} (hs : s.slot? name = some (.pending d)) :
    s.Course T last (fun other => marked other ∨ other = name) (t.setSlot name .evaluating) := by
  refine h.setSlot (fun other hne => by simp [hne]) ?_
  rw [hs]
  exact .evaluating d (.inr rfl)

/-- The computation of a variable is over. -/
theorem settle (h : s.Course T last (fun other => marked other ∨ other = name) t) {slot : Slot}
    (hslot : Slot.Course (s.known T last name) (marked name) (s.slot? name) (some slot)) :
    s.Course T last marked (t.setSlot name slot) :=
  h.setSlot (fun other hne => by simp [hne]) hslot

theorem congr (h : s.Course T last marked t) {u : Session} (hu : u.globals = t.globals) :
    s.Course T last marked u :=
  fun name => slot?_congr hu name ▸ h name

end Course

/-- To some depth, references lead on in the course of a run and give no value but the known one. -/
def AnswersOnlyKnown (T : Transformation) (s : Session) (last depth : Nat) : Prop :=
  ∀ marked t name, s.Course T last marked t →
    s.Course T last marked ((globalValue T (engine T depth) name).attempt.run t).2 ∧
    ∀ v, ((globalValue T (engine T depth) name).attempt.run t).1 = .ok v →
      s.known T last name = some v

/-- The definition of a pending variable has no value but the one that it has where all known
variables are computed already. -/
theorem Course.compute_sound (hs : s.Direct) (hlast : s.KnownBy T last) {depth : Nat}
    (hless : ∀ n < depth, s.AnswersOnlyKnown T last n) (h : s.Course T last marked t) {d : Expr}
    (hd : s.slot? name = some (.pending d)) {r : Except Fault Value} {u : Session}
    (hr : ((engine T depth).value d T.globalContext).attempt.run (t.setSlot name .evaluating) =
      (r, u)) :
    s.Course T last (fun other => marked other ∨ other = name) u ∧
      ∀ v, r = .ok v → s.known T last name = some v := by
  let computing : Session → Session → Prop := fun a b =>
    s.Course T last (fun other => marked other ∨ other = name) a ∧ s.Knows (s.known T last) b
  have hR : OfGlobals computing := fun _ _ _ _ ha hb h => ⟨h.1.congr ha, h.2.congr hb⟩
  have hanswers : ∀ n < depth, (engine T n).Answers T computing (engine T (0 + n)) := by
    rintro n hn other a b ⟨ha, hb⟩
    obtain ⟨ha', hother⟩ := hless n hn _ a other ha
    refine ⟨b, ⟨ha', hb⟩, ?_⟩
    rintro ⟨v, hv⟩
    have hknown := hother v hv
    refine ⟨fun x hx => known_atHand hs (hother x hx), ?_⟩
    rw [hb.globalValue_known _ (known_slot hknown) hknown, hv]
  have hvalue :=
    (engine_follows hR depth 0 hanswers).value (c := T.globalContext) (hs name _ hd) rfl
  obtain ⟨u', ⟨hcourse, -⟩, hok⟩ := hvalue _ _ ⟨h.mark hd, s.knows_knowing _⟩
  rw [hr] at hcourse hok
  refine ⟨hcourse, fun v hv => hlast (max depth last + 1) name v ((known_pending hd v).mpr ?_)⟩
  obtain ⟨-, hrun⟩ := hok ⟨v, hv⟩
  rw [Nat.zero_add] at hrun
  exact value_mono hs (Nat.le_max_right depth last) (Nat.le_max_left depth last) (hs name _ hd)
    (s.knows_knowing _) (s.knows_knowing _) ((congrArg Prod.fst hrun).trans hv)

theorem answersOnlyKnown (hs : s.Direct) (hlast : s.KnownBy T last) (depth : Nat) :
    s.AnswersOnlyKnown T last depth := by
  induction depth using Nat.strongRecOn with
  | _ depth ih =>
    intro marked t name h
    cases ht : t.slot? name with
    | none =>
      rw [globalValue_undefined ht]
      exact ⟨h, nofun⟩
    | some slot =>
      cases slot with
      | evaluating =>
        rw [globalValue_evaluating ht]
        exact ⟨h, nofun⟩
      | evaluated v =>
        rw [globalValue_evaluated ht]
        exact ⟨h, fun w hw => Except.ok.inj hw ▸ h.of_evaluated ht⟩
      | pending d =>
        obtain ⟨hm, hd⟩ := h.of_pending ht
        rw [globalValue_pending ht, guarded_run]
        generalize hr : ((engine T depth).value d T.globalContext).attempt.run
          (t.setSlot name .evaluating) = result
        obtain ⟨r, u⟩ := result
        obtain ⟨hcourse, hknown⟩ := h.compute_sound hs hlast ih hd hr
        cases r with
        | error f =>
          refine ⟨hcourse.settle ?_, nofun⟩
          rw [hd]
          exact .pending d hm
        | ok v =>
          refine ⟨hcourse.settle ?_, fun w hw => Except.ok.inj hw ▸ hknown v rfl⟩
          rw [hd]
          exact .evaluated _ v hm (hknown v rfl)

/-- To some depth, references to what is known at some time give the known values, unless that is
being computed. -/
def AnswersKnown (T : Transformation) (s : Session) (last n depth : Nat) : Prop :=
  ∀ marked t name v, (∀ other, marked other → s.known T n other = none) →
    s.Course T last marked t → s.known T n name = some v →
    ∃ u, (globalValue T (engine T depth) name).attempt.run t = (.ok v, u) ∧
      s.Course T last marked u

/-- The definition of a pending variable that is known next has the known value, if references to
what is known are answered. -/
theorem Course.compute_complete (hs : s.Direct) {n more : Nat}
    (hmore : ∀ depth ≥ more, s.AnswersKnown T last n depth) (h : s.Course T last marked t)
    (hmarked : ∀ other, marked other → s.known T n other = none)
    (hname : s.known T n name = none) {d : Expr} (hd : s.slot? name = some (.pending d)) {v : Value}
    (hv : s.known T (n + 1) name = some v) :
    ∃ u, ((engine T (more + n)).value d T.globalContext).attempt.run (t.setSlot name .evaluating) =
        (.ok v, u) ∧
      s.Course T last (fun other => marked other ∨ other = name) u := by
  let computing : Session → Session → Prop := fun a b =>
    s.Knows (s.known T n) a ∧ s.Course T last (fun other => marked other ∨ other = name) b
  have hR : OfGlobals computing := fun _ _ _ _ ha hb h => ⟨h.1.congr ha, h.2.congr hb⟩
  have hnone : ∀ other, (marked other ∨ other = name) → s.known T n other = none := by
    rintro other (hother | rfl)
    · exact hmarked other hother
    · exact hname
  have hanswers : ∀ i < n, (engine T i).Answers T computing (engine T (more + i)) := by
    rintro i - other a b ⟨ha, hb⟩
    obtain ⟨hkeep, hknown⟩ := ha.globalValue (T := T) (engine T i) other
    rw [hkeep]
    generalize ((globalValue T (engine T i) other).attempt.run a).1 = r at hknown
    cases r with
    | error f => exact ⟨b, ⟨ha, hb⟩, nofun⟩
    | ok w =>
      have hw := hknown w rfl
      obtain ⟨u, hu, hcourse⟩ := hmore (more + i) (Nat.le_add_right more i) _ b other w hnone hb hw
      exact ⟨u, ⟨ha, hcourse⟩, fun _ => ⟨fun x hx => Except.ok.inj hx ▸ known_atHand hs hw, hu⟩⟩
  have hvalue := (engine_follows hR n more hanswers).value (c := T.globalContext) (hs name _ hd) rfl
  have hrun := (known_pending hd v).mp hv
  obtain ⟨-, u, ⟨-, hcourse⟩, hu⟩ := hvalue.ok ⟨s.knows_knowing _, h.mark hd⟩ (Prod.ext hrun rfl)
  exact ⟨u, hu, hcourse⟩

theorem exists_answersKnown (hs : s.Direct) (hlast : s.KnownBy T last) (n : Nat) :
    ∃ enough, ∀ depth ≥ enough, s.AnswersKnown T last n depth := by
  induction n with
  | zero => exact ⟨0, fun _ _ _ _ _ _ _ _ h => nomatch h⟩
  | succ n ih =>
    obtain ⟨enough, henough⟩ := ih
    refine ⟨n + enough, fun depth hdepth marked t name v hmarked h hv => ?_⟩
    have hless : ∀ other, marked other → s.known T n other = none := by
      intro other hother
      cases hk : s.known T n other with
      | none => rfl
      | some w => exact absurd (known_succ hs n other w hk).2 (by simp [hmarked other hother])
    have hvlast := hlast _ _ _ hv
    obtain ⟨slot, hslot⟩ := Option.ne_none_iff_exists'.mp (known_slot hv)
    have hn := h name
    rw [hslot] at hn
    generalize ht : t.slot? name = current at hn
    cases hn with
    | evaluating d hm => exact absurd hv (by simp [hmarked name hm])
    | evaluated _ w hm hw =>
      obtain rfl : w = v := Option.some.inj (hw.symm.trans hvlast)
      exact ⟨t, globalValue_evaluated ht, h⟩
    | pending d hm =>
      cases hk : s.known T n name with
      | some w =>
        obtain rfl : w = v := Option.some.inj ((known_succ hs n name w hk).2.symm.trans hv)
        exact henough depth (by omega) marked t name w hless h hk
      | none =>
        obtain ⟨more, rfl⟩ : ∃ more, depth = more + n := ⟨depth - n, by omega⟩
        have hmore : ∀ i ≥ more, s.AnswersKnown T last n i := fun i hi => henough i (by omega)
        obtain ⟨u, hu, hcourse⟩ := h.compute_complete hs hmore hless hk hslot hv
        refine ⟨u.setSlot name (.evaluated v), ?_, hcourse.settle ?_⟩
        · rw [globalValue_pending ht, guarded_run, hu]
        · rw [hslot]
          exact .evaluated _ v hm hvlast

end Session

namespace Request

/-- A reference to a global variable. -/
def «global» (name : ExpandedName) : Request := .variable ⟨name, true, none⟩ .blank

/-- What a reference to a variable comes to after references to others, in their order. -/
def referenced (T : Transformation) (depth : Nat) (order : List ExpandedName) (name : ExpandedName)
    (s : Session) : Except Fault Value :=
  ((globalValue T (engine T depth) name).attempt.run (after T depth (order.map «global») s)).1

theorem after_course (hs : s.Direct) (hlast : s.KnownBy T last) (depth : Nat)
    (order : List ExpandedName) {t : Session} (h : s.Course T last (fun _ => False) t) :
    s.Course T last (fun _ => False) (after T depth (order.map «global») t) := by
  induction order generalizing t with
  | nil => exact h
  | cons name rest ih => exact ih (Session.answersOnlyKnown hs hlast depth _ t name h).1

/-- Variables with direct definitions do not depend on the order in which they are referenced: each
has one value at most, whose nodes are at hand if it is a node-set. It is the only one that the
variable may have in any order and to any depth, and from some depth on the variable has this value
in every order, or none in any. -/
theorem values_in_any_order (T : Transformation) (hs : s.Direct) :
    ∃ values : ExpandedName → Option Value,
      (∀ name v, values name = some v → v.AtHand) ∧
      (∀ depth order name v, referenced T depth order name s = .ok v → values name = some v) ∧
      ∃ enough, ∀ depth ≥ enough, ∀ order name,
        (referenced T depth order name s).toOption = values name := by
  obtain ⟨last, hlast⟩ := Session.exists_known T hs
  obtain ⟨enough, henough⟩ := Session.exists_answersKnown hs hlast last
  have hstart : s.Course T last (fun _ => False) s := by
    intro name
    cases hslot : s.slot? name with
    | none => exact .undefined not_false
    | some slot =>
      cases slot with
      | pending d => exact .pending d not_false
      | evaluating => exact (hs name _ hslot).elim
      | evaluated v =>
        refine .evaluated _ v not_false (hlast 1 name v ?_)
        rw [Session.known, hslot]
  have hsound (depth : Nat) (order : List ExpandedName) (name : ExpandedName) (v : Value)
      (h : referenced T depth order name s = .ok v) : s.known T last name = some v :=
    (Session.answersOnlyKnown hs hlast depth _ _ name
      (after_course hs hlast depth order hstart)).2 v h
  refine ⟨s.known T last, fun _ _ => Session.known_atHand hs, hsound, enough,
    fun depth hdepth order name => ?_⟩
  cases hk : s.known T last name with
  | some v =>
    obtain ⟨u, hu, -⟩ := henough depth hdepth _ _ name v (fun _ h => h.elim)
      (after_course hs hlast depth order hstart) hk
    rw [referenced, hu]
    rfl
  | none =>
    cases hr : referenced T depth order name s with
    | ok v => exact absurd (hsound depth order name v hr) (by simp [hk])
    | error f => rfl

end Request

/-- A reference to a global variable by its local name. -/
def Expr.global (name : String) : Expr := .reference ⟨.unqualified name, true, none⟩

/-- Variables `a` and `b`, which refer to each other, `c`, which refers to `d`, `e`, which tests the
children of the context node for `c`, and `f`, which counts them. -/
def Session.entangled : Session :=
  { globals := [
      (.unqualified "a", .pending (.global "b")),
      (.unqualified "b", .pending (.global "a")),
      (.unqualified "c", .pending (.call .concat [.global "d", .value (.string "y")] none none)),
      (.unqualified "d", .pending (.value (.string "x"))),
      (.unqualified "e", .pending (.call .boolean [.filter (.axis .child .any none)
        (.compare .equal (.global "c") (.value (.string "xy")))] none none)),
      (.unqualified "f", .pending (.call .count [.axis .child .any none] none none))] }

theorem Session.entangled_direct : entangled.Direct := by
  have hglobal (name : String) (kept : Bool) : (Expr.global name).Direct kept :=
    .built (.reference _ kept)
  have htext (t : String) (kept : Bool) : (Expr.value (.string t)).Direct kept := by
    have hvalue : (Value.string t).AtHand := fun _ h => by cases h
    exact hvalue.direct kept
  intro name slot h
  simp only [slot?, entangled, List.lookup_cons, List.lookup_nil] at h
  split at h
  · cases h
    exact hglobal "b" true
  split at h
  · cases h
    exact hglobal "a" true
  split at h
  · cases h
    exact .built (.call none none true ⟨by decide, by decide⟩
      (.cons (hglobal "d" false) (.cons (htext "y" false) (.nil _))))
  split at h
  · cases h
    exact htext "x" true
  split at h
  · cases h
    have hpredicate : Expr.BuiltDirectly
        (.compare .equal (.global "c") (.value (.string "xy"))) true :=
      .compare .equal true (hglobal "c" true) (htext "xy" true)
    have hchildren :=
      Expr.BuiltDirectly.filter (.built (.axis .child .any none)) (.built hpredicate)
    exact .built (.call none none true ⟨by decide, by decide⟩ (.cons (.built hchildren) (.nil _)))
  split at h
  · cases h
    refine .alone true (fun l hl => ?_) (by decide) (by decide)
    obtain rfl := List.mem_singleton.mp hl
    exact ⟨by decide, by decide⟩
  · cases h

/-- In every order `a` and `b` fail, `c` is a text, `e` holds and `f` is a number. -/
theorem Request.values_in_any_order_of_cycle :
    let T : Transformation := { globalNode := some (.root .pair) }
    Session.entangled.Direct ∧ ∃ values : ExpandedName → Option Value,
      values (.unqualified "a") = none ∧ values (.unqualified "b") = none ∧
      values (.unqualified "c") = some (.string "xy") ∧
      values (.unqualified "e") = some (.boolean true) ∧
      values (.unqualified "f") = some (.number (.ofNat 1)) ∧
      ∃ enough, ∀ depth ≥ enough, ∀ order name,
        (referenced T depth order name Session.entangled).toOption = values name := by
  intro T
  obtain ⟨values, -, hsound, enough, hvalues⟩ := values_in_any_order T Session.entangled_direct
  have hcycle (name : ExpandedName)
      (h : (referenced T (enough + 3) [] name Session.entangled).toOption = none) :
      values name = none :=
    (hvalues (enough + 3) (Nat.le_add_right enough 3) [] name).symm.trans h
  refine ⟨Session.entangled_direct, values, hcycle _ rfl, hcycle _ rfl, ?_, ?_, ?_, enough, hvalues⟩
  · exact hsound 9 [] _ _ rfl
  · exact hsound 9 [] _ _ rfl
  · exact hsound 9 [] _ _ rfl

end PathLanguage
