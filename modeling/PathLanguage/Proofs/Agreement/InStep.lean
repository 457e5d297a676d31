/- Computations in step: started in sessions that are alike they come to outcomes that stand in a
relation, and to sessions that are alike again. -/
import Mathlib.Data.List.Forall2
import PathLanguage.Proofs.Agreement.Alike
import PathLanguage.Proofs.Session.Returns

namespace PathLanguage

variable {α β γ δ : Type}

inductive Slot.Alike : Slot → Slot → Prop
  | pending {e e' : Expr} : e.Alike e' → Slot.Alike (.pending e) (.pending e')
  | evaluating : Slot.Alike .evaluating .evaluating
  | evaluated {v v' : Value} : v.Alike v' → Slot.Alike (.evaluated v) (.evaluated v')

structure IntentState.Alike (i i' : IntentState) : Prop where
  definition : i.definition.Alike i'.definition
  uses : i.uses = i'.uses
  extent : i.extent = i'.extent

structure Session.Alike (s s' : Session) : Prop where
  globals : List.Forall₂ (fun g g' => g.1 = g'.1 ∧ g.2.Alike g'.2) s.globals s'.globals
  indexes : s.indexes = s'.indexes
  documents : s.documents = s'.documents
  requested : s.requested = s'.requested
  intents : List.Forall₂ IntentState.Alike s.intents s'.intents
  calls : s.calls = s'.calls

/-- Outcomes of two actions: results that stand in a relation, or the same fault. -/
inductive Outcomes (R : α → β → Prop) : Except Fault α → Except Fault β → Prop
  | ok {x : α} {y : β} : R x y → Outcomes R (.ok x) (.ok y)
  | error (f : Fault) : Outcomes R (.error f) (.error f)

theorem Outcomes.imp {R R' : α → β → Prop} {r : Except Fault α} {r' : Except Fault β}
    (h : Outcomes R r r') (hi : ∀ x y, R x y → R' x y) : Outcomes R' r r' := by
  cases h with
  | ok h => exact .ok (hi _ _ h)
  | error f => exact .error f

theorem Outcomes.eq {r r' : Except Fault α} (h : Outcomes Eq r r') : r = r' := by
  cases h with
  | ok h => rw [h]
  | error f => rfl

/-- Computations in step, with a relation of their results. -/
def InStep (R : α → β → Prop) (m : StateM Session α) (m' : StateM Session β) : Prop :=
  ∀ s s', s.Alike s' → R (m.run s).1 (m'.run s').1 ∧ (m.run s).2.Alike (m'.run s').2

/-- Actions in step: both have results that stand in a relation, or the same fault. -/
def Action.InStep (R : α → β → Prop) (a : Action α) (b : Action β) : Prop :=
  PathLanguage.InStep (Outcomes R) a.attempt b.attempt

namespace InStep

variable {R : α → β → Prop} {Q : γ → δ → Prop}

theorem pure {x : α} {y : β} (h : R x y) : InStep R (pure x) (pure y) := fun _ _ hs => ⟨h, hs⟩

theorem bind {m : StateM Session α} {m' : StateM Session β} {f : α → StateM Session γ}
    {f' : β → StateM Session δ} (h : InStep R m m') (hf : ∀ x y, R x y → InStep Q (f x) (f' y)) :
    InStep Q (m >>= f) (m' >>= f') := by
  intro s s' hs
  obtain ⟨hr, ht⟩ := h s s' hs
  exact hf _ _ hr _ _ ht

theorem imp {R' : α → β → Prop} {m : StateM Session α} {m' : StateM Session β}
    (h : InStep R m m') (hi : ∀ x y, R x y → R' x y) : InStep R' m m' := by
  intro s s' hs
  obtain ⟨hr, ht⟩ := h s s' hs
  exact ⟨hi _ _ hr, ht⟩

end InStep

namespace Action.InStep

variable {R : α → β → Prop} {Q : γ → δ → Prop}

theorem pure {x : α} {y : β} (h : R x y) : Action.InStep R (pure x) (pure y) :=
  PathLanguage.InStep.pure (.ok h)

theorem throw (f : Fault) : Action.InStep R (throw f) (throw f) :=
  PathLanguage.InStep.pure (.error f)

theorem fail (f : Fault) : Action.InStep R (.fail f) (.fail f) := throw f

theorem ofExcept (r : Except Fault α) : Action.InStep Eq (.ofExcept r) (.ofExcept r) := by
  cases r with
  | error f => exact throw f
  | ok x => exact pure rfl

theorem bind {a : Action α} {b : Action β} {f : α → Action γ} {g : β → Action δ}
    (h : Action.InStep R a b) (hf : ∀ x y, R x y → Action.InStep Q (f x) (g y)) :
    Action.InStep Q (a >>= f) (b >>= g) := by
  change PathLanguage.InStep (Outcomes Q) (a.attempt >>= ExceptT.bindCont f)
    (b.attempt >>= ExceptT.bindCont g)
  refine PathLanguage.InStep.bind h fun r r' hr => ?_
  cases hr with
  | error f => exact throw f
  | ok hr => exact hf _ _ hr

/-- Goes on from the same result. -/
theorem bind_eq {a b : Action α} {f : α → Action γ} {g : α → Action δ}
    (h : Action.InStep Eq a b) (hf : ∀ x, Action.InStep Q (f x) (g x)) :
    Action.InStep Q (a >>= f) (b >>= g) :=
  h.bind fun x _ he => he ▸ hf x

theorem map {a : Action α} {b : Action β} {f : α → γ} {g : β → δ} (h : Action.InStep R a b)
    (hf : ∀ x y, R x y → Q (f x) (g y)) :
    Action.InStep Q (do return f (← a)) (do return g (← b)) :=
  h.bind fun x y hr => pure (hf x y hr)

theorem map_eq {a b : Action α} {f : α → γ} (h : Action.InStep Eq a b) :
    Action.InStep Eq (do return f (← a)) (do return f (← b)) :=
  h.map fun _ _ he => congrArg f he

theorem ite {p : Prop} [Decidable p] {a a' : Action α} {b b' : Action β}
    (h : p → Action.InStep R a b) (h' : ¬p → Action.InStep R a' b') :
    Action.InStep R (if p then a else a') (if p then b else b') := by
  split
  · exact h ‹_›
  · exact h' ‹_›

theorem get : Action.InStep Session.Alike get get := fun _ _ hs => ⟨.ok hs, hs⟩

theorem update {f : Session → α × Session} {g : Session → β × Session}
    (h : ∀ s s', s.Alike s' → R (f s).1 (g s').1 ∧ (f s).2.Alike (g s').2) :
    Action.InStep R (.update f) (.update g) := by
  intro s s' hs
  obtain ⟨hr, ht⟩ := h s s' hs
  exact ⟨.ok hr, ht⟩

theorem modify {f g : Session → Session} (h : ∀ s s', s.Alike s' → (f s).Alike (g s')) :
    Action.InStep Eq (modify f) (modify g) :=
  fun s s' hs => ⟨.ok rfl, h s s' hs⟩

theorem lift {m : StateM Session α} {m' : StateM Session β} (h : PathLanguage.InStep R m m') :
    Action.InStep R (liftM m : Action α) (liftM m' : Action β) := by
  intro s s' hs
  obtain ⟨hr, ht⟩ := h s s' hs
  exact ⟨.ok hr, ht⟩

theorem outcome {a : Action α} {b : Action β} (h : Action.InStep R a b) :
    Action.InStep (Outcomes R) a.outcome b.outcome :=
  lift h

theorem imp {R' : α → β → Prop} {a : Action α} {b : Action β} (h : Action.InStep R a b)
    (hi : ∀ x y, R x y → R' x y) : Action.InStep R' a b :=
  PathLanguage.InStep.imp h fun _ _ hr => hr.imp hi

/-- What is known of the results of the first action whatever session it is run in may be used. -/
theorem bind_returns {P : α → Prop} {a : Action α} {b : Action β} {f : α → Action γ}
    {g : β → Action δ} (h : Action.InStep R a b) (hP : Returns a P)
    (hf : ∀ x y, R x y → P x → Action.InStep Q (f x) (g y)) :
    Action.InStep Q (a >>= f) (b >>= g) := by
  refine Action.InStep.bind (R := fun x y => R x y ∧ P x) (fun s s' hs => ?_) fun x y hr =>
    hf x y hr.1 hr.2
  obtain ⟨hr, ht⟩ := h s s' hs
  have hp := hP s
  refine ⟨?_, ht⟩
  generalize (a.attempt.run s).1 = r, (b.attempt.run s').1 = r' at hr hp ⊢
  cases hr with
  | ok hr => exact .ok ⟨hr, hp _ rfl⟩
  | error f => exact .error f

end Action.InStep

/-- Associations that are searched alike stay so when the value of a key is replaced. -/
theorem forall₂_assocSet {κ : Type} [BEq κ] {R : α → β → Prop} {l : List (κ × α)}
    {l' : List (κ × β)} (h : List.Forall₂ (fun p p' => p.1 = p'.1 ∧ R p.2 p'.2) l l') (key : κ)
    {x : α} {y : β} (hr : R x y) :
    List.Forall₂ (fun p p' => p.1 = p'.1 ∧ R p.2 p'.2) (assocSet key x l) (assocSet key y l') := by
  induction h with
  | nil => exact .cons ⟨rfl, hr⟩ .nil
  | @cons p p' rest rest' hp hrest ih =>
    obtain ⟨k, x'⟩ := p
    obtain ⟨k', y'⟩ := p'
    obtain ⟨rfl, hp⟩ : k = k' ∧ R x' y' := hp
    rw [assocSet, assocSet]
    split
    · exact .cons ⟨rfl, hr⟩ hrest
    · exact .cons ⟨rfl, hp⟩ ih

theorem rel_lookup {κ : Type} [BEq κ] {R : α → β → Prop} {l : List (κ × α)} {l' : List (κ × β)}
    (h : List.Forall₂ (fun p p' => p.1 = p'.1 ∧ R p.2 p'.2) l l') (key : κ) :
    Option.Rel R (l.lookup key) (l'.lookup key) := by
  induction h with
  | nil => exact .none
  | @cons p p' rest rest' hp _ ih =>
    obtain ⟨k, x⟩ := p
    obtain ⟨k', y⟩ := p'
    obtain ⟨rfl, hp⟩ : k = k' ∧ R x y := hp
    rw [List.lookup_cons, List.lookup_cons]
    split
    · exact .some hp
    · exact ih

theorem rel_getElem? {R : α → β → Prop} {l : List α} {l' : List β} (h : List.Forall₂ R l l')
    (i : Nat) : Option.Rel R l[i]? l'[i]? := by
  induction h generalizing i with
  | nil => exact .none
  | cons hr _ ih =>
    cases i with
    | zero => exact .some hr
    | succ i => exact ih i

theorem forall₂_set {R : α → β → Prop} {l : List α} {l' : List β} (h : List.Forall₂ R l l')
    (i : Nat) {x : α} {y : β} (hr : R x y) : List.Forall₂ R (l.set i x) (l'.set i y) := by
  induction h generalizing i with
  | nil => exact .nil
  | cons hr' h ih =>
    cases i with
    | zero => exact .cons hr h
    | succ i => exact .cons hr' (ih i)

theorem Slot.Alike.refl : ∀ slot : Slot, slot.Alike slot
  | .pending e => .pending (.refl e)
  | .evaluating => .evaluating
  | .evaluated v => .evaluated (.refl v)

namespace Session.Alike

variable {s s' : Session}

theorem refl (s : Session) : s.Alike s where
  globals := List.forall₂_same.mpr fun g _ => ⟨rfl, .refl g.2⟩
  indexes := rfl
  documents := rfl
  requested := rfl
  intents := List.forall₂_same.mpr fun _ _ => ⟨.refl _, rfl, rfl⟩
  calls := rfl

theorem slot? (h : s.Alike s') (name : ExpandedName) :
    Option.Rel Slot.Alike (s.slot? name) (s'.slot? name) :=
  rel_lookup h.globals name

theorem setSlot (h : s.Alike s') (name : ExpandedName) {slot slot' : Slot}
    (hs : slot.Alike slot') : (s.setSlot name slot).Alike (s'.setSlot name slot') :=
  { h with globals := forall₂_assocSet h.globals name hs }

theorem index? (h : s.Alike s') (name : ExpandedName) (root : Node) :
    s.index? name root = s'.index? name root := by
  rw [Session.index?, Session.index?, h.indexes]

theorem intent (h : s.Alike s') (id : Nat) : (s.intent id).Alike (s'.intent id) := by
  have hi := rel_getElem? h.intents id
  unfold Session.intent
  generalize s.intents[id]? = i, s'.intents[id]? = i' at hi ⊢
  cases hi with
  | none => exact ⟨.refl _, rfl, rfl⟩
  | some hi => exact hi

theorem setIntent (h : s.Alike s') (id : Nat) {i i' : IntentState} (hi : i.Alike i') :
    (s.setIntent id i).Alike (s'.setIntent id i') :=
  { h with intents := forall₂_set h.intents id hi }

theorem newIntent (h : s.Alike s') {e e' : Expr} (he : e.Alike e') :
    (s.newIntent e).1 = (s'.newIntent e').1 ∧ (s.newIntent e).2.Alike (s'.newIntent e').2 :=
  ⟨h.intents.length_eq,
    { h with intents := List.rel_append h.intents (.cons ⟨he, rfl, rfl⟩ .nil) }⟩

theorem countCall (h : s.Alike s') (serial : Nat) :
    (s.countCall serial).1 = (s'.countCall serial).1 ∧
      (s.countCall serial).2.Alike (s'.countCall serial).2 := by
  simp only [Session.countCall, h.calls, true_and]
  exact { h with calls := rfl }

end Session.Alike

end PathLanguage
