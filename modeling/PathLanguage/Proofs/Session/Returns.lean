/- What is known of the results of computations whatever session they are run in. -/
import PathLanguage.Evaluation.Engine

namespace PathLanguage

/-- Whatever session a computation is run in, its result has a property. -/
def Always {α : Type} (m : StateM Session α) (Q : α → Prop) : Prop := ∀ s, Q (m.run s).1

namespace Always

variable {α β : Type} {m : StateM Session α} {f : α → StateM Session β}

theorem pure {Q : α → Prop} {a : α} (h : Q a) : Always (pure a) Q := fun _ => h

theorem bind {P : α → Prop} {Q : β → Prop} (h : Always m P)
    (hf : ∀ a, P a → Always (f a) Q) : Always (m >>= f) Q :=
  fun s => hf _ (h s) _

/-- Goes on without regard to a result. -/
theorem bind_any {Q : β → Prop} (hf : ∀ a, Always (f a) Q) : Always (m >>= f) Q :=
  fun _ => hf _ _

theorem imp {Q Q' : α → Prop} (h : Always m Q) (hi : ∀ a, Q a → Q' a) :
    Always m Q' :=
  fun s => hi _ (h s)

end Always

/-- Whatever session an action is run in, its result has a property if it succeeds. -/
def Returns {α : Type} (a : Action α) (Q : α → Prop) : Prop :=
  Always a.attempt fun r => ∀ x, r = .ok x → Q x

namespace Returns

variable {α β : Type} {a : Action α} {f g : α → Action β} {P : α → Prop}

theorem pure {Q : α → Prop} {x : α} (h : Q x) : Returns (pure x) Q := by
  rintro s _ ⟨⟩
  exact h

theorem lift {m : StateM Session α} {Q : α → Prop} (h : Always m Q) :
    Returns (liftM m : Action α) Q := by
  rintro s x ⟨⟩
  exact h s

theorem throw {Q : α → Prop} {e : Fault} : Returns (throw e) Q := fun _ _ h => by cases h

theorem fail {Q : α → Prop} {e : Fault} : Returns (.fail e) Q := throw

theorem ofExcept {Q : α → Prop} {r : Except Fault α} (h : ∀ x, r = .ok x → Q x) :
    Returns (.ofExcept r) Q := by
  cases r with
  | error f => exact throw
  | ok x => exact pure (h x rfl)

theorem bind {Q : β → Prop} (h : Returns a P) (hf : ∀ x, P x → Returns (f x) Q) :
    Returns (a >>= f) Q := by
  change Always (a.attempt >>= ExceptT.bindCont f) _
  refine Always.bind h fun r hr => ?_
  cases r with
  | error e => exact throw
  | ok x => exact hf x (hr x rfl)

/-- Goes on without regard to a result. -/
theorem bind_any {Q : β → Prop} (hf : ∀ x, Returns (f x) Q) : Returns (a >>= f) Q :=
  bind (P := fun _ => True) (fun _ _ _ => trivial) fun x _ => hf x

theorem imp {Q : α → Prop} (h : Returns a P) (hi : ∀ x, P x → Q x) : Returns a Q :=
  fun s x hx => hi x (h s x hx)

theorem ite {Q : α → Prop} {p : Prop} [Decidable p] {b : Action α} (ha : p → Returns a Q)
    (hb : ¬ p → Returns b Q) : Returns (if p then a else b) Q := by
  split
  · exact ha ‹_›
  · exact hb ‹_›

/-- What follows an action only matters for the results that it can have. -/
theorem bind_congr (h : Returns a P) (hfg : ∀ x, P x → f x = g x) : a >>= f = a >>= g := by
  change (a.run >>= ExceptT.bindCont f : StateM Session _) = a.run >>= ExceptT.bindCont g
  funext s
  change ExceptT.bindCont f (a.run s).1 (a.run s).2 = ExceptT.bindCont g (a.run s).1 (a.run s).2
  cases hr : (a.run s).1 with
  | error e => rfl
  | ok x => exact congrFun (hfg x (h s x hr)) _

end Returns

/-- Whatever session an action is run in, the fault that it ends in, if any, has a property in the
session that is left. -/
def FailsOnly {α : Type} (a : Action α) (P : Fault → Session → Prop) : Prop :=
  ∀ s f, (a.attempt.run s).1 = .error f → P f (a.attempt.run s).2

namespace FailsOnly

variable {α β : Type} {a : Action α} {g : α → Action β} {P Q : Fault → Session → Prop}

theorem pure {x : α} : FailsOnly (pure x) P := fun _ _ h => by cases h

theorem throw {f : Fault} (h : ∀ s, P f s) : FailsOnly (throw f : Action α) P := by
  rintro s _ ⟨⟩
  exact h s

theorem fail {f : Fault} (h : ∀ s, P f s) : FailsOnly (.fail f : Action α) P := throw h

theorem imp (h : FailsOnly a P) (hi : ∀ f s, P f s → Q f s) : FailsOnly a Q :=
  fun s f hf => hi f _ (h s f hf)

/-- What follows an action fails only where its result is one that the action can have. -/
theorem bind_of {R : α → Prop} (h : FailsOnly a P) (hr : Returns a R)
    (hg : ∀ x, R x → FailsOnly (g x) P) : FailsOnly (a >>= g) P := by
  intro s f hf
  change (ExceptT.bindCont g (a.attempt.run s).1 (a.attempt.run s).2).1 = _ at hf
  change P f (ExceptT.bindCont g (a.attempt.run s).1 (a.attempt.run s).2).2
  cases hx : (a.attempt.run s).1 with
  | error e =>
    rw [hx] at hf
    cases hf
    exact h s _ hx
  | ok x =>
    rw [hx] at hf
    exact hg x (hr s x hx) _ f hf

theorem bind (h : FailsOnly a P) (hg : ∀ x, FailsOnly (g x) P) : FailsOnly (a >>= g) P :=
  h.bind_of (R := fun _ => True) (fun _ _ _ => trivial) fun x _ => hg x

/-- An action whose outcome is looked at fails by what is done with an outcome that it can have. -/
theorem outcome_bind {g : Except Fault α → Action β}
    (hg : ∀ s r t, a.attempt.run s = (r, t) → ∀ f, ((g r).attempt.run t).1 = .error f →
      P f ((g r).attempt.run t).2) : FailsOnly (a.outcome >>= g) P :=
  fun s f hf => hg s _ _ rfl f hf

theorem ite {p : Prop} [Decidable p] {b : Action α} (ha : p → FailsOnly a P)
    (hb : ¬ p → FailsOnly b P) : FailsOnly (if p then a else b) P := by
  by_cases h : p
  · rw [if_pos h]
    exact ha h
  · rw [if_neg h]
    exact hb h

end FailsOnly

/-- A host function that resolves a name is one of the library. -/
theorem FunctionLibrary.resolve_mem {l : FunctionLibrary} {name : ExpandedName} {arity : Nat}
    {o : Overload} (h : l.resolve name arity = .ok o) : o ∈ l.overloads := by
  unfold resolve at h
  split at h
  · next p hp =>
    obtain rfl : p = o := by simpa using h
    exact List.mem_of_find?_eq_some hp
  · split at h <;> cases h

/-- An action that only returns succeeds with what it returns and changes nothing. -/
theorem Action.pure_ok {α : Type} {x y : α} {s t : Session} :
    (pure x : Action α).attempt.run s = (.ok y, t) ↔ x = y ∧ s = t := by
  constructor
  · intro h
    cases h
    exact ⟨rfl, rfl⟩
  · rintro ⟨rfl, rfl⟩
    rfl

/-- A sequence of actions succeeds just if each of them does. -/
theorem Action.bind_ok {α β : Type} {a : Action α} {f : α → Action β} {s t : Session} {y : β} :
    (a >>= f).attempt.run s = (.ok y, t) ↔
      ∃ x u, a.attempt.run s = (.ok x, u) ∧ (f x).attempt.run u = (.ok y, t) := by
  change ExceptT.bindCont f (a.run s).1 (a.run s).2 = (.ok y, t) ↔
    ∃ x u, a.run s = (.ok x, u) ∧ (f x).run u = (.ok y, t)
  cases hr : a.run s with
  | mk r u =>
    cases r with
    | error e => exact iff_of_false nofun nofun
    | ok x =>
      refine ⟨fun h => ⟨x, u, rfl, h⟩, ?_⟩
      rintro ⟨_, _, ⟨⟩, h⟩
      exact h

/-- An action that reads the session goes on from what it is. -/
theorem Action.run_get {α : Type} (f : Session → Action α) (s : Session) :
    (get >>= f : Action α).attempt.run s = (f s).attempt.run s :=
  rfl

/-- A sequence of actions goes on from the result of the first. -/
theorem Action.run_bind_ok {α β : Type} {a : Action α} {f : α → Action β} {s t : Session} {x : α}
    (h : a.attempt.run s = (.ok x, t)) : (a >>= f).attempt.run s = (f x).attempt.run t := by
  change ExceptT.bindCont f (a.attempt.run s).1 (a.attempt.run s).2 = _
  rw [h]
  rfl

/-- A sequence of actions ends where the first fails. -/
theorem Action.run_bind_error {α β : Type} {a : Action α} {f : α → Action β} {s t : Session}
    {e : Fault} (h : a.attempt.run s = (.error e, t)) :
    (a >>= f).attempt.run s = (.error e, t) := by
  change ExceptT.bindCont f (a.attempt.run s).1 (a.attempt.run s).2 = _
  rw [h]
  rfl

/-- Two actions that do the same do so whatever comes after them. -/
theorem Action.run_bind_congr {α β : Type} {a b : Action α} {f : α → Action β} {s t : Session}
    (h : a.attempt.run s = b.attempt.run t) :
    (a >>= f).attempt.run s = (b >>= f).attempt.run t := by
  change ExceptT.bindCont f (a.attempt.run s).1 (a.attempt.run s).2 =
    ExceptT.bindCont f (b.attempt.run t).1 (b.attempt.run t).2
  rw [h]

/-- What the next node of a cursor comes to as an action. -/
theorem Engine.pull_run (E : Engine) (c : Cursor) (s : Session) :
    (E.pull c).attempt.run s = (((E.next c).run s).1.outcome.map (·, ((E.next c).run s).1.rest),
      ((E.next c).run s).2) := by
  have hnext : (liftM (E.next c) : Action (Pull (Option Node))).attempt.run s =
      (.ok ((E.next c).run s).1, ((E.next c).run s).2) := rfl
  rw [Engine.pull, Action.run_bind_ok hnext]
  cases ((E.next c).run s).1.outcome <;> rfl

/-- Whenever one action succeeds, the other one does as well, with the same result and the same
changes. -/
def Action.Within {α : Type} (a b : Action α) : Prop :=
  ∀ s x t, a.attempt.run s = (.ok x, t) → b.attempt.run s = (.ok x, t)

namespace Action.Within

variable {α β : Type} {a b : Action α}

theorem refl (a : Action α) : a.Within a := fun _ _ _ h => h

theorem of_eq (h : a = b) : a.Within b := h ▸ refl a

theorem fail {f : Fault} : (Action.fail f : Action α).Within b := fun _ _ _ h => by cases h

/-- What follows an action only matters for the results that it can have. -/
theorem bind_of {f g : α → Action β} {P : α → Prop} (h : Returns a P)
    (hf : ∀ x, P x → (f x).Within (g x)) : (a >>= f).Within (a >>= g) := by
  intro s y t hr
  obtain ⟨x, u, ha, hx⟩ := bind_ok.mp hr
  exact bind_ok.mpr ⟨x, u, ha, hf x (h s x (congrArg Prod.fst ha)) u y t hx⟩

theorem bind {f g : α → Action β} (hf : ∀ x, (f x).Within (g x)) : (a >>= f).Within (a >>= g) :=
  bind_of (P := fun _ => True) (fun _ _ _ => trivial) fun x _ => hf x

end Action.Within

end PathLanguage
