/- Computations that echo one another: begun in sessions to which the same has happened since their
pasts, they come to the same results and do the same to the sessions, unless the first of them is
given up for the depth of its evaluations. -/
import Mathlib.Data.List.Forall2
import PathLanguage.Proofs.Agreement.InStep
import PathLanguage.Proofs.Echo.Basic

namespace PathLanguage

variable {α β γ δ : Type}

/-- All documents that a session remembers are what the resolver answers with. -/
def Session.Faithful (T : Transformation) (s : Session) : Prop :=
  ∀ uri root, s.documents.lookup uri = some root →
    ∃ resolver, T.resolver = some resolver ∧ resolver uri = .ok (some root)

structure IntentState.Echo (h : Pasts) (i i' : IntentState) : Prop where
  definition : i.definition.Echo h i'.definition
  uses : i.uses = i'.uses
  extent : i.extent = i'.extent

/-- What has happened to a session since an earlier one: documents were loaded and lazy node-sets
made, but those of the past were left as they were, no variable was computed and no key indexed. -/
structure Session.Since (T : Transformation) (loads : Bool) (s past : Session) : Prop where
  globals : s.globals = past.globals
  indexes : s.indexes = past.indexes
  intents : past.intents <+: s.intents
  documents : loads = true → s.Faithful T

/-- Two sessions to which the same has happened since their pasts: as many lazy node-sets were made,
and used alike. -/
structure Session.Echo (T : Transformation) (h : Pasts) (s s' : Session) : Prop where
  left : s.Since T h.loads h.left
  right : s'.Since T h.loads h.right
  made : ∃ made made', s.intents = h.left.intents ++ made ∧
    s'.intents = h.right.intents ++ made' ∧ List.Forall₂ (IntentState.Echo h) made made'

/-- Nothing has happened yet. -/
theorem Session.Since.start {T : Transformation} {loads : Bool} {s : Session}
    (hd : loads = true → s.Faithful T) : s.Since T loads s :=
  ⟨rfl, rfl, List.prefix_rfl, hd⟩

theorem Session.Since.trans {T : Transformation} {loads : Bool} {past s t : Session}
    (hs : s.Since T loads past) (ht : t.Since T loads s) : t.Since T loads past :=
  ⟨ht.globals.trans hs.globals, ht.indexes.trans hs.indexes, hs.intents.trans ht.intents,
    ht.documents⟩

namespace Session.Echo

variable {T : Transformation} {h : Pasts} {s s' : Session}

theorem start (hl : h.loads = true → h.left.Faithful T)
    (hr : h.loads = true → h.right.Faithful T) : Session.Echo T h h.left h.right :=
  ⟨.start hl, .start hr,
    ⟨[], [], (List.append_nil _).symm, (List.append_nil _).symm, .nil⟩⟩

/-- Changes to lazy node-sets that were made since. -/
theorem change (hs : s.Echo T h s') {made made' : List IntentState}
    (hmade : List.Forall₂ (IntentState.Echo h) made made') :
    Session.Echo T h { s with intents := h.left.intents ++ made }
      { s' with intents := h.right.intents ++ made' } where
  left := ⟨hs.left.globals, hs.left.indexes, List.prefix_append _ _, hs.left.documents⟩
  right := ⟨hs.right.globals, hs.right.indexes, List.prefix_append _ _, hs.right.documents⟩
  made := ⟨made, made', rfl, rfl, hmade⟩

theorem intent (hs : s.Echo T h s') (k : Nat) :
    (s.intent (h.left.intents.length + k)).Echo h (s'.intent (h.right.intents.length + k)) := by
  obtain ⟨made, made', hm, hm', hmade⟩ := hs.made
  have hi := rel_getElem? hmade k
  rw [Session.intent, Session.intent, hm, hm', List.getElem?_append_right (Nat.le_add_right _ _),
    List.getElem?_append_right (Nat.le_add_right _ _), Nat.add_sub_cancel_left,
    Nat.add_sub_cancel_left]
  generalize made[k]? = i, made'[k]? = i' at hi ⊢
  cases hi with
  | none => exact ⟨.value (.nodeSet .empty), rfl, rfl⟩
  | some hi => exact hi

theorem setIntent (hs : s.Echo T h s') (k : Nat) {i i' : IntentState} (hi : i.Echo h i') :
    (s.setIntent (h.left.intents.length + k) i).Echo T h
      (s'.setIntent (h.right.intents.length + k) i') := by
  obtain ⟨made, made', hm, hm', hmade⟩ := hs.made
  rw [Session.setIntent, Session.setIntent, hm, hm',
    List.set_append_right _ _ (Nat.le_add_right _ _),
    List.set_append_right _ _ (Nat.le_add_right _ _), Nat.add_sub_cancel_left,
    Nat.add_sub_cancel_left]
  exact hs.change (forall₂_set hmade k hi)

/-- A lazy node-set is made of both definitions. -/
theorem newIntent (hs : s.Echo T h s') {e e' : Expr} (he : e.Echo h e') :
    (NodeSet.intent (s.newIntent e).1 e).Echo h (.intent (s'.newIntent e').1 e') ∧
      (s.newIntent e).2.Echo T h (s'.newIntent e').2 := by
  obtain ⟨made, made', hm, hm', hmade⟩ := hs.made
  simp only [Session.newIntent, hm, hm', List.length_append, ← hmade.length_eq, List.append_assoc]
  exact ⟨.intent _ he, hs.change (List.rel_append hmade (.cons ⟨he, rfl, rfl⟩ .nil))⟩

end Session.Echo

/-- Two computations that echo one another, with what it means that the first one is given up, and a
relation of their results. -/
def Echoes (T : Transformation) (h : Pasts) (GivenUp : α → Prop) (R : α → β → Prop)
    (m : StateM Session α) (m' : StateM Session β) : Prop :=
  ∀ s s', s.Echo T h s' →
    (GivenUp (m.run s).1 ∧ (m.run s).2.Since T h.loads h.left) ∨
    (R (m.run s).1 (m'.run s').1 ∧ (m.run s).2.Echo T h (m'.run s').2)

/-- A computation that is given up at once. -/
def Quits (GivenUp : α → Prop) (m : StateM Session α) : Prop :=
  ∀ s, GivenUp (m.run s).1 ∧ (m.run s).2 = s

/-- An action is given up if evaluations would have to be followed deeper. -/
def Except.GivenUp (r : Except Fault α) : Prop := r = .error .tooDeep

def Pull.GivenUp (p : Pull α) : Prop := Except.GivenUp p.outcome

/-- Actions that echo one another: both have results that stand in a relation, or the same fault. -/
def Action.Echoes (T : Transformation) (h : Pasts) (R : α → β → Prop) (a : Action α)
    (b : Action β) : Prop :=
  PathLanguage.Echoes T h Except.GivenUp (Outcomes R) a.attempt b.attempt

namespace Echoes

variable {T : Transformation} {h : Pasts} {R : α → β → Prop} {Q : γ → δ → Prop}
  {GivenUp : α → Prop} {LaterGivenUp : γ → Prop}

theorem pure {x : α} {y : β} (hr : R x y) : Echoes T h GivenUp R (pure x) (pure y) :=
  fun _ _ hs => .inr ⟨hr, hs⟩

theorem bind {m : StateM Session α} {m' : StateM Session β} {f : α → StateM Session γ}
    {f' : β → StateM Session δ} (hm : Echoes T h GivenUp R m m')
    (hg : ∀ x, GivenUp x → Quits LaterGivenUp (f x))
    (hf : ∀ x y, R x y → Echoes T h LaterGivenUp Q (f x) (f' y)) :
    Echoes T h LaterGivenUp Q (m >>= f) (m' >>= f') := by
  intro s s' hs
  rcases hm s s' hs with ⟨hx, ht⟩ | ⟨hr, ht⟩
  · obtain ⟨hy, hu⟩ := hg _ hx (m.run s).2
    exact .inl ⟨hy, hu.symm ▸ ht⟩
  · exact hf _ _ hr _ _ ht

/-- A computation that follows the outcome of an action gives up if the action does. -/
theorem attempt {a : Action α} {b : Action β} {f : Except Fault α → StateM Session γ}
    {f' : Except Fault β → StateM Session δ} (ha : Action.Echoes T h R a b)
    (hg : Quits LaterGivenUp (f (.error .tooDeep)))
    (hf : ∀ r r', Outcomes R r r' → Echoes T h LaterGivenUp Q (f r) (f' r')) :
    Echoes T h LaterGivenUp Q (a.attempt >>= f) (b.attempt >>= f') := by
  refine bind ha (fun r hr => ?_) hf
  obtain rfl : r = .error .tooDeep := hr
  exact hg

end Echoes

namespace Action.Echoes

variable {T : Transformation} {h : Pasts} {R : α → β → Prop} {Q : γ → δ → Prop}

theorem pure {x : α} {y : β} (hr : R x y) : Action.Echoes T h R (pure x) (pure y) :=
  PathLanguage.Echoes.pure (.ok hr)

theorem throw (f : Fault) : Action.Echoes T h R (throw f) (throw f) :=
  PathLanguage.Echoes.pure (.error f)

theorem fail (f : Fault) : Action.Echoes T h R (.fail f) (.fail f) := throw f

/-- The first of the actions is given up. -/
theorem tooDeep {b : Action β} : Action.Echoes T h R (.fail .tooDeep) b :=
  fun _ _ hs => .inl ⟨rfl, hs.left⟩

theorem ofExcept (r : Except Fault α) : Action.Echoes T h Eq (.ofExcept r) (.ofExcept r) := by
  cases r with
  | error f => exact throw f
  | ok x => exact pure rfl

theorem bind {a : Action α} {b : Action β} {f : α → Action γ} {g : β → Action δ}
    (ha : Action.Echoes T h R a b) (hf : ∀ x y, R x y → Action.Echoes T h Q (f x) (g y)) :
    Action.Echoes T h Q (a >>= f) (b >>= g) := by
  change PathLanguage.Echoes T h Except.GivenUp (Outcomes Q) (a.attempt >>= ExceptT.bindCont f)
    (b.attempt >>= ExceptT.bindCont g)
  refine PathLanguage.Echoes.attempt ha (fun _ => ⟨rfl, rfl⟩) fun r r' hr => ?_
  cases hr with
  | error e => exact throw e
  | ok hr => exact hf _ _ hr

/-- Goes on from the same result. -/
theorem bind_eq {a b : Action α} {f : α → Action γ} {g : α → Action δ}
    (ha : Action.Echoes T h Eq a b) (hf : ∀ x, Action.Echoes T h Q (f x) (g x)) :
    Action.Echoes T h Q (a >>= f) (b >>= g) :=
  ha.bind fun x _ he => he ▸ hf x

theorem map {a : Action α} {b : Action β} {f : α → γ} {g : β → δ} (ha : Action.Echoes T h R a b)
    (hf : ∀ x y, R x y → Q (f x) (g y)) :
    Action.Echoes T h Q (do return f (← a)) (do return g (← b)) :=
  ha.bind fun x y hr => pure (hf x y hr)

theorem map_eq {a b : Action α} {f : α → γ} (ha : Action.Echoes T h Eq a b) :
    Action.Echoes T h Eq (do return f (← a)) (do return f (← b)) :=
  ha.map fun _ _ he => congrArg f he

theorem ite {p : Prop} [Decidable p] {a a' : Action α} {b b' : Action β}
    (hp : p → Action.Echoes T h R a b) (hn : ¬p → Action.Echoes T h R a' b') :
    Action.Echoes T h R (if p then a else a') (if p then b else b') := by
  split
  · exact hp ‹_›
  · exact hn ‹_›

theorem get : Action.Echoes T h (Session.Echo T h) get get := fun _ _ hs => .inr ⟨.ok hs, hs⟩

theorem update {f : Session → α × Session} {g : Session → β × Session}
    (hf : ∀ s s', s.Echo T h s' → R (f s).1 (g s').1 ∧ (f s).2.Echo T h (g s').2) :
    Action.Echoes T h R (.update f) (.update g) := by
  intro s s' hs
  obtain ⟨hr, ht⟩ := hf s s' hs
  exact .inr ⟨.ok hr, ht⟩

theorem modify {f g : Session → Session} (hf : ∀ s s', s.Echo T h s' → (f s).Echo T h (g s')) :
    Action.Echoes T h Eq (modify f) (modify g) :=
  fun s s' hs => .inr ⟨.ok rfl, hf s s' hs⟩

theorem imp {R' : α → β → Prop} {a : Action α} {b : Action β} (ha : Action.Echoes T h R a b)
    (hi : ∀ x y, R x y → R' x y) : Action.Echoes T h R' a b := by
  intro s s' hs
  rcases ha s s' hs with hx | ⟨hr, ht⟩
  · exact .inl hx
  · exact .inr ⟨hr.imp hi, ht⟩

/-- Where the outcome of an action is looked at, one that is given up must not be passed over. -/
theorem outcome_bind {a : Action α} {b : Action β} {f : Except Fault α → Action γ}
    {g : Except Fault β → Action δ} (ha : Action.Echoes T h R a b)
    (hg : f (.error .tooDeep) = .fail .tooDeep)
    (hf : ∀ r r', Outcomes R r r' → Action.Echoes T h Q (f r) (g r')) :
    Action.Echoes T h Q (a.outcome >>= f) (b.outcome >>= g) := by
  refine PathLanguage.Echoes.attempt ha ?_ hf
  rw [hg]
  exact fun _ => ⟨rfl, rfl⟩

end Action.Echoes

end PathLanguage
