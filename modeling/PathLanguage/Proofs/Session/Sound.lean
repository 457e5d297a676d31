/- Sound sessions: all they remember are honest nodes of the documents and expressions made of such,
and what they remember stays. A computation that is started in one ensures that it ends in one,
whatever its outcome, and that its result fits. -/
import PathLanguage.Proofs.Expr.Leaves
import PathLanguage.Proofs.NodeSet.DocumentOrder

namespace PathLanguage

/-- What a run is about: what the host supplies, the documents, and the declared globals. -/
structure Setting where
  transformation : Transformation
  forest : Forest
  globals : ExpandedName → Option Expr

/-- The definition that a session registered for a lazy node-set. -/
def Session.definition? (s : Session) (id : Nat) : Option Expr := s.intents[id]?.map (·.definition)

/-- A host-supplied extent is honest; a lazy node-set is registered under its definition. -/
def Leaf.Fits (F : Forest) (s : Session) : Leaf → Prop
  | .node n => F.Holds n
  | .extent e => e.Honest ∧ F.HoldsAll e.nodes
  | .lazy id definition => s.definition? id = some definition
  | .call _ | .host _ | .variable _ => True

def Fits (F : Forest) (s : Session) (ls : List Leaf) : Prop := ∀ l ∈ ls, l.Fits F s

def Expr.Fits (F : Forest) (s : Session) (e : Expr) : Prop := PathLanguage.Fits F s e.leaves

def Value.Fits (F : Forest) (s : Session) (v : Value) : Prop := PathLanguage.Fits F s v.leaves

def NodeSet.Fits (F : Forest) (s : Session) (ns : NodeSet) : Prop := PathLanguage.Fits F s ns.leaves

structure Context.Fits (F : Forest) (s : Session) (c : Context) : Prop where
  node : ∀ n ∈ c.node?, F.Holds n
  current : ∀ n ∈ c.current?, F.Holds n
  locals : ∀ p ∈ c.locals, p.2.Fits F s

structure Extent.Fits (F : Forest) (e : Extent) : Prop where
  honest : e.Honest
  holds : F.HoldsAll e.nodes

structure IntentState.Sound (F : Forest) (s : Session) (i : IntentState) : Prop where
  definition : i.definition.Fits F s
  closed : i.definition.dependencies = ∅
  extent : ∀ e ∈ i.extent, e.Fits F

structure Setting.Sound (S : Setting) (s : Session) : Prop where
  pending : ∀ name d, s.slot? name = some (.pending d) →
    S.globals name = some d ∧ d.Fits S.forest s
  evaluated : ∀ name v, s.slot? name = some (.evaluated v) → v.Fits S.forest s
  intents : ∀ (id : Nat) i, s.intents[id]? = some i → i.Sound S.forest s
  indexes : ∀ i ∈ s.indexes, ∀ p ∈ i.entries, S.forest.HoldsAll p.2
  documents : ∀ p ∈ s.documents, S.forest.Holds p.2
  keys : ∀ d ∈ S.transformation.keys, Fits S.forest s d.leaves

namespace Session

/-- What one session remembers, the other remembers too. -/
structure Keeps (s t : Session) : Prop where
  definitions : ∀ id d, s.definition? id = some d → t.definition? id = some d
  evaluated : ∀ name v, s.slot? name = some (.evaluated v) → t.slot? name = some (.evaluated v)
  kept : ∀ id e, (s.intent id).extent = some e → (t.intent id).extent = some e
  indexes : ∀ name root i, s.index? name root = some i → t.index? name root = some i
  documents : ∀ uri root, s.documents.lookup uri = some root → t.documents.lookup uri = some root

/-- A completed computation leads from one session to the other: globals under computation still
are. -/
structure LeadsTo (s t : Session) : Prop extends s.Keeps t where
  evaluating : ∀ name, s.slot? name = some .evaluating → t.slot? name = some .evaluating

theorem Keeps.refl (s : Session) : s.Keeps s :=
  ⟨fun _ _ h => h, fun _ _ h => h, fun _ _ h => h, fun _ _ _ h => h, fun _ _ h => h⟩

theorem Keeps.trans {s t u : Session} (h : s.Keeps t) (h' : t.Keeps u) : s.Keeps u where
  definitions id d hd := h'.definitions id d (h.definitions id d hd)
  evaluated name v hv := h'.evaluated name v (h.evaluated name v hv)
  kept id e he := h'.kept id e (h.kept id e he)
  indexes name root i hi := h'.indexes name root i (h.indexes name root i hi)
  documents uri root hr := h'.documents uri root (h.documents uri root hr)

theorem LeadsTo.refl (s : Session) : s.LeadsTo s := ⟨.refl s, fun _ h => h⟩

theorem LeadsTo.trans {s t u : Session} (h : s.LeadsTo t) (h' : t.LeadsTo u) : s.LeadsTo u :=
  ⟨h.toKeeps.trans h'.toKeeps, fun name hn => h'.evaluating name (h.evaluating name hn)⟩

end Session

theorem Leaf.Fits.mono {F : Forest} {s t : Session} {l : Leaf} (h : l.Fits F s) (hk : s.Keeps t) :
    l.Fits F t := by
  cases l with
  | lazy id d => exact hk.definitions id d h
  | node n => exact h
  | extent e => exact h
  | call f => trivial
  | host name => trivial
  | «variable» b => trivial

section mono

variable {F : Forest} {s t : Session}

theorem Fits.mono {ls : List Leaf} (h : Fits F s ls) (hk : s.Keeps t) : Fits F t ls :=
  fun l hl => (h l hl).mono hk

theorem Expr.Fits.mono {e : Expr} (h : e.Fits F s) (hk : s.Keeps t) : e.Fits F t :=
  PathLanguage.Fits.mono h hk

theorem Value.Fits.mono {v : Value} (h : v.Fits F s) (hk : s.Keeps t) : v.Fits F t :=
  PathLanguage.Fits.mono h hk

theorem NodeSet.Fits.mono {ns : NodeSet} (h : ns.Fits F s) (hk : s.Keeps t) : ns.Fits F t :=
  PathLanguage.Fits.mono h hk

theorem Context.Fits.mono {c : Context} (h : c.Fits F s) (hk : s.Keeps t) : c.Fits F t :=
  ⟨h.node, h.current, fun p hp => (h.locals p hp).mono hk⟩

theorem IntentState.Sound.mono {i : IntentState} (h : i.Sound F s) (hk : s.Keeps t) :
    i.Sound F t :=
  ⟨h.definition.mono hk, h.closed, h.extent⟩

end mono

section fits

variable {F : Forest} {s : Session}

@[simp] theorem fits_nil : Fits F s [] := by simp [Fits]

@[simp] theorem fits_cons {l : Leaf} {ls : List Leaf} :
    Fits F s (l :: ls) ↔ l.Fits F s ∧ Fits F s ls := by simp [Fits]

@[simp] theorem fits_append {ls ms : List Leaf} :
    Fits F s (ls ++ ms) ↔ Fits F s ls ∧ Fits F s ms := List.forall_mem_append

theorem fits_leavesOfAll {es : List Expr} :
    Fits F s (leavesOfAll es) ↔ ∀ e ∈ es, e.Fits F s := by
  induction es with
  | nil => simp [leavesOfAll]
  | cons e es ih => simp [leavesOfAll, ih, Expr.Fits]

theorem fits_nodes {ns : List Node} : Fits F s (ns.map .node) ↔ F.HoldsAll ns := by
  simp [Fits, Forest.HoldsAll, Leaf.Fits]

theorem Context.Fits.withFocus {c : Context} (h : c.Fits F s) {n : Node} (hn : F.Holds n)
    (position last : Nat) : (c.withFocus n position last).Fits F s :=
  ⟨by simpa [Context.withFocus] using hn, h.current, h.locals⟩

theorem Context.Fits.withNode {c : Context} (h : c.Fits F s) {n : Node} (hn : F.Holds n) :
    (c.withNode n).Fits F s := h.withFocus hn 1 1

theorem Context.Fits.withCurrent {c : Context} (h : c.Fits F s) {n : Node} (hn : F.Holds n) :
    (c.withCurrent n).Fits F s :=
  ⟨h.node, by simpa [Context.withCurrent] using hn, h.locals⟩

theorem Context.Fits.ambient {c : Context} (h : c.Fits F s) : c.ambient.Fits F s :=
  ⟨by simp [Context.ambient], h.current, h.locals⟩

theorem NodeSet.fits_extent {e : Extent} : (NodeSet.extent e).Fits F s ↔ e.Fits F := by
  simp only [NodeSet.Fits, NodeSet.leaves, fits_cons, Leaf.Fits, fits_nil, and_true]
  exact ⟨fun h => ⟨h.1, h.2⟩, fun h => ⟨h.honest, h.holds⟩⟩

theorem NodeSet.fits_intent {id : Nat} {d : Expr} :
    (NodeSet.intent id d).Fits F s ↔ s.definition? id = some d ∧ d.Fits F s := by
  simp [NodeSet.Fits, NodeSet.leaves, Leaf.Fits, Expr.Fits]

theorem NodeSet.fits_ofOption {n : Option Node} :
    (NodeSet.ofOption n).Fits F s ↔ ∀ m ∈ n, F.Holds m := by
  cases n <;> simp [NodeSet.Fits, NodeSet.ofOption, NodeSet.leaves, Leaf.Fits]

theorem NodeSet.fits_ofNodes {ns : List Node} {sorted : Bool} (hn : F.HoldsAll ns)
    (hs : sorted = true → Node.Ascending ns) : (NodeSet.ofNodes ns sorted).Fits F s := by
  unfold NodeSet.ofNodes
  split
  · simp [NodeSet.Fits, NodeSet.leaves]
  · exact NodeSet.fits_extent.mpr ⟨Extent.ofNodes_honest hs, hn⟩

@[simp] theorem Value.fits_nodeSet {ns : NodeSet} : (Value.nodeSet ns).Fits F s ↔ ns.Fits F s :=
  Iff.rfl

end fits

variable {S : Setting} {s : Session} {α β : Type}

/-- From a sound session a computation leads to a sound one, with a property of its result. -/
def Setting.Steps (S : Setting) (s : Session) (m : StateM Session α) (Q : α → Session → Prop) :
    Prop :=
  S.Sound s → S.Sound (m.run s).2 ∧ s.LeadsTo (m.run s).2 ∧ Q (m.run s).1 (m.run s).2

/-- The same of an action, with a property of its result if it succeeds. -/
def Setting.Ensures (S : Setting) (s : Session) (a : Action α) (Q : α → Session → Prop) : Prop :=
  S.Steps s a.attempt fun r t => ∀ x, r = .ok x → Q x t

namespace Setting.Steps

theorem pure {Q : α → Session → Prop} {x : α} (h : Q x s) : S.Steps s (pure x) Q :=
  fun hs => ⟨hs, .refl s, h⟩

theorem bind {m : StateM Session α} {f : α → StateM Session β} {P : α → Session → Prop}
    {Q : β → Session → Prop} (h : S.Steps s m P)
    (hf : ∀ x t, S.Sound t → s.LeadsTo t → P x t → S.Steps t (f x) Q) :
    S.Steps s (m >>= f) Q := by
  intro hs
  obtain ⟨ht, hst, hm⟩ := h hs
  obtain ⟨hu, htu, hp⟩ := hf _ _ ht hst hm ht
  exact ⟨hu, hst.trans htu, hp⟩

theorem imp {m : StateM Session α} {P Q : α → Session → Prop} (h : S.Steps s m P)
    (hi : ∀ x t, S.Sound t → s.LeadsTo t → P x t → Q x t) : S.Steps s m Q := by
  intro hs
  obtain ⟨ht, hst, hm⟩ := h hs
  exact ⟨ht, hst, hi _ _ ht hst hm⟩

theorem and {m : StateM Session α} {p q : α → Session → Prop} (h : S.Steps s m p)
    (h' : S.Steps s m q) : S.Steps s m fun x t => p x t ∧ q x t := by
  intro hs
  obtain ⟨ht, hst, hp⟩ := h hs
  exact ⟨ht, hst, hp, (h' hs).2.2⟩

/-- What is known of the session a computation starts in may be used. -/
theorem assume {m : StateM Session α} {Q : α → Session → Prop}
    (h : S.Sound s → S.Steps s m Q) : S.Steps s m Q :=
  fun hs => h hs hs

end Setting.Steps

namespace Setting.Ensures

theorem pure {Q : α → Session → Prop} {x : α} (h : Q x s) : S.Ensures s (pure x) Q :=
  fun hs => ⟨hs, .refl s, fun y hy => by cases hy; exact h⟩

theorem throw {Q : α → Session → Prop} {f : Fault} : S.Ensures s (throw f) Q :=
  fun hs => ⟨hs, .refl s, fun y hy => by cases hy⟩

theorem fail {Q : α → Session → Prop} {f : Fault} : S.Ensures s (.fail f) Q := throw

theorem ofExcept {Q : α → Session → Prop} {r : Except Fault α}
    (h : ∀ x, r = .ok x → Q x s) : S.Ensures s (.ofExcept r) Q := by
  cases r with
  | error f => exact throw
  | ok x => exact pure (h x rfl)

theorem bind {a : Action α} {f : α → Action β} {P : α → Session → Prop}
    {Q : β → Session → Prop} (h : S.Ensures s a P)
    (hf : ∀ x t, S.Sound t → s.LeadsTo t → P x t → S.Ensures t (f x) Q) :
    S.Ensures s (a >>= f) Q := by
  change S.Steps s (a.attempt >>= ExceptT.bindCont f) _
  refine Steps.bind h ?_
  intro r t ht hst hr
  cases r with
  | error e => exact throw
  | ok x => exact hf x t ht hst (hr x rfl)

theorem imp {a : Action α} {P Q : α → Session → Prop} (h : S.Ensures s a P)
    (hi : ∀ x t, S.Sound t → s.LeadsTo t → P x t → Q x t) : S.Ensures s a Q :=
  Steps.imp h fun _ t ht hst hr x hx => hi x t ht hst (hr x hx)

theorem and {a : Action α} {p q : α → Session → Prop} (h : S.Ensures s a p)
    (h' : S.Ensures s a q) : S.Ensures s a fun x t => p x t ∧ q x t := by
  intro hs
  obtain ⟨ht, hst, hp⟩ := h hs
  exact ⟨ht, hst, fun x hx => ⟨hp x hx, (h' hs).2.2 x hx⟩⟩

/-- Nothing is claimed of the result. -/
theorem trivial {a : Action α} {Q : α → Session → Prop} (h : S.Ensures s a Q) :
    S.Ensures s a fun _ _ => True :=
  h.imp fun _ _ _ _ _ => True.intro

/-- Goes on with a function of the result. -/
theorem map {a : Action α} {f : α → β} {P : α → Session → Prop} {Q : β → Session → Prop}
    (h : S.Ensures s a P) (hf : ∀ x t, P x t → Q (f x) t) :
    S.Ensures s (do return f (← a)) Q :=
  h.bind fun x t _ _ hx => pure (hf x t hx)

theorem assume {a : Action α} {Q : α → Session → Prop}
    (h : S.Sound s → S.Ensures s a Q) : S.Ensures s a Q :=
  Steps.assume h

/-- Reads the session. -/
theorem get {f : Session → Action β} {Q : β → Session → Prop} (h : S.Ensures s (f s) Q) :
    S.Ensures s (do f (← MonadState.get)) Q :=
  h

/-- Changes the session in a way that keeps it sound. -/
theorem update {f : Session → α × Session} {Q : α → Session → Prop}
    (h : S.Sound s → S.Sound (f s).2 ∧ s.LeadsTo (f s).2 ∧ Q (f s).1 (f s).2) :
    S.Ensures s (.update f) Q := by
  intro hs
  obtain ⟨ht, hst, hp⟩ := h hs
  exact ⟨ht, hst, fun y hy => by cases hy; exact hp⟩

theorem modify {f : Session → Session} {Q : Unit → Session → Prop}
    (h : S.Sound s → S.Sound (f s) ∧ s.LeadsTo (f s) ∧ Q () (f s)) :
    S.Ensures s (modify f) Q := by
  intro hs
  obtain ⟨ht, hst, hp⟩ := h hs
  exact ⟨ht, hst, fun y hy => by cases hy; exact hp⟩

/-- A computation that cannot fail, as part of an action. -/
theorem lift {m : StateM Session α} {Q : α → Session → Prop} (h : S.Steps s m Q) :
    S.Ensures s (liftM m : Action α) Q := by
  intro hs
  obtain ⟨ht, hst, hp⟩ := h hs
  exact ⟨ht, hst, fun y hy => by cases hy; exact hp⟩

/-- An action whose outcome is looked at. -/
theorem outcome {a : Action α} {Q : α → Session → Prop} (h : S.Ensures s a Q) :
    S.Ensures s a.outcome fun r t => ∀ x, r = .ok x → Q x t :=
  lift h

theorem ite {p : Prop} [Decidable p] {a b : Action α} {Q : α → Session → Prop}
    (ha : p → S.Ensures s a Q) (hb : ¬p → S.Ensures s b Q) :
    S.Ensures s (if p then a else b) Q := by
  split
  · exact ha ‹_›
  · exact hb ‹_›

theorem ok {a : Action α} {Q : α → Session → Prop} (h : S.Ensures s a Q) (hs : S.Sound s)
    {x : α} {t : Session} (hr : a.attempt.run s = (.ok x, t)) :
    S.Sound t ∧ s.LeadsTo t ∧ Q x t := by
  obtain ⟨ht, hst, hp⟩ := h hs
  rw [hr] at ht hst hp
  exact ⟨ht, hst, hp x rfl⟩

end Setting.Ensures

end PathLanguage
