/- Reading a cursor for one purpose finds a function of the list that the cursor yields. So runs keep of
definite lazy node-sets only the nodes that these stand for: what stands alone leaves the lazy
node-sets of its past as they are, and only their own use changes them. -/
import PathLanguage.Proofs.Selection.Definite
import PathLanguage.Proofs.Selection.Sessionless

namespace PathLanguage

open Setting (Ensures)

variable {S : Setting} {s₀ s : Session} {E : Engine} {c : Cursor} {n : Nat}

/-- A way of reading cursors that computes a function of what they yield, with no regard to how lazy
node-sets are numbered. -/
structure Setting.Consumes (S : Setting) (s₀ : Session) {α : Type} (consume : Cursor → Action α)
    (f : List Node → α) : Prop where
  reads : ∀ {s c}, s₀.LeadsTo s → c.Sound S s → c.Counted →
    S.Ensures s (consume c) fun x _ =>
      ∃ ns, c.Yields (.sessionless S.transformation) ns ∧ x = f ns
  echoes : ∀ {h : Pasts} {k k' : Cursor}, k.Echo h k' →
    Action.Echoes S.transformation h Eq (consume k) (consume k')

namespace Setting

theorem exists_yields (S : Setting) (c : Cursor) :
    ∃ ns, c.Yields (.sessionless S.transformation) ns :=
  Cursor.exists_yields (Oracle.sessionless_lawful _).toTotal c

theorem consumes_drain (hS : S.Safe) (s₀ : Session) (n : Nat) :
    S.Consumes s₀ (engine S.transformation n).drain id where
  reads h0 hs hc := ((sessionless_selects hS _ n).1.drain h0 hs hc).imp
    fun ns t _ _ h => ⟨ns, h t (.refl t), rfl⟩
  echoes hk := (engine_echoes _ _ n.le_refl).drain hk

/-- The next node is the first of those that are still to come. -/
theorem pull_yields (hS : S.Safe) (h0 : s₀.LeadsTo s) (hs : c.Sound S s) (hc : c.Counted)
    (n : Nat) :
    S.Ensures s ((engine S.transformation n).pull c) fun r t => r.2.Sound S t ∧ r.2.Counted ∧
      (r.1 = none → c.Yields (.sessionless S.transformation) []) ∧
      ∀ m ∈ r.1, ∀ ns, r.2.Yields (.sessionless S.transformation) ns →
        c.Yields (.sessionless S.transformation) (m :: ns) :=
  (Cursor.pull_true (sessionless_selects hS s₀ n).1 (engine_safe hS n) h0 hs hc).imp
    fun _ t _ _ ⟨hr, hcount, hy⟩ => ⟨hr, hcount.counted, (hy t (.refl t)).done,
      fun m hm ns => (hy t (.refl t)).more m ns hm⟩

theorem consumes_head (hS : S.Safe) (s₀ : Session) (n : Nat) :
    S.Consumes s₀ (engine S.transformation n).head List.head? where
  reads h0 hs hc := (pull_yields hS h0 hs hc n).map fun ⟨o, r⟩ t ⟨_, _, hnone, hsome⟩ => by
    cases o with
    | none => exact ⟨[], hnone rfl, rfl⟩
    | some m =>
      obtain ⟨ns, hns⟩ := S.exists_yields r
      exact ⟨m :: ns, hsome m rfl ns hns, rfl⟩
  echoes hk := (engine_echoes _ _ n.le_refl).head hk

theorem consumes_find (hS : S.Safe) (s₀ : Session) (test : Node → Bool) (n : Nat) :
    S.Consumes s₀ ((engine S.transformation n).find test) (·.any test) where
  reads {s c} h0 hs hc := by
    induction n generalizing s c with
    | zero => exact .fail
    | succ n ih =>
      change S.Ensures s (c.find (engine S.transformation n) test) _
      refine (pull_yields hS h0 hs hc n).bind fun ⟨o, r⟩ t _ hst ⟨hr, hcount, hnone, hsome⟩ => ?_
      cases o with
      | none => exact .pure ⟨[], hnone rfl, rfl⟩
      | some m =>
        refine .ite (fun hm => .pure ?_) fun hm => ?_
        · obtain ⟨ns, hns⟩ := S.exists_yields r
          exact ⟨m :: ns, hsome m rfl ns hns, by simp [hm]⟩
        · refine (ih (h0.trans hst) hr hcount).imp fun x _ _ _ => ?_
          rintro ⟨ns, hns, rfl⟩
          exact ⟨m :: ns, hsome m rfl ns hns, by simp [hm]⟩
  echoes hk := (engine_echoes _ _ n.le_refl).find test hk

end Setting

end PathLanguage

namespace PathLanguage

open Node (docOrder InOrder)

/-- A node-set that stands for the same nodes in every session. -/
def NodeSet.Definite : NodeSet → Prop
  | .intent _ definition => definition.Definite
  | _ => True

/-- The nodes, in document order and each once, that a node-set stands for by its plain meaning:
those at hand, or those that its definition selects. -/
inductive NodeSet.StandsFor (T : Transformation) : NodeSet → List Node → Prop
  | atHand {ns : NodeSet} : ns.AtHand → StandsFor T ns ns.atHand
  | lazy {id : Nat} {definition : Expr} {nodes : List Node} :
      (Oracle.sessionless T).Selects T.globalContext definition T.globalContext nodes →
      StandsFor T (.intent id definition) nodes

/-- A choice of the nodes that node-sets stand for. -/
def NodeSet.Denotes (T : Transformation) (members : NodeSet → List Node) : Prop :=
  ∀ ns nodes, ns.Definite → ns.StandsFor T nodes → members ns = nodes

theorem NodeSet.StandsFor.unique {T : Transformation} {ns : NodeSet} {nodes nodes' : List Node}
    (hd : ns.Definite) (h : ns.StandsFor T nodes) (h' : ns.StandsFor T nodes') :
    nodes = nodes' := by
  cases h with
  | atHand hn =>
    cases h' with
    | atHand => rfl
    | lazy => exact absurd rfl (hn _ _)
  | lazy hs =>
    cases h' with
    | atHand hn => exact absurd rfl (hn _ _)
    | lazy hs' => exact hs.unique hd hs'

theorem NodeSet.StandsFor.inOrder {T : Transformation} {ns : NodeSet} {nodes : List Node}
    (h : ns.StandsFor T nodes) : InOrder nodes := by
  cases h with
  | atHand =>
    cases ns with
    | empty | intent => exact .nil
    | single o => cases o <;> simp [NodeSet.atHand, InOrder]
    | extent e => exact Node.docOrder_inOrder _
  | lazy hs => exact hs.inOrder

open Classical in
theorem NodeSet.exists_denotes (T : Transformation) :
    ∃ members, Denotes T members ∧ ∀ ns, InOrder (members ns) := by
  refine ⟨fun ns => if h : ∃ nodes, ns.StandsFor T nodes then h.choose else [],
    fun ns nodes hd h => ?_, fun ns => ?_⟩
  · have hex : ∃ nodes, ns.StandsFor T nodes := ⟨nodes, h⟩
    exact (dif_pos hex).trans (hex.choose_spec.unique hd h)
  · dsimp only
    split
    · next hex => exact hex.choose_spec.inOrder
    · exact .nil

/-- A list of nodes of the documents, maybe in another order and with repetitions. -/
structure Forest.Lists (F : Forest) (nodes ns : List Node) : Prop where
  holds : F.HoldsAll ns
  order : docOrder ns = nodes

theorem Forest.Lists.mem_iff {F : Forest} {nodes ns : List Node} (h : F.Lists nodes ns) (n : Node) :
    n ∈ ns ↔ n ∈ nodes := by
  rw [← h.order, h.holds.mem_docOrder]

theorem Forest.Lists.isEmpty_eq {F : Forest} {nodes ns : List Node} (h : F.Lists nodes ns) :
    ns.isEmpty = nodes.isEmpty := by
  rw [Bool.eq_iff_iff, List.isEmpty_iff, List.isEmpty_iff, List.eq_nil_iff_forall_not_mem,
    List.eq_nil_iff_forall_not_mem]
  simp only [h.mem_iff]

namespace Setting

/-- A session in the course of a run that keeps of the definite node-sets registered at its
beginning what they stand for. -/
structure Keeping (S : Setting) (members : NodeSet → List Node) (s₀ s : Session) : Prop where
  sound : S.Sound s
  leads : s₀.LeadsTo s
  kept : ∀ id d e, s₀.definition? id = some d → d.Definite → (s.intent id).extent = some e →
    docOrder e.nodes = members (.intent id d)

/-- Run in such a session, an action ends in one, with a property of its result if it succeeds. -/
def Observes {α : Type} (S : Setting) (members : NodeSet → List Node) (s₀ s : Session)
    (a : Action α) (Q : α → Session → Prop) : Prop :=
  S.Keeping members s₀ s → S.Keeping members s₀ (a.attempt.run s).2 ∧
    s.LeadsTo (a.attempt.run s).2 ∧ ∀ x, (a.attempt.run s).1 = .ok x → Q x (a.attempt.run s).2

variable {S : Setting} {members : NodeSet → List Node} {s₀ s t : Session} {α β : Type}

namespace Keeping

/-- What is done since leaves the lazy node-sets of the past as they were. -/
theorem since (h : S.Keeping members s₀ s) (ht : S.Sound t) (hst : s.LeadsTo t)
    (hsince : t.Since S.transformation false s) : S.Keeping members s₀ t where
  sound := ht
  leads := h.leads.trans hst
  kept id d e hd hdef he := by
    obtain ⟨i, hi, -⟩ := Option.map_eq_some_iff.mp (h.leads.definitions id d hd)
    obtain ⟨hlt, -⟩ := List.getElem?_eq_some_iff.mp hi
    obtain ⟨made, hmade⟩ := hsince.intents
    have hsame : t.intent id = s.intent id := by
      rw [Session.intent, Session.intent, ← hmade, List.getElem?_append_left hlt]
    exact h.kept id d e hd hdef (hsame ▸ he)

/-- A lazy node-set is put to use: what is kept of it is right, and the others stay. -/
theorem setIntent (h : S.Keeping members s₀ s) (id : Nat) {i : IntentState}
    (hdef : i.definition = (s.intent id).definition)
    (hkept : ∀ e, (s.intent id).extent = some e → i.extent = some e)
    (hfits : ∀ e ∈ i.extent, e.Fits S.forest)
    (hright : ∀ e ∈ i.extent, ∀ d, s₀.definition? id = some d → d.Definite →
      docOrder e.nodes = members (.intent id d)) :
    S.Keeping members s₀ (s.setIntent id i) ∧ s.LeadsTo (s.setIntent id i) := by
  obtain ⟨ht, hst⟩ := Session.sound_setIntent h.sound id hdef hkept hfits
  refine ⟨⟨ht, h.leads.trans hst, fun k d e hd hdd he => ?_⟩, hst⟩
  by_cases hk : k = id
  · subst hk
    obtain ⟨j, hj, -⟩ := Option.map_eq_some_iff.mp (h.leads.definitions k d hd)
    obtain ⟨hlt, -⟩ := List.getElem?_eq_some_iff.mp hj
    refine hright e ?_ d hd hdd
    simpa [Session.intent, Session.setIntent, hlt] using he
  · refine h.kept k d e hd hdd ?_
    rwa [Session.intent, Session.setIntent, List.getElem?_set_ne (Ne.symm hk)] at he

end Keeping

namespace Observes

variable {P Q : α → Session → Prop} {a : Action α}

theorem pure {x : α} (h : Q x s) : S.Observes members s₀ s (pure x) Q :=
  fun hs => ⟨hs, .refl s, fun _ hy => Except.ok.inj hy ▸ h⟩

theorem ofExcept {r : Except Fault α} (h : ∀ x, r = .ok x → Q x s) :
    S.Observes members s₀ s (.ofExcept r) Q := by
  cases r with
  | error f => exact fun hs => ⟨hs, .refl s, nofun⟩
  | ok x => exact pure (h x rfl)

theorem fail {f : Fault} : S.Observes members s₀ s (.fail f) Q :=
  fun hs => ⟨hs, .refl s, nofun⟩

theorem bind {R : β → Session → Prop} {f : α → Action β} (h : S.Observes members s₀ s a P)
    (hf : ∀ x t, s.LeadsTo t → P x t → S.Observes members s₀ t (f x) R) :
    S.Observes members s₀ s (a >>= f) R := by
  intro hs
  obtain ⟨ht, hst, hp⟩ := h hs
  cases hr : a.attempt.run s with
  | mk r t =>
    rw [hr] at ht hst hp
    cases r with
    | error e =>
      rw [Action.run_bind_error hr]
      exact ⟨ht, hst, nofun⟩
    | ok x =>
      rw [Action.run_bind_ok hr]
      obtain ⟨hu, htu, hq⟩ := hf x t hst (hp x rfl) ht
      exact ⟨hu, hst.trans htu, hq⟩

theorem map {R : β → Session → Prop} {f : α → β} (h : S.Observes members s₀ s a P)
    (hf : ∀ x t, P x t → R (f x) t) : S.Observes members s₀ s (do return f (← a)) R :=
  h.bind fun x t _ hx => pure (hf x t hx)

theorem imp (h : S.Observes members s₀ s a P) (hi : ∀ x t, P x t → Q x t) :
    S.Observes members s₀ s a Q := by
  intro hs
  obtain ⟨ht, hst, hp⟩ := h hs
  exact ⟨ht, hst, fun x hx => hi x _ (hp x hx)⟩

theorem ite {p : Prop} [Decidable p] {b : Action α} (ha : p → S.Observes members s₀ s a Q)
    (hb : ¬ p → S.Observes members s₀ s b Q) :
    S.Observes members s₀ s (if p then a else b) Q := by
  split
  · exact ha ‹_›
  · exact hb ‹_›

theorem assume (h : S.Keeping members s₀ s → S.Observes members s₀ s a Q) :
    S.Observes members s₀ s a Q :=
  fun hs => h hs hs

theorem get {f : Session → Action α} (h : S.Observes members s₀ s (f s) Q) :
    S.Observes members s₀ s (do f (← MonadState.get)) Q :=
  h

end Observes

/-- A cursor on given nodes, made since some session of the run, which touches no lazy node-set that
is older. -/
structure Ready (S : Setting) (members : NodeSet → List Node) (s₀ : Session) (nodes : List Node)
    (c : Cursor) (t : Session) : Prop where
  sound : c.Sound S t
  fresh : c.Fresh
  yields : ∀ ms, c.Yields (.sessionless S.transformation) ms → docOrder ms = nodes
  past : ∃ p : Pasts, p.loads = false ∧ S.Keeping members s₀ p.left ∧ p.left.LeadsTo t ∧
    Session.Echo S.transformation p t t ∧ c.Echo p c

namespace Ready

variable {nodes : List Node} {c : Cursor} {Q : α → Session → Prop}

/-- What is read of the cursor is read of one of its lists. -/
theorem lists (h : S.Ready members s₀ nodes c t) {ms : List Node}
    (hy : c.Yields (.sessionless S.transformation) ms) : S.forest.Lists nodes ms :=
  ⟨hy.holds h.sound.ordered, h.yields ms hy⟩

theorem sorted (h : S.Ready members s₀ nodes c t) (hs : c.flags.sorted = true) {ms : List Node}
    (hy : c.Yields (.sessionless S.transformation) ms) : ms = nodes := by
  rw [← h.yields ms hy, (hy.inOrder h.sound.ordered hs).docOrder_eq]

/-- Nodes at hand make a cursor that is ready. -/
theorem ofNodes (h : S.Keeping members s₀ t) {f : Flags} {size : Option Nat} {ms : List Node}
    (hc : Cursor.Sound S t (.listed f size ms)) (hf : (Cursor.listed f size ms).Fresh)
    (hms : docOrder ms = nodes) : S.Ready members s₀ nodes (.listed f size ms) t where
  sound := hc
  fresh := hf
  yields ks hks := by rwa [show ks = ms from hks]
  past := ⟨⟨t, t, false⟩, rfl, h, .refl t, .start nofun nofun, .listed ..⟩

/-- An action that only reads the cursor leaves the lazy node-sets of the past as they were. -/
theorem observes (h : S.Ready members s₀ nodes c t) {a : Action α} {R : Pasts → α → α → Prop}
    (ha : ∀ p, c.Echo p c → Action.Echoes S.transformation p (R p) a a)
    (hQ : S.Ensures t a Q) : S.Observes members s₀ t a Q := by
  intro hk
  obtain ⟨p, hl, hpast, hpt, hecho, hc⟩ := h.past
  obtain ⟨hu, htu, hq⟩ := hQ hk.sound
  refine ⟨hpast.since hu (hpt.trans htu) ?_, htu, hq⟩
  rcases ha p hc t t hecho with ⟨-, hsince⟩ | ⟨-, he⟩
  · exact hl ▸ hsince
  · exact hl ▸ he.left

/-- Reading the cursor for a purpose gives the function of one of its lists. -/
theorem consume (h : S.Ready members s₀ nodes c t) {consume : Cursor → Action α}
    {f : List Node → α} (hf : S.Consumes s₀ consume f) :
    S.Observes members s₀ t (consume c) fun x _ =>
      ∃ ms, S.forest.Lists nodes ms ∧ (c.flags.sorted = true → ms = nodes) ∧ x = f ms := by
  refine .assume fun hk => h.observes (fun p hc => hf.echoes hc) ?_
  refine (hf.reads hk.leads h.sound h.fresh.counted).imp fun x _ _ _ => ?_
  rintro ⟨ms, hms, rfl⟩
  exact ⟨ms, h.lists hms, fun hs => h.sorted hs hms, rfl⟩

theorem drain (hS : S.Safe) (h : S.Ready members s₀ nodes c t) (n : Nat) :
    S.Observes members s₀ t ((engine S.transformation n).drain c) fun ms _ =>
      S.forest.Lists nodes ms ∧ (c.flags.sorted = true → ms = nodes ∧ Node.Ascending ms) := by
  refine .assume fun hk => h.observes (fun p hc => (engine_echoes _ p n.le_refl).drain hc) ?_
  refine (((engine_safe hS n).drain h.sound).and
    ((consumes_drain hS s₀ n).reads hk.leads h.sound h.fresh.counted)).imp fun x _ _ _ => ?_
  rintro ⟨⟨-, hp⟩, ms, hms, rfl⟩
  exact ⟨h.lists hms, fun hs => ⟨h.sorted hs hms, hp.imp fun hab => hab.sorted hs⟩⟩

/-- What is read out can be kept. -/
theorem extent (hS : S.Safe) (h : S.Ready members s₀ nodes c t) (n : Nat) :
    S.Observes members s₀ t ((engine S.transformation n).extent c) fun e _ =>
      e.Fits S.forest ∧ docOrder e.nodes = nodes := by
  refine .assume fun hk => h.observes (fun p hc => (engine_echoes _ p n.le_refl).extent hc) ?_
  have hR := (sessionless_selects hS s₀ n).1
  exact (((engine_safe hS n).extent h.sound).and
    (hR.extent hk.leads h.sound h.fresh.counted)).imp
      fun e u _ _ ⟨he, hy⟩ => ⟨he, h.yields _ (hy u (.refl u))⟩

/-- A size that the cursor tells is that of the node-set. -/
theorem size (hS : S.Safe) (h : S.Ready members s₀ nodes c t)
    (hc : (c.flags.sorted && c.counts) = true) (n : Nat) :
    S.Observes members s₀ t
      (do Action.ofExcept (← liftM ((engine S.transformation n).size c)).outcome) fun told _ =>
        ∀ k ∈ told, k = nodes.length := by
  rw [Bool.and_eq_true] at hc
  refine .assume fun hk => h.observes (R := fun _ => Eq) (fun p hecho => ?_) ?_
  · exact PullEchoes.read_action ((engine_echoes _ p n.le_refl).size hecho) (fun _ => rfl)
      fun o _ _ _ => .ofExcept o
  · have hR := (sessionless_selects hS s₀ n).1
    refine Ensures.bind (Ensures.lift (hR.size hk.leads h.sound h.fresh.counted))
      fun q u _ _ hq => .ofExcept fun told htold k hmem => ?_
    obtain ⟨-, hsettles, hy⟩ := hq told htold
    obtain ⟨total, htotal, hsettled⟩ := hsettles hc.2 0 h.fresh.tells
    obtain rfl : total = k := Option.some.inj (Eq.trans (Eq.symm htotal) hmem)
    obtain ⟨ms, hms⟩ := S.exists_yields q.rest
    have hcms := hy u (.refl u) ms hms
    have hlen := hsettled.eq hms
    rwa [h.sorted hc.1 hcms, Nat.zero_add] at hlen

end Ready

end Setting

end PathLanguage
