/- What paths deliver: the nodes that the predicates of a step leave one after the other, origin by
origin. -/
import PathLanguage.Proofs.Cursor.Filter

namespace PathLanguage

open Conditions

namespace Oracle

/-- Of each node in each place a predicate says one thing. -/
def Definite (J : Oracle) : Prop := ∀ p c n position size, ∃! b, J.truth p c n position size b

/-- Something holds of each predicate and each node that the predicates before it leave, in its place
among them. -/
def Along (J : Oracle) (c : Context) (H : Expr → Node → (position size : Nat) → Prop) :
    List Expr → List Node → Prop
  | [], _ => True
  | p :: ps, ns =>
    (∀ i n, ns[i]? = some n → H p n (i + 1) ns.length) ∧
      ∀ ms, J.Picks p c ns.length 0 ns ms → J.Along c H ps ms

variable {J : Oracle} {c : Context} {p : Expr} {ps : List Expr} {ns ms : List Node}

theorem Along.imp {H H' : Expr → Node → Nat → Nat → Prop} (h : J.Along c H ps ns)
    (hi : ∀ p n i k, H p n i k → H' p n i k) : J.Along c H' ps ns := by
  induction ps generalizing ns with
  | nil => trivial
  | cons p ps ih => exact ⟨fun i n hn => hi _ _ _ _ (h.1 i n hn), fun ms hms => ih (h.2 ms hms)⟩

theorem Definite.picks (hJ : J.Definite) (p : Expr) (c : Context) (size position : Nat)
    (ns : List Node) : ∃ ms, J.Picks p c size position ns ms := by
  induction ns generalizing position with
  | nil => exact ⟨[], .nil position⟩
  | cons n ns ih =>
    obtain ⟨ms, hms⟩ := ih (position + 1)
    obtain ⟨b, hb, -⟩ := hJ p c n (position + 1) size
    cases b with
    | true => exact ⟨n :: ms, .pick hb hms⟩
    | false => exact ⟨ms, .pass hb hms⟩

theorem Definite.narrows (hJ : J.Definite) (c : Context) (ps : List Expr) (ns : List Node) :
    ∃ ms, J.Narrows c ps ns ms := by
  induction ps generalizing ns with
  | nil => exact ⟨ns, .nil ns⟩
  | cons p ps ih =>
    obtain ⟨ks, hks⟩ := hJ.picks p c ns.length 0 ns
    obtain ⟨ms, hms⟩ := ih ks
    exact ⟨ms, .cons hks hms⟩

theorem Definite.unique (hJ : J.Definite) {ks : List Node} {size position : Nat}
    (h : J.Picks p c size position ns ms) (h' : J.Picks p c size position ns ks) : ms = ks :=
  h.unique (fun _ _ _ _ hb hb' => (hJ _ _ _ _ _).unique hb hb') h'

end Oracle

/-- Under the conditions a predicate of a context is judged as an oracle says. -/
def Conditions.Follows (K : Conditions) (J : Oracle) (c : Context) (p : Expr) (n : Node)
    (position size : Nat) : Prop :=
  K.Judges p (c.withFocus n position size) (J.truth p c n position size)

namespace Cursor

variable {K : Conditions} {J : Oracle} {c : Context} {p : Expr} {ps : List Expr}
  {ns ms : List Node} {base : Cursor} {axis : Axis} {test : NodeTest} {n o : Node}

theorem supplies_select (hJ : J.Definite) (hb : Supplies K ns base) (ht : base.Tells 0)
    (hk : ns.length < 1 <<< 53) (hp : ∀ i n, ns[i]? = some n → K.Follows J c p n (i + 1) ns.length)
    (hms : J.Picks p c ns.length 0 ns ms) :
    Supplies (K.deeper (ns.length + 4)) ms (base.select p c false) := by
  have hstream := streams_select (J := J) false hb ht hk hp
  exact (hstream.imp fun ks (hks : J.Picks p c ns.length 0 ns ks) => hJ.unique hks hms).supplies

/-- Selections one on top of the other supply what the predicates leave one after the other. -/
theorem supplies_foldl (hJ : J.Definite) (hb : Supplies K ns base) (hf : base.Fresh)
    (hk : ns.length < 1 <<< 53) (hp : J.Along c (K.Follows J c) ps ns)
    (hms : J.Narrows c ps ns ms) :
    ∃ more, Supplies (K.deeper more) ms (ps.foldl (fun r p => r.select p c false) base) := by
  induction hms generalizing K base with
  | nil ns => exact ⟨0, hb⟩
  | @cons p ps ns ks ms hks _ ih =>
    obtain ⟨hnow, hlater⟩ := hp
    have hselect := supplies_select hJ hb hf.tells hk hnow hks
    have hless : ks.length < 1 <<< 53 := hks.sublist.length_le.trans_lt hk
    obtain ⟨more, hmore⟩ := ih hselect (hf.select p c) hless
      ((hlater ks hks).imp fun _ _ _ _ h => h.deeper _)
    exact ⟨ns.length + 4 + more, K.deeper_deeper _ _ ▸ hmore⟩

theorem supplies_onAxis (K : Conditions) (ho : o.Valid) (axis : Axis) (test : NodeTest) :
    Supplies (K.deeper 1) (o.step axis test) (onAxis o axis test) := by
  simp only [onAxis, Walk.nodes_start ho]
  exact supplies_listed K _ _ _

theorem supplies_ofStep (hJ : J.Definite) (ho : o.Valid) (hk : (o.step axis test).length < 1 <<< 53)
    (hp : J.Along c (K.Follows J c) ps (o.step axis test))
    (hms : J.Narrows c ps (o.step axis test) ms) :
    ∃ more, Supplies (K.deeper more) ms (ofStep ⟨axis, test, ps⟩ o c) := by
  obtain ⟨more, hmore⟩ := supplies_foldl hJ (supplies_onAxis K ho axis test)
    (fresh_onAxis o axis test) hk (hp.imp fun _ _ _ _ h => h.deeper 1) hms
  exact ⟨1 + more, K.deeper_deeper _ _ ▸ hmore⟩

/-- Steps supply what is left of the latest origin, and then what the step selects from each of the
next ones. -/
theorem supplies_steps {plan : StepPlan} {sorted : Bool} {start current : Cursor}
    {os : List Node} {reached : Node → List Node} (hs : Supplies K os start)
    (hc : Supplies K ms current) (ho : ∀ o ∈ os, Supplies K (reached o) (ofStep plan o c)) :
    Supplies (K.deeper (os.length + 1)) (ms ++ os.flatMap reached)
      (.steps start plan c current sorted) := by
  induction os generalizing ms start current with
  | nil =>
    induction ms generalizing current with
    | nil =>
      refine Gives.next (Gives.bind hc fun p hp => ?_)
      obtain ⟨_, r⟩ := p
      obtain rfl := hp
      refine Gives.bind hs fun q hq => ?_
      obtain ⟨_, q⟩ := q
      obtain rfl := hq
      exact Gives.pure rfl
    | cons m ms ih =>
      refine Gives.next (Gives.bind hc fun p hp => ?_)
      obtain ⟨_, r⟩ := p
      obtain ⟨rfl, hr⟩ := hp
      exact Gives.pure ⟨rfl, ih hr⟩
  | cons o os ih =>
    obtain ⟨hnow, hlater⟩ := List.forall_mem_cons.mp ho
    induction ms generalizing current with
    | nil =>
      rw [List.flatMap_cons, List.nil_append]
      refine supplies_iff.mpr (Gives.next (K := K.deeper (os.length + 1)) ?_)
      refine Gives.bind (Gives.deeper hc _) fun p hp => ?_
      obtain ⟨_, r⟩ := p
      obtain rfl := hp
      refine Gives.bind (Gives.deeper hs _) fun q hq => ?_
      obtain ⟨_, r⟩ := q
      obtain ⟨rfl, hr⟩ := hq
      exact (supplies_iff.mp (ih hr hnow hlater)).imp fun q hq => hq.deeper 1
    | cons m ms ih =>
      refine Gives.next (K := K.deeper (os.length + 1)) (Gives.bind (Gives.deeper hc _) fun p hp => ?_)
      obtain ⟨_, r⟩ := p
      obtain ⟨rfl, hr⟩ := hp
      exact Gives.pure ⟨rfl, ih hr⟩

/-- A path forward from the parent of a node goes on from it in one step. -/
theorem cursor_fromParent (T : Transformation) (hf : axis.isForward = true) (test : NodeTest)
    (ps : List Expr) (n : Node) (c : Context) (depth : Nat) :
    (engine T (depth + 2)).cursor (.path .parentNode axis test ps) (c.withNode n) false =
      pure (.steps (.ofOption n.parent) ⟨axis, test, ps⟩ c.ambient .empty true) := by
  have hordered : (axis.isForward && (Expr.parentNode.isSingleton ||
      ((Cursor.ofOption n.parent).flags.peer && axis.isSubtree))) = true := by
    rw [hf]
    rfl
  change (if (axis.isForward && (Expr.parentNode.isSingleton ||
      ((Cursor.ofOption n.parent).flags.peer && axis.isSubtree))) = true then _ else _) = _
  rw [if_pos hordered]
  rfl

/-- A path forward from the parent of a node selects what its predicates leave of the step. -/
theorem path_supplies (hJ : J.Definite) (ho : o.Valid) (hn : n.parent = some o)
    (hf : axis.isForward = true) (hk : (o.step axis test).length < 1 <<< 53)
    (hp : J.Along c.ambient (K.Follows J c.ambient) ps (o.step axis test))
    (hms : J.Narrows c.ambient ps (o.step axis test) ms) :
    ∃ more, (K.deeper more).Succeeds
      (fun E => E.cursor (.path .parentNode axis test ps) (c.withNode n) false)
      (Supplies (K.deeper more) ms) := by
  obtain ⟨more, hstep⟩ := supplies_ofStep hJ ho hk hp hms
  have hstart : Supplies (K.deeper (more + 1)) [o] (.ofOption n.parent) := by
    rw [hn]
    exact (supplies_listed K _ _ [o]).atLeast (Nat.le_add_left 1 more)
  have hnothing : Supplies (K.deeper (more + 1)) [] .empty :=
    (supplies_listed K _ _ []).atLeast (Nat.le_add_left 1 more)
  have hsteps : Supplies ((K.deeper (more + 1)).deeper 2) ([] ++ [o].flatMap fun _ => ms)
      (.steps (.ofOption n.parent) ⟨axis, test, ps⟩ c.ambient .empty true) :=
    supplies_steps hstart hnothing fun m hm =>
      List.mem_singleton.mp hm ▸ hstep.atLeast (Nat.le_succ more)
  rw [List.nil_append, List.flatMap_singleton] at hsteps
  refine ⟨more + 3, Gives.of_eq (Succeeds.pure hsteps) fun d hd => ?_⟩
  obtain ⟨j, rfl⟩ := Nat.exists_eq_add_of_le' (Nat.le_trans (Nat.le_add_left 2 _) hd)
  exact congrArg _ (cursor_fromParent K.transformation hf test ps n c j)

/-- Whatever the session, a path forward from the parent of a node delivers nodes of its axis. -/
theorem drain_fromParent {T : Transformation} {m : Node} {r : Cursor} {s t u : Session}
    {depth : Nat} (hm : m.Valid) (hn : n.parent = some m) (hf : axis.isForward = true)
    (hc : ((engine T depth).cursor (.path .parentNode axis test ps) (c.withNode n)
      false).attempt.run s = (.ok r, t))
    (hd : ((engine T depth).drain r).attempt.run t = (.ok ns, u)) :
    ∀ o ∈ ns, o ∈ m.along axis := by
  match depth, hc, hd with
  | 0, hc, _ | 1, hc, _ => cases hc
  | k + 2, hc, hd =>
    rw [cursor_fromParent T hf] at hc
    cases hc
    have hroot : (Forest.single m.document).Holds m := ⟨List.mem_singleton.mpr rfl, hm⟩
    have hstart : (Cursor.ofOption n.parent).Ordered (Forest.single m.document) := by
      rw [hn]
      exact ⟨by simpa [Forest.HoldsAll] using hroot, List.pairwise_singleton _ _⟩
    have hsingle : (Cursor.ofOption n.parent).IsSingle := by
      rw [hn]
      exact Nat.le_refl 1
    have hsteps : (Cursor.steps (.ofOption n.parent) ⟨axis, test, ps⟩ c.ambient .empty
        true).Ordered (Forest.single m.document) :=
      steps_ordered hstart ⟨axis, test, ps⟩ c.ambient fun _ => ⟨hf, .inl hsingle⟩
    intro o ho
    rcases drain_reaches T (k + 2) hsteps _ _ (congrArg Prod.fst hd) o ho with hr | ⟨p, hp, hr⟩
    · cases hr
    · rw [hn] at hp
      exact List.mem_singleton.mp hp ▸ hr

end Cursor

end PathLanguage
