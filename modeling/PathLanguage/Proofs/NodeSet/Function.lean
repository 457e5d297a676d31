/- Functions of node-sets: a node-set is split at the first member of another, a common member of two
is found if there is one, and a sum is taken over the members that are counted. -/
import PathLanguage.Proofs.Cursor.Delivery
import PathLanguage.Proofs.NodeSet.Comparison
import PathLanguage.Proofs.NodeSet.Observation

namespace PathLanguage

open Node (Ascending docOrder InOrder)

namespace Setting

variable {S : Setting} {members : NodeSet → List Node} {s₀ s : Session} {α : Type} {a : Action α}

/-- What is known of an action in every sound session is known of it in the course of a run. -/
theorem Observes.and {P Q : α → Session → Prop} (h : S.Observes members s₀ s a P)
    (h' : S.Keeping members s₀ s → S.Ensures s a Q) :
    S.Observes members s₀ s a fun x t => P x t ∧ Q x t := by
  intro hk
  obtain ⟨ht, hst, hp⟩ := h hk
  exact ⟨ht, hst, fun x hx => ⟨hp x hx, (h' hk hk.sound).2.2 x hx⟩⟩

end Setting

/-- An action has a result in a session. -/
def Action.Succeeds {α : Type} (a : Action α) (s : Session) : Prop := ∃ x t, a.attempt.run s = (.ok x, t)

namespace Node

/-- The nodes of a list on one side of a node. -/
def beside (side : Ordering) (p : Node) (ns : List Node) : List Node :=
  ns.filter fun n => n.order? p == some side

theorem mem_beside {side : Ordering} {p n : Node} {ns : List Node} :
    n ∈ beside side p ns ↔ n ∈ ns ∧ n.order? p = some side := by
  simp [beside]

/-- The sum of the numbers of nodes. -/
def total (ns : List Node) : Number := ns.foldl (fun sum n => sum + .ofText n.stringValue) 0

end Node

open Node (beside)

/-- A node that follows another in document order is on its other side. -/
theorem Forest.Holds.order?_of_before {F : Forest} {a b : Node} (ha : F.Holds a) (hb : F.Holds b)
    (h : a.Before b) : b.order? a = some .gt := by
  obtain ⟨hc, ho⟩ := Node.before_iff.mp h
  exact Node.order?_eq_some.mpr ⟨ha.comparable_symm hb hc, Node.order_lt_iff_gt.mp ho⟩

/-- A list in document order consists of what is on either side of a member, and the member. -/
theorem Node.Ascending.split {F : Forest} {ns : List Node} {p : Node} (h : Ascending ns)
    (hn : F.HoldsAll ns) (hp : p ∈ ns) :
    ns = beside .lt p ns ++ p :: beside .gt p ns := by
  induction ns with
  | nil => cases hp
  | cons n ns ih =>
    obtain ⟨hbefore, hns⟩ := List.pairwise_cons.mp h
    obtain ⟨hholds, hall⟩ := Forest.holdsAll_cons.mp hn
    rcases List.mem_cons.mp hp with rfl | hmem
    · have hself : p.order? p = some .eq := Node.order?_eq_some.mpr ⟨.refl p, p.order_self⟩
      have hafter : ∀ m ∈ ns, m.order? p = some .gt := fun m hm =>
        hholds.order?_of_before (hall m hm) (hbefore m hm)
      have hlt : beside .lt p ns = [] := List.filter_eq_nil_iff.mpr fun m hm => by
        simp [hafter m hm]
      have hgt : beside .gt p ns = ns := List.filter_eq_self.mpr fun m hm => by
        simp [hafter m hm]
      rw [beside] at hlt hgt
      simp [beside, hself, hlt, hgt]
    · have hlt : n.order? p = some .lt := hbefore p hmem
      have hsplit := ih hns hall hmem
      rw [beside, beside] at hsplit ⊢
      simpa [hlt] using hsplit

/-- The members of a list in document order are all ordered by each of them. -/
theorem Node.Ascending.isSome_order? {F : Forest} {ns : List Node} {p n : Node} (h : Ascending ns)
    (hn : F.HoldsAll ns) (hp : p ∈ ns) (hmem : n ∈ ns) : (n.order? p).isSome = true := by
  rw [h.split hn hp, List.mem_append, List.mem_cons] at hmem
  rcases hmem with hlt | rfl | hgt
  · rw [(mem_beside.mp hlt).2, Option.isSome_some]
  · rw [Node.order?_eq_some.mpr ⟨.refl n, n.order_self⟩, Option.isSome_some]
  · rw [(mem_beside.mp hgt).2, Option.isSome_some]

/-- Two lists that a list is split into at the first node of another: all and nothing if there is no
such node, nothing on either side if it is not in the list. -/
structure SplitsAtFirst (as bs before after : List Node) : Prop where
  unsplit : bs = [] → before = as ∧ after = []
  outside : ∀ p ∈ bs.head?, p ∉ as → before = [] ∧ after = []
  disjoint : ∀ p ∈ bs.head?, before.Disjoint after ∧ p ∉ before ∧ p ∉ after
  union : ∀ p ∈ bs.head?, p ∈ as → ∀ n, n ∈ as ↔ n ∈ before ∨ n = p ∨ n ∈ after
  precedes : ∀ p ∈ bs.head?, ∀ n ∈ before, n.Before p
  follows : ∀ p ∈ bs.head?, ∀ n ∈ after, p.Before n

/-- What is told of one side of a list, seen from the first node of another. -/
inductive Beside (F : Forest) (side : Ordering) (as bs : List Node) : Option (List Node) → Prop
  | untold : bs = [] → Beside F side as bs none
  | outside {p : Node} : p ∈ bs.head? → p ∉ as → Beside F side as bs (some [])
  | within {p : Node} : p ∈ bs.head? → p ∈ as → F.HoldsAll as → Ascending as →
      Beside F side as bs (some (beside side p as))

/-- What is told of both sides splits the list. -/
theorem Beside.splits {F : Forest} {as bs : List Node} {l r : Option (List Node)}
    (hl : Beside F .lt as bs l) (hr : Beside F .gt as bs r) :
    SplitsAtFirst as bs (l.getD as) (r.getD []) := by
  cases hl with
  | untold hb =>
    subst hb
    cases hr with
    | untold => exact ⟨fun _ => ⟨rfl, rfl⟩, nofun, nofun, nofun, nofun, nofun⟩
    | outside hp => cases hp
    | within hp => cases hp
  | @outside p hp hnot =>
    have hsome : bs ≠ [] := by
      rintro rfl
      cases hp
    cases hr with
    | untold hb => exact absurd hb hsome
    | outside => exact ⟨fun hb => absurd hb hsome, fun _ _ _ => ⟨rfl, rfl⟩, fun _ _ => by simp,
        fun q hq hmem => absurd (Option.some.inj (hp.symm.trans hq) ▸ hmem) hnot, by simp, by simp⟩
    | @within q hq hmem => exact absurd (Option.some.inj (hp.symm.trans hq) ▸ hmem) hnot
  | @within p hp hmem hn ha =>
    have hsome : bs ≠ [] := by
      rintro rfl
      cases hp
    have hpivot : ∀ q ∈ bs.head?, q = p := fun q hq => Option.some.inj (hq.symm.trans hp)
    cases hr with
    | untold hb => exact absurd hb hsome
    | @outside q hq hnot => exact absurd (hpivot q hq ▸ hmem) hnot
    | @within q hq =>
      obtain rfl := hpivot q hq
      have hsplit := ha.split hn hmem
      have hnodup := hsplit ▸ ha.inOrder.nodup
      refine ⟨fun hb => absurd hb hsome, fun q' hq' hnot => absurd (hpivot q' hq' ▸ hmem) hnot,
        fun q' hq' => ?_, fun q' hq' _ n => ?_, fun q' hq' n h => ?_, fun q' hq' n h => ?_⟩
      all_goals obtain rfl := hpivot q' hq'
      · obtain ⟨-, hright, hdisjoint⟩ := List.nodup_append'.mp hnodup
        exact ⟨fun n hnl hnr => hdisjoint hnl (.tail _ hnr), fun h => hdisjoint h (.head _),
          (List.nodup_cons.mp hright).1⟩
      · nth_rewrite 1 [hsplit]
        simp
      · exact (Node.mem_beside.mp h).2
      · obtain ⟨hns, ho⟩ := Node.mem_beside.mp h
        obtain ⟨hc, ho⟩ := Node.order?_eq_some.mp ho
        exact Node.before_iff.mpr ⟨(hn n hns).comparable_symm (hn _ hmem) hc,
          Node.order_lt_iff_gt.mpr ho⟩

/-- Nodes in order are the members of the node-set that is made of them. -/
theorem NodeSet.Denotes.members_ofNodes {S : Setting} {members : NodeSet → List Node}
    (hm : Denotes S.transformation members) {ns : List Node} (h : InOrder ns) (sorted : Bool) :
    members (.ofNodes ns sorted) = ns := by
  rw [members_atHand hm _ (atHand_ofNodes ns sorted), ofNodes]
  split
  · next hempty => exact (List.isEmpty_iff.mp hempty).symm
  · exact h.docOrder_eq

namespace Function

open Setting (Observes)

variable {S : Setting} {members : NodeSet → List Node} {s₀ s t : Session} {a b : NodeSet} {n : Nat}

/-- The side of a node-set that is told is that of its members. -/
theorem besideFirst_observes (hS : S.Safe) (hm : NodeSet.Denotes S.transformation members)
    (ha : a.Known S s₀) (hb : b.Known S s₀) (side : Ordering) (n : Nat) :
    S.Observes members s₀ s (besideFirst S.transformation (engine S.transformation n) a b side)
      fun r _ => Beside S.forest side (members a) (members b) (r.map members) := by
  have hE := engine_safe hS n
  refine ((first_observes hS hm hb n).and fun hk =>
    NodeSet.first_safe hS hE (hb.fits.mono hk.leads.toKeeps)).bind fun o t _ ⟨ho, hholds⟩ => ?_
  cases o with
  | none => exact .pure (.untold (List.head?_eq_none_iff.mp ho.symm))
  | some p =>
    refine ((materialize_observes hS hm ha n).and fun hk =>
      NodeSet.materialize_safe hS hE (ha.fits.mono hk.leads.toKeeps)).bind
        fun e u _ ⟨⟨hnodes, hasc⟩, hfits, _⟩ => ?_
    have hp : S.forest.Holds p := hholds p rfl
    have hall : S.forest.HoldsAll (members a) := hnodes ▸ hfits.holds
    have hany : e.nodes.any p.same = true ↔ p ∈ members a :=
      hnodes ▸ hfits.holds.any_same_iff hp
    refine .ite (fun hno => .pure ?_) fun hsome => .ite (fun _ => .fail) fun _ => .pure ?_
    · have hnot : p ∉ members a := fun hmem => by simp [hany.mpr hmem] at hno
      change Beside _ _ _ _ (some (members .empty))
      rw [members_atHand hm .empty nofun]
      exact .outside ho.symm hnot
    · have hmem : p ∈ members a := hany.mp (by simpa using hsome)
      change Beside _ _ _ _ (some (members (.ofNodes (beside side p e.nodes) true)))
      have hsub : (beside side p e.nodes).Sublist (members a) := hnodes ▸ List.filter_sublist
      rw [hm.members_ofNodes (Ascending.inOrder (hasc.sublist hsub)), hnodes]
      exact .within ho.symm hmem hall hasc

theorem leading_observes (hS : S.Safe) (hm : NodeSet.Denotes S.transformation members)
    (ha : a.Known S s₀) (hb : b.Known S s₀) (n : Nat) :
    S.Observes members s₀ s (leading S.transformation (engine S.transformation n) a b)
      fun l _ => ∃ told, Beside S.forest .lt (members a) (members b) told ∧
        members l = told.getD (members a) :=
  (besideFirst_observes hS hm ha hb .lt n).map fun r _ hr =>
    ⟨_, hr, by cases r <;> rfl⟩

theorem trailing_observes (hS : S.Safe) (hm : NodeSet.Denotes S.transformation members)
    (ha : a.Known S s₀) (hb : b.Known S s₀) (n : Nat) :
    S.Observes members s₀ s (trailing S.transformation (engine S.transformation n) a b)
      fun r _ => ∃ told, Beside S.forest .gt (members a) (members b) told ∧
        members r = told.getD [] :=
  (besideFirst_observes hS hm ha hb .gt n).map fun r _ hr => ⟨_, hr, by
    cases r with
    | none => exact members_atHand hm .empty nofun
    | some ns => rfl⟩

/-- A node-set that can be navigated is enumerated with a cursor on its members. -/
theorem enumerate_observes (hS : S.Safe) (hm : NodeSet.Denotes S.transformation members)
    (ha : a.Known S s₀) (n : Nat) :
    S.Observes members s₀ s (a.enumerate S.transformation (engine S.transformation n)) fun c t =>
      S.Ready members s₀ (members a) c t :=
  .ite (fun _ => scan_observes hS hm ha n) fun _ => .fail

/-- The members of the one node-set are searched for one of the other. -/
theorem haveSameNode_observes (hS : S.Safe) (hm : NodeSet.Denotes S.transformation members)
    (ha : a.Known S s₀) (hb : b.Known S s₀) (n : Nat) :
    S.Observes members s₀ s (haveSameNode S.transformation (engine S.transformation n) a b)
      fun x _ => x = true ↔ ∃ p ∈ members a, p ∈ members b := by
  refine (members_observes hS hm hb n).bind fun right t _ hright => ?_
  refine (enumerate_observes hS hm ha n).bind fun c u _ hc =>
    (hc.consume (Setting.consumes_find hS s₀ (fun p => right.any p.same) n)).imp fun x _ => ?_
  rintro ⟨ms, hms, -, rfl⟩
  have hany : ∀ p ∈ ms, (right.any p.same = true ↔ p ∈ members b) := fun p hp =>
    (hright.holds.any_same_iff (hms.holds p hp)).trans (hright.mem_iff p)
  rw [List.any_eq_true]
  constructor
  · rintro ⟨p, hp, hsame⟩
    exact ⟨p, (hms.mem_iff p).mp hp, (hany p hp).mp hsame⟩
  · rintro ⟨p, hpa, hpb⟩
    have hp := (hms.mem_iff p).mpr hpa
    exact ⟨p, hp, (hany p hp).mpr hpb⟩

/-- What has to be read for either side: the first member of the one node-set and, if there is one,
all members of the other. -/
def readSides (T : Transformation) (E : Engine) (a b : NodeSet) : Action Unit := do
  if (← b.first T E).isSome then discard (a.materialize T E)

/-- A side is told wherever what has to be read for it can be read: members among which the first one
of the other node-set is can be ordered by it. -/
theorem besideFirst_succeeds (hS : S.Safe) (ha : a.Fits S.forest s) (hb : b.Fits S.forest s)
    (hs : S.Sound s) (side : Ordering)
    (h : (readSides S.transformation (engine S.transformation n) a b).Succeeds s) :
    (besideFirst S.transformation (engine S.transformation n) a b side).Succeeds s := by
  have hE := engine_safe hS n
  obtain ⟨_, t, hread⟩ := h
  obtain ⟨o, u, hfirst, hrest⟩ := Action.bind_ok.mp hread
  obtain ⟨hu, hsu, hholds⟩ := NodeSet.first_safe hS hE hb hs
  rw [hfirst] at hu hsu hholds
  rw [besideFirst, Action.Succeeds, Action.run_bind_ok hfirst]
  cases o with
  | none => exact ⟨_, _, rfl⟩
  | some p =>
    obtain ⟨e, v, hmaterialize, -⟩ := Action.bind_ok.mp hrest
    obtain ⟨-, -, hfits⟩ := NodeSet.materialize_safe hS hE (ha.mono hsu.toKeeps) hu
    rw [hmaterialize] at hfits
    obtain ⟨hfits, hasc⟩ := hfits e rfl
    simp only [Action.run_bind_ok hmaterialize]
    split
    · exact ⟨_, _, rfl⟩
    · next hany =>
      have hmem : p ∈ e.nodes :=
        (hfits.holds.any_same_iff (hholds _ rfl p rfl)).mp (by simpa using hany)
      split
      · next hnone =>
        obtain ⟨m, hm, hunordered⟩ := List.any_eq_true.mp hnone
        have hsome := hasc.isSome_order? hfits.holds hmem hm
        simp [Option.isNone_iff_eq_none.mp hunordered] at hsome
      · exact ⟨_, _, rfl⟩

/-- What is asked of two node-sets to search them for a common member. -/
def readBoth (T : Transformation) (E : Engine) (a b : NodeSet) : Action Unit := do
  discard (b.members T E)
  discard (a.members T E)

/-- A common member is searched for with success wherever both node-sets can be read. -/
theorem haveSameNode_succeeds {T : Transformation}
    (h : (readBoth T (engine T n) a b).Succeeds s) :
    (haveSameNode T (engine T n) a b).Succeeds s := by
  obtain ⟨_, t, hread⟩ := h
  obtain ⟨_, u, hright, hrest⟩ := Action.bind_ok.mp hread
  obtain ⟨right, v, hright, hpure⟩ := Action.bind_ok.mp hright
  cases hpure
  obtain ⟨left, w, hleft, -⟩ := Action.bind_ok.mp hrest
  obtain ⟨c, x, hcursor, hdrain⟩ := Action.bind_ok.mp hleft
  obtain ⟨y, hfind⟩ := Cursor.find_of_drain (fun p => right.any p.same) hdrain
  exact ⟨_, y, Action.bind_ok.mpr ⟨_, _, hright, Action.bind_ok.mpr ⟨_, _, hcursor, hfind⟩⟩⟩

/-- Whenever they are told, in any sessions of a run and to any depths, the members before and after
the first member of another node-set split a node-set there, and it is told of two node-sets whether
they have a common member; and they are told wherever the members can be read. -/
theorem sets_split_at_first (hS : S.Safe) (hm : NodeSet.Denotes S.transformation members)
    (ha : a.Known S s₀) (hb : b.Known S s₀) (hs : S.Keeping members s₀ s)
    (ht : S.Keeping members s₀ t) (n k : Nat) :
    (∀ l r, ((leading S.transformation (engine S.transformation n) a b).attempt.run s).1 = .ok l →
      ((trailing S.transformation (engine S.transformation k) a b).attempt.run t).1 = .ok r →
      SplitsAtFirst (members a) (members b) (members l) (members r)) ∧
    (∀ x, ((haveSameNode S.transformation (engine S.transformation n) a b).attempt.run s).1 =
      .ok x → (x = true ↔ ∃ p ∈ members a, p ∈ members b)) ∧
    ((readSides S.transformation (engine S.transformation n) a b).Succeeds s →
      (leading S.transformation (engine S.transformation n) a b).Succeeds s ∧
      (trailing S.transformation (engine S.transformation n) a b).Succeeds s) ∧
    ((readBoth S.transformation (engine S.transformation n) a b).Succeeds s →
      (haveSameNode S.transformation (engine S.transformation n) a b).Succeeds s) := by
  refine ⟨fun l r hl hr => ?_, (haveSameNode_observes hS hm ha hb n hs).2.2, fun hread => ?_,
    haveSameNode_succeeds⟩
  · obtain ⟨before, hbefore, hl⟩ := (leading_observes hS hm ha hb n hs).2.2 l hl
    obtain ⟨after, hafter, hr⟩ := (trailing_observes hS hm ha hb k ht).2.2 r hr
    rw [hl, hr]
    exact hbefore.splits hafter
  · have hbeside (side : Ordering) := besideFirst_succeeds hS (ha.fits.mono hs.leads.toKeeps)
      (hb.fits.mono hs.leads.toKeeps) hs.sound side hread
    obtain ⟨_, _, hl⟩ := hbeside .lt
    obtain ⟨_, _, hr⟩ := hbeside .gt
    exact ⟨⟨_, _, Action.bind_ok.mpr ⟨_, _, hl, rfl⟩⟩, ⟨_, _, Action.bind_ok.mpr ⟨_, _, hr, rfl⟩⟩⟩

/-- The first and the second child of the only child of the root. -/
def grandchild (i : Nat) : Node :=
  let leaf := Tree.element (.unqualified "e") none [] [] []
  .child (.child (.root .pair) 0 (.element (.unqualified "e") none [] [] [leaf, leaf])) i leaf

/-- Listed without order, they are known in every run. -/
theorem known_extent {i : Nat} (hi : i < 2) (s₀ : Session) :
    (NodeSet.extent ⟨[grandchild 1, grandchild i], false, false⟩).Known (.bare .pair) s₀ := by
  have hholds {k : Nat} (hk : k < 2) : (Setting.bare .pair).forest.Holds (grandchild k) := by
    refine ⟨List.mem_singleton.mpr rfl, Node.valid_child.mpr ⟨Node.valid_child.mpr ⟨.root _, rfl⟩,
      ?_⟩⟩
    match k, hk with
    | 0, _ | 1, _ => rfl
  refine ⟨NodeSet.fits_extent.mpr ⟨⟨nofun, nofun⟩, ?_⟩, trivial⟩
  exact Forest.holdsAll_cons.mpr ⟨hholds (by decide), by simpa using hholds hi⟩

/-- So are they from the beginning of the run that registers them as a lazy node-set, and that run
keeps what node-sets stand for, also when they are used often. -/
theorem keeping_untilKept {members : NodeSet → List Node} (hm : NodeSet.Denotes .bare members) :
    (NodeSet.intent 0 Ask.grandchildren).Known (.bare .pair) Ask.registered ∧
    (Setting.bare .pair).Keeping members Ask.registered Ask.registered ∧
    (Setting.bare .pair).Keeping members Ask.registered
      (Ask.after .bare Ask.untilKept Ask.registered) := by
  have hleaves : ∀ l ∈ Ask.grandchildren.leaves, l = .node (.root .pair) := fun l hl => by
    simpa [Ask.grandchildren, Expr.leaves, leavesOfAll] using hl
  have hfits (s : Session) : Ask.grandchildren.Fits (Forest.single .pair) s := fun l hl =>
    hleaves l hl ▸ ⟨List.mem_singleton.mpr rfl, .root .pair⟩
  have hknown : (NodeSet.intent 0 Ask.grandchildren).Known (.bare .pair) Ask.registered :=
    ⟨NodeSet.fits_intent.mpr ⟨rfl, hfits _⟩, fun l hl =>
      hleaves l hl ▸ ⟨trivial, fun h => by cases h⟩⟩
  have hs : (Setting.bare .pair).Keeping members Ask.registered Ask.registered := by
    refine ⟨(Session.sound_newIntent (Setting.bare_sound .pair) (hfits _) rfl).1, .refl _,
      fun id d e _ _ he => ?_⟩
    cases id <;> cases he
  refine ⟨hknown, hs, Ask.keeping_after (Setting.bare_safe .pair) hm hs fun q hq => ?_⟩
  obtain ⟨question, hquestion, rfl⟩ := List.mem_map.mp hq
  simp only [List.mem_cons, List.not_mem_nil, or_false] at hquestion
  rcases hquestion with rfl | rfl | rfl | rfl <;> exact ⟨hknown, trivial⟩

/-- A lazy node-set, before and after its nodes are kept, is split at the second of its two members,
which is given twice. -/
theorem sets_split_at_first_of_kept : ∃ (members : NodeSet → List Node) (a b l r : NodeSet)
    (s t : Session), (s.intent 0).extent = none ∧ (t.intent 0).extent.isSome = true ∧
    ((leading .bare (engine .bare 6) a b).attempt.run s).1 = .ok l ∧
    ((trailing .bare (engine .bare 6) a b).attempt.run t).1 = .ok r ∧
    l = .ofNodes [grandchild 0] true ∧ r = .empty ∧
    SplitsAtFirst (members a) (members b) (members l) (members r) := by
  obtain ⟨members, hm, -⟩ := NodeSet.exists_denotes Transformation.bare
  obtain ⟨ha, hs, ht⟩ := keeping_untilKept hm
  let b : NodeSet := .extent ⟨[grandchild 1, grandchild 1], false, false⟩
  have hl : ((leading .bare (engine .bare 6) (.intent 0 Ask.grandchildren) b).attempt.run
      Ask.registered).1 = .ok (.ofNodes [grandchild 0] true) := rfl
  have hr : ((trailing .bare (engine .bare 6) (.intent 0 Ask.grandchildren) b).attempt.run
      (Ask.after .bare Ask.untilKept Ask.registered)).1 = .ok .empty := rfl
  obtain ⟨hsplit, -⟩ := sets_split_at_first (Setting.bare_safe .pair) hm ha
    (known_extent Nat.one_lt_two _) hs ht 6 6
  exact ⟨members, _, b, _, _, _, _, rfl, rfl, hl, hr, rfl, rfl, hsplit _ _ hl hr⟩

/-- The sum of an extent is that of the nodes that it lists. -/
theorem sum_extent (T : Transformation) (e : Extent) (s : Session) :
    Results T (fun E => sum T E (.extent e)) s (Node.total e.nodes) s :=
  (Results.pure (Cursor.ofExtent e) s).bind (Results.drain_listed _ _ e.nodes s) |>.bind
    (Results.pure _ s)

/-- All members at once are marked as being in order. -/
theorem materialize_sorted (T : Transformation) (E : Engine) (a : NodeSet) :
    Returns (a.materialize T E) fun e => e.sorted = true := by
  have hsort (e : Extent) : Returns (.ofExcept e.sort) fun e' => e'.sorted = true := by
    refine .ofExcept fun e' hs => ?_
    unfold Extent.sort at hs
    split at hs
    · next hsorted => exact Except.ok.inj hs ▸ hsorted
    · split at hs
      · cases hs
        rfl
      · cases hd : Node.sortDistinct e.nodes with
        | error f =>
          rw [hd] at hs
          cases hs
        | ok ms =>
          rw [hd] at hs
          cases hs
          rfl
  have hone (o : Option Node) : Returns (E.extent (.ofOption o)) fun e => e.sorted = true :=
    .bind_any fun ns => .pure rfl
  cases a with
  | empty => exact hone none
  | single o navigable => exact hone o
  | extent e => exact hsort e
  | intent id d => exact .bind_any hsort

/-- A list that an enumeration delivers, and the members that it stands for. -/
structure Enumerated (members : List Node) (f : Flags) (ms : List Node) : Prop where
  mem_iff : ∀ n, n ∈ ms ↔ n ∈ members
  perm_iff : ms.Perm members ↔ ms.Nodup
  nodup : f.sorted = true ∨ f.reverse = true → ms.Nodup

theorem enumerated (hS : S.Safe) {c : Cursor} (hc : S.Ready members s₀ (members a) c s)
    (hs : S.Keeping members s₀ s) {ms : List Node}
    (h : ((engine S.transformation n).drain c).attempt.run s = (.ok ms, t)) :
    Enumerated (members a) c.flags ms := by
  have hlists := ((hc.drain hS n) hs).2.2 ms (by rw [h])
  obtain ⟨-, hrelates⟩ := ((engine_safe hS n).drain hc.sound hs.sound).2.2 ms (by rw [h])
  have hin : InOrder (members a) := hlists.1.order ▸ Node.docOrder_inOrder ms
  refine ⟨hlists.1.mem_iff, ⟨fun hp => hp.nodup_iff.mpr hin.nodup, fun hn => ?_⟩, fun hf => ?_⟩
  · exact (List.perm_ext_iff_of_nodup hn hin.nodup).mpr hlists.1.mem_iff
  · refine hrelates.imp fun {x y} hxy => ?_
    rintro rfl
    exact Node.Before.irrefl x (hf.elim hxy.sorted hxy.reverse)

/-- The sum of a node-set is taken over what an enumeration delivers, which are the members that are
counted. Each is added once just if none is delivered twice, as it is in order and in reverse order;
and when all members are had at once, they are the same for the count and for the sum. -/
theorem sum_over_counted (hS : S.Safe) (hm : NodeSet.Denotes S.transformation members)
    (ha : a.Known S s₀) (hs : S.Keeping members s₀ s) (n : Nat) :
    (∀ k, ((a.count S.transformation (engine S.transformation n)).attempt.run s).1 = .ok k →
      k = (members a).length) ∧
    (∀ x u, (sum S.transformation (engine S.transformation n) a).attempt.run s = (.ok x, u) ↔
      ∃ c t ms, (a.enumerate S.transformation (engine S.transformation n)).attempt.run s =
          (.ok c, t) ∧
        ((engine S.transformation n).drain c).attempt.run t = (.ok ms, u) ∧
        Enumerated (members a) c.flags ms ∧ x = Node.total ms) ∧
    (∀ e, ((a.materialize S.transformation (engine S.transformation n)).attempt.run s).1 = .ok e →
      e.nodes = members a ∧ ∀ t,
        Results S.transformation (fun E => (NodeSet.extent e).count S.transformation E) t
          (members a).length t ∧
        Results S.transformation (fun E => sum S.transformation E (.extent e)) t
          (Node.total (members a)) t) := by
  refine ⟨(count_observes hS hm ha n hs).2.2, fun x u => ⟨fun hx => ?_, ?_⟩, fun e he => ?_⟩
  · obtain ⟨ms, u, hms, hpure⟩ := Action.bind_ok.mp hx
    obtain ⟨c, t, hc, hms⟩ := Action.bind_ok.mp hms
    cases hpure
    obtain ⟨ht, -, hready⟩ := enumerate_observes hS hm ha n hs
    rw [hc] at ht hready
    exact ⟨c, t, ms, hc, hms, enumerated hS (hready c rfl) ht hms, rfl⟩
  · rintro ⟨c, t, ms, hc, hms, -, rfl⟩
    exact Action.bind_ok.mpr ⟨ms, u, Action.bind_ok.mpr ⟨c, t, hc, hms⟩, rfl⟩
  · obtain ⟨hnodes, -⟩ := (materialize_observes hS hm ha n hs).2.2 e he
    have hsorted : e.sorted = true := materialize_sorted _ _ a s e he
    refine ⟨hnodes, fun t => ⟨?_, hnodes ▸ sum_extent _ e t⟩⟩
    refine (Results.pure _ t).of_run fun E => ?_
    rw [NodeSet.count, Extent.sort, if_pos hsorted, ← hnodes]
    rfl

/-- Two nodes that are given in the wrong order, each once, are each added once. -/
theorem sum_over_counted_of_disorder : ∃ (members : NodeSet → List Node) (a : NodeSet)
    (s : Session) (x : Number) (ms : List Node), (members a).length = 2 ∧
    ((sum .bare (engine .bare 6) a).attempt.run s).1 = .ok x ∧ x = Node.total ms ∧
    ms.Perm (members a) := by
  obtain ⟨members, hm, -⟩ := NodeSet.exists_denotes Transformation.bare
  obtain ⟨-, hs, -⟩ := keeping_untilKept hm
  let ns := [grandchild 1, grandchild 0]
  obtain ⟨hcount, hsum, -⟩ := sum_over_counted (Setting.bare_safe .pair) hm
    (known_extent Nat.zero_lt_two _) hs 6
  have hrun : (sum .bare (engine .bare 6) (.extent ⟨ns, false, false⟩)).attempt.run
      Ask.registered = (.ok (Node.total ns), Ask.registered) := rfl
  obtain ⟨c, t, ms, hc, hms, hlists, hx⟩ := (hsum _ _).mp hrun
  cases hc
  cases hms
  have hnodup : ns.Nodup := by simp [ns, grandchild]
  exact ⟨members, _, _, _, _, (hcount 2 rfl).symm, congrArg Prod.fst hrun, rfl,
    hlists.perm_iff.mpr hnodup⟩

end Function

end PathLanguage
