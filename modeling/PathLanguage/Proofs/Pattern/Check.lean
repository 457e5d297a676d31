/- The checks of pattern steps, by the place of a node among the other nodes of its parent. They decide
whether the node is among those that the step selects from its parent: on the child axis with the
short cuts, on the attribute axis where the selection is searched. -/
import PathLanguage.Pattern.Matching
import PathLanguage.Proofs.Agreement.Pattern
import PathLanguage.Proofs.Cursor.Steps
import PathLanguage.Proofs.Number.Whole
import PathLanguage.Proofs.Selection.Lists
import PathLanguage.Proofs.Tree.Reach

namespace PathLanguage

namespace NodeTest

/-- A test that accepts nothing but what can be a child. -/
def IsOfChildren (test : NodeTest) : Prop := ∀ n : Node, test.accepts n = true → n.isAttached = false

theorem isOfChildren_of_kind {test : NodeTest} {k : NodeKind} (h : test.kind? = some k)
    (ha : k ≠ .attribute) (hn : k ≠ .namespaceNode) : test.IsOfChildren := by
  intro n hacc
  have hkind : n.kind = k := by
    cases test <;> cases h <;> simp_all [accepts]
  cases n with
  | root | child => rfl
  | «attribute» => exact absurd hkind.symm ha
  | namespaceNode => exact absurd hkind.symm hn

theorem isOfChildren_anyChild : anyChild.IsOfChildren := by
  intro n hacc
  cases n with
  | root | child => rfl
  | «attribute» | namespaceNode => cases hacc

theorem isOfChildren_nothing : nothing.IsOfChildren := fun _ h => nomatch h

end NodeTest

namespace Grammar

open NodeTest

theorem kindTest_child (nodeType : String) :
    (kindTest nodeType).Gives fun t => t = .any ∨ t.IsOfChildren := by
  unfold kindTest
  split
  · exact .pure (.inl rfl)
  · exact .pure (.inr (isOfChildren_of_kind rfl nofun nofun))
  · exact .pure (.inr (isOfChildren_of_kind rfl nofun nofun))
  · refine .bind_any fun next => ?_
    split
    · refine .bind_any fun _ => ?_
      split
      · exact .pure (.inr (isOfChildren_of_kind rfl nofun nofun))
      · exact .pure (.inr isOfChildren_nothing)
    · exact .pure (.inr (isOfChildren_of_kind rfl nofun nofun))

theorem nodeTest_child : (nodeTest .child).Gives fun t => t = .any ∨ t.IsOfChildren := by
  refine .bind_any fun next => ?_
  split
  · exact .bind_any fun _ => .bind_any fun _ => .pure (.inr (isOfChildren_of_kind rfl nofun nofun))
  · exact .bind_any fun _ => .bind_any fun _ => .bind_any fun _ =>
      .pure (.inr (isOfChildren_of_kind rfl nofun nofun))
  · exact .bind_any fun _ => .pure (.inr (isOfChildren_of_kind rfl nofun nofun))
  · refine .bind_any fun _ => (kindTest_child _).bind fun t ht => .bind_any fun _ => .pure ?_
    split
    · exact .inr isOfChildren_nothing
    · exact ht
  · exact .bind_any fun _ => .fail

/-- A child step of a pattern tests for what can be a child. -/
theorem patternTest_child : (patternTest .child).Gives NodeTest.IsOfChildren := by
  refine .bind_any fun _ => .ite (fun _ => .bind_any fun _ => .fail_bind) fun _ => ?_
  refine nodeTest_child.bind fun t ht => ?_
  cases t with
  | any => exact .pure isOfChildren_anyChild
  | _ => exact .pure (ht.resolve_left nofun)

end Grammar

namespace Node

variable {m n : Node} {axis : Axis} {test : NodeTest} {ns : List Node}

/-- The children that pass a test, with a node among them: those before it are its preceding
siblings, the nearest first, and those after it are its following siblings. -/
theorem step_child_split (hn : n.Valid) (hp : n.parent = some m) (ha : n.isAttached = false)
    (ht : test.accepts n = true) : ∃ before after,
      m.step .child test = before ++ n :: after ∧
      n.step .precedingSibling test = before.reverse ∧ n.step .followingSibling test = after := by
  cases n with
  | root d => cases hp
  | «attribute» | namespaceNode => cases ha
  | child p i t =>
    obtain rfl := Option.some.inj hp
    refine ⟨(p.children.take i).filter fun o => test.accepts o,
      (p.children.drop (i + 1)).filter fun o => test.accepts o, ?_, List.filter_reverse, rfl⟩
    have hsplit := congrArg (List.filter fun o => test.accepts o) (children_split hn)
    rwa [List.filter_append, List.filter_cons, if_pos ht] at hsplit

theorem step_nodup (m : Node) (axis : Axis) (test : NodeTest) : (m.step axis test).Nodup :=
  (along_nodup m axis).filter _

/-- A node is found among nodes on an axis of its parent just if it is one of them. -/
theorem any_same_iff (hn : n.Valid) (hp : n.parent = some m) (hns : ∀ o ∈ ns, o ∈ m.along axis) :
    ns.any n.same = true ↔ n ∈ ns := by
  have hnode : (Forest.single n.document).Holds n := ⟨List.mem_singleton.mpr rfl, hn⟩
  have hall : (Forest.single n.document).HoldsAll ns := fun o ho =>
    (hnode.parent hp).along axis o (hns o ho)
  exact hall.any_same_iff hnode

end Node

namespace Oracle

variable {J : Oracle} {p : Expr} {c : Context} {n : Node} {ns ms : List Node}

/-- A predicate says of each node in its place whether it is left. -/
theorem Picks.said {size position i : Nat} (h : J.Picks p c size position ns ms) (hd : ns.Nodup)
    (hn : ns[i]? = some n) :
    ∃ b, J.truth p c n (position + i + 1) size b ∧ (b = true ↔ n ∈ ms) := by
  induction h generalizing i with
  | nil => cases hn
  | @pick position m ns ms ht hrest ih =>
    obtain ⟨hm, hd⟩ := List.nodup_cons.mp hd
    cases i with
    | zero =>
      obtain rfl := Option.some.inj hn
      exact ⟨true, ht, by simp⟩
    | succ i =>
      obtain ⟨b, hb, hiff⟩ := ih hd hn
      have hne : n ≠ m := fun he => hm (he ▸ List.mem_of_getElem? hn)
      refine ⟨b, ?_, hiff.trans (by simp [hne])⟩
      rwa [show position + (i + 1) + 1 = position + 1 + i + 1 by omega]
  | @pass position m ns ms ht hrest ih =>
    obtain ⟨hm, hd⟩ := List.nodup_cons.mp hd
    cases i with
    | zero =>
      obtain rfl := Option.some.inj hn
      exact ⟨false, ht, iff_of_false nofun fun hmem => hm (hrest.sublist.subset hmem)⟩
    | succ i =>
      obtain ⟨b, hb, hiff⟩ := ih hd hn
      refine ⟨b, ?_, hiff⟩
      rwa [show position + (i + 1) + 1 = position + 1 + i + 1 by omega]

end Oracle

end PathLanguage

namespace PathLanguage

open Conditions

variable {K : Conditions} {J : Oracle} {T : Transformation} {c : Context} {p : Expr}
  {ps : List Expr} {m n : Node} {test : NodeTest} {axis : Axis} {ns ms before after : List Node}

/-- A predicate that is not positional and no selection is asked for as a boolean just as it is
judged. -/
theorem Expr.boolean_eq_judge_of_unplaced (hp : p.isPositional = false)
    (hs : p.isNodeSetExpr = false) (focus : Context) (depth : Nat) :
    ∃ d, depth ≤ d ∧ (engine T (depth + 1)).boolean p focus =
      p.judge T (engine T d) (engine T depth) focus := by
  obtain ⟨-, -, htype⟩ := of_not_positional hp
  rw [not_or] at htype
  by_cases hb : p.type = .boolean
  · exact boolean_eq_judge hb (engine T depth) focus depth
  refine ⟨depth, Nat.le_refl _, ?_⟩
  have hvalue : (do (← (engine T depth).value p focus).asBoolean T (engine T depth)) =
      p.judge T (engine T depth) (engine T depth) focus := by
    refine (engine_value_has T depth p focus).bind_congr fun v hv => ?_
    cases v with
    | number x => exact absurd (hv htype.2).symm htype.1
    | _ => rfl
  rw [← hvalue]
  cases p with
  | root | contextNode | parentNode | currentNode | «attribute» | path | axis | filter | set
  | distinct | distinctBy | sorted => cases hs
  | logical | compare | compareNode | compareNodes | positionRange | isLast => exact absurd rfl hb
  | _ => rfl

section answers

/-- Under the conditions a predicate is judged as an oracle says, and one that selects nodes is asked
for as a boolean with the same answer. -/
structure Conditions.Answers (K : Conditions) (J : Oracle) (c : Context) (p : Expr) (n : Node)
    (position size : Nat) : Prop where
  judged : K.Follows J c p n position size
  asked : p.isNodeSetExpr = true →
    K.Succeeds (fun E => E.boolean p (c.withNode n)) (J.truth p c n position size)

/-- Places do not matter to a predicate that is not positional. -/
theorem Conditions.Judges.unplaced {Q : Bool → Prop} {position size position' size' : Nat}
    (h : K.Judges p (c.withFocus n position size) Q) (hp : p.isPositional = false) :
    K.Judges p (c.withFocus n position' size') Q := by
  obtain ⟨hposition, hlast, htype⟩ := Expr.of_not_positional hp
  exact h.like (Context.like_withFocus c n (by simp [hposition]) (by simp [hlast]))
    fun hn => absurd hn htype

theorem Conditions.Answers.boolean {position size : Nat} (h : K.Answers J c p n position size)
    (hp : p.isPositional = false) :
    (K.deeper 1).Succeeds (fun E => E.boolean p (c.withNode n)) (J.truth p c n position size) := by
  cases hs : p.isNodeSetExpr with
  | true => exact (h.asked hs).deeper 1
  | false =>
    have hjudged : K.Judges p (c.withNode n) (J.truth p c n position size) := h.judged.unplaced hp
    refine hjudged.succeeds 1 fun depth => ?_
    obtain ⟨d, hd, he⟩ := Expr.boolean_eq_judge_of_unplaced hp hs (c.withNode n) depth
    exact ⟨d, depth, hd, Nat.le_refl _, he⟩

end answers

namespace PositionCheck

/-- How the check of a step is chosen. -/
inductive Chosen (axis : Axis) (test : NodeTest) (ps : List Expr) : PositionCheck → Prop
  | first {p : Expr} : ps = [p] → asksFirst p = true → axis = .child →
      test.kind? = some .element → Chosen axis test ps .first
  | last {p : Expr} : ps = [p] → asksLast p = true → Chosen axis test ps .last
  | among : ps.any Expr.isPositional = true →
      Chosen axis test ps (.among (.path .parentNode axis test ps))
  | none : ps.any Expr.isPositional = false → Chosen axis test ps .none

theorem ofPredicates_chosen (axis : Axis) (test : NodeTest) (ps : List Expr) :
    Chosen axis test ps (ofPredicates axis test ps) := by
  have hgeneral : Chosen axis test ps (if ps.any Expr.isPositional then
      .among (.path .parentNode axis test ps) else .none) := by
    split
    · exact .among ‹_›
    · exact .none (Bool.not_eq_true _ ▸ ‹_›)
  unfold ofPredicates
  extract_lets general
  split
  · next only =>
    split
    · next h =>
      rw [Bool.and_eq_true, Bool.and_eq_true, beq_iff_eq, beq_iff_eq] at h
      exact .first rfl h.1.1 h.1.2 h.2
    · split
      · exact .last rfl ‹_›
      · exact hgeneral
  · exact hgeneral

/-- A predicate that asks for the first position, and is not another constant that is one as a
number, is decided by the position. -/
theorem ofPredicate_of_asksFirst (h : asksFirst p = true)
    (hv : ∀ v, p = .value v → isOne v = true → ∃ x, v = .number x) :
    Strategy.ofPredicate p = .positions 1 1 := by
  cases p with
  | value v =>
    obtain ⟨x, rfl⟩ := hv v rfl h
    have hx : Strategy.position? x = some 1 :=
      (Strategy.eq_position Nat.one_pos (by decide)).mp h
    simp only [Strategy.ofPredicate, hx]
  | positionRange least most =>
    obtain ⟨hl, hm⟩ := (Bool.and_eq_true _ _).mp h
    rw [beq_iff_eq] at hl hm
    rw [hl, hm]
    rfl
  | _ => cases h

/-- A predicate that asks for the last position is judged by it. -/
theorem judged_of_asksLast {Q : Bool → Prop} {position size : Nat} (h : asksLast p = true)
    (hp : K.Judges p (c.withFocus n position size) Q) (hposition : position < 1 <<< 53)
    (hsize : size < 1 <<< 53) {s : Session} (hs : K.met s) : Q (position == size) := by
  obtain ⟨b, t, hr, hb, -⟩ := hp (K.depth + 2) (K.depth + 2) (by omega) (by omega) s hs
  unfold asksLast at h
  split at h
  · next wanted =>
    subst h
    cases hr
    simpa [Context.withFocus] using hb
  · cases hr
    have hsame : (Number.ofNat size).eq (.ofNat position) = (position == size) := by
      rw [Bool.eq_iff_iff, Number.ofNat_eq_ofNat hsize hposition, beq_iff_eq]
      exact eq_comm
    rw [← hsame]
    exact hb
  · cases h

/-- On the attribute axis the one short cut is that for a lone test for the last position. -/
theorem ofPredicates_attribute {test : NodeTest} {ps : List Expr}
    (hps : ps.any Expr.isPositional = true) (hlast : ∀ p, ps = [p] → asksLast p = false) :
    ofPredicates .attribute test ps = .among (.path .parentNode .attribute test ps) := by
  have hchosen := ofPredicates_chosen .attribute test ps
  generalize ofPredicates .attribute test ps = check at hchosen
  cases hchosen with
  | first _ _ haxis => cases haxis
  | last he hasks => cases (hlast _ he).symm.trans hasks
  | among => rfl
  | none hnone => cases hps.symm.trans hnone

end PositionCheck

namespace Pattern

section checks

/-- Predicates that are not positional, tried one after the other of a node on its own, hold of it if
it is one of those that they leave. -/
theorem holdAll_succeeds (hJ : J.Definite) {i : Nat} (hn : ns[i]? = some n) (hd : ns.Nodup)
    (hps : ∀ p ∈ ps, p.isPositional = false) (hp : J.Along c (K.Answers J c) ps ns)
    (hms : J.Narrows c ps ns ms) :
    (K.deeper 1).Succeeds (fun E => holdAll E (c.withNode n) ps) (fun b => b = true ↔ n ∈ ms) := by
  induction hms generalizing i with
  | nil ns => exact Succeeds.pure (iff_of_true rfl (List.mem_of_getElem? hn))
  | @cons p ps ns ks ms hks hms ih =>
    obtain ⟨hnow, hlater⟩ := hp
    obtain ⟨hpos, hps⟩ := List.forall_mem_cons.mp hps
    obtain ⟨b, hb, hiff⟩ := hks.said hd hn
    rw [Nat.zero_add] at hb
    refine Succeeds.bind ((hnow i n hn).boolean hpos) fun b' hb' => ?_
    obtain rfl : b = b' := (hJ p c n (i + 1) ns.length).unique hb hb'
    cases b with
    | true =>
      obtain ⟨j, hj⟩ := List.getElem?_of_mem (hiff.mp rfl)
      exact ih hj (hd.sublist hks.sublist) hps (hlater ks hks)
    | false =>
      have hgone : n ∉ ms := fun hmem => nomatch hiff.mpr (hms.sublist.subset hmem)
      exact Succeeds.pure (iff_of_false nofun hgone)

/-- A lone predicate leaves a node just if its judgement in the place of the node is true. -/
theorem left_iff (hJ : J.Definite) (hd : (before ++ n :: after).Nodup)
    (hms : J.Narrows c [p] (before ++ n :: after) ms) {b : Bool}
    (hb : J.truth p c n (before.length + 1) (before ++ n :: after).length b) :
    n ∈ ms ↔ b = true := by
  cases hms with
  | cons hks hms =>
    cases hms
    obtain ⟨b', hb', hiff⟩ := hks.said hd (i := before.length) (n := n) (by simp)
    rw [Nat.zero_add] at hb'
    rw [← hiff, (hJ p c n _ _).unique hb hb']

/-- A short cut asks whether there is any node on an axis, which is to say what the predicate says in
the place of the node. -/
theorem absent_succeeds (hJ : J.Definite) (hn : n.Valid) (hd : (before ++ n :: after).Nodup)
    (hms : J.Narrows c [p] (before ++ n :: after) ms) {b : Bool}
    (hb : b = true ↔ n.step axis test = [])
    (hp : ∀ s, K.met s → J.truth p c n (before.length + 1) (before ++ n :: after).length b) :
    (K.deeper 1).Succeeds (fun E => do return (← E.head (.onAxis n axis test)).isNone)
      (fun b => b = true ↔ n ∈ ms) := by
  refine Gives.suppose fun ⟨s, hmet⟩ => ?_
  refine Succeeds.bind (Cursor.supplies_onAxis K hn axis test).head fun o ho => Succeeds.pure ?_
  rw [ho, Option.isNone_iff_eq_none, List.head?_eq_none_iff, left_iff hJ hd hms (hp s hmet), hb]

theorem first_succeeds (hJ : J.Definite) (hn : n.Valid) (hd : (before ++ n :: after).Nodup)
    (hk : (before ++ n :: after).length < 1 <<< 53)
    (hbefore : n.step .precedingSibling test = before.reverse)
    (hp : J.Along c (K.Answers J c) [p] (before ++ n :: after))
    (hms : J.Narrows c [p] (before ++ n :: after) ms)
    (hs : Strategy.ofPredicate p = .positions 1 1) :
    (K.deeper 1).Succeeds
      (fun E => do return (← E.head (.onAxis n .precedingSibling test)).isNone)
      (fun b => b = true ↔ n ∈ ms) := by
  refine absent_succeeds hJ hn hd hms ?_ fun s hmet => Cursor.judged_of_positions hs
    (Nat.succ_pos before.length) ?_ (hp.1 before.length n (by simp)).judged hmet
  · rw [hbefore, List.reverse_eq_nil_iff]
    simp
  · rw [List.length_append, List.length_cons] at hk
    omega

theorem last_succeeds (hJ : J.Definite) (hn : n.Valid) (hd : (before ++ n :: after).Nodup)
    (hk : (before ++ n :: after).length < 1 <<< 53)
    (hafter : n.step .followingSibling test = after)
    (hp : J.Along c (K.Answers J c) [p] (before ++ n :: after))
    (hms : J.Narrows c [p] (before ++ n :: after) ms) (hs : PositionCheck.asksLast p = true) :
    (K.deeper 1).Succeeds
      (fun E => do return (← E.head (.onAxis n .followingSibling test)).isNone)
      (fun b => b = true ↔ n ∈ ms) := by
  refine absent_succeeds hJ hn hd hms ?_ fun s hmet => PositionCheck.judged_of_asksLast hs
    (hp.1 before.length n (by simp)).judged ?_ hk hmet
  · rw [hafter]
    simp
  · rw [List.length_append, List.length_cons] at hk
    omega

theorem among_succeeds {e : Expr} (hn : n.Valid) (hp : n.parent = some m)
    (hms : ∀ o ∈ ms, o ∈ m.along axis) {more : Nat}
    (he : (K.deeper more).Succeeds (fun E => E.cursor e (c.withNode n) false)
      (Cursor.Supplies (K.deeper more) ms)) :
    (K.deeper (more + (ms.length + 1))).Succeeds
      (fun E => do E.find n.same (← E.cursor e (c.withNode n) false))
      (fun b => b = true ↔ n ∈ ms) := by
  rw [← K.deeper_deeper]
  refine Succeeds.bind (he.deeper _) fun r hr => (hr.find n.same).imp fun b hb => ?_
  rw [hb, Node.any_same_iff hn hp hms]

end checks

/-- On the child axis the check of a pattern step decides whether the node is one of those that the
step selects from its parent: the short cuts for a first and a last position, each predicate on its
own, and the selection itself. The one exception is a lone constant predicate that is one as a
number without being a number. -/
theorem passes_child_step (K : Conditions) {J : Oracle} (hJ : J.Definite) {m n : Node}
    {test : NodeTest} {ps : List Expr} {c : Context} (hn : n.Valid) (hp : n.parent = some m)
    (htest : test.IsOfChildren) (ht : test.accepts n = true)
    (hk : (m.step .child test).length < 1 <<< 53)
    (hanswers : J.Along c.ambient (K.Answers J c.ambient) ps (m.step .child test))
    (hone : ∀ v, ps = [.value v] → test.kind? = some .element → PositionCheck.isOne v = true →
      ∃ x, v = .number x) :
    ∃ selected more, J.Narrows c.ambient ps (m.step .child test) selected ∧
      (K.deeper more).Succeeds
        (fun E => do E.drain (← E.cursor (.path .parentNode .child test ps) (c.withNode n) false))
        (· = selected) ∧
      (K.deeper more).Succeeds
        (fun E => passes E ⟨.child, test, ps, .ofPredicates .child test ps⟩ n c)
        (fun b => b = true ↔ n ∈ selected) := by
  obtain ⟨before, after, hsplit, hbefore, hafter⟩ := Node.step_child_split hn hp (htest n ht) ht
  have hd := m.step_nodup .child test
  obtain ⟨ms, hms⟩ := hJ.narrows c.ambient ps (m.step .child test)
  obtain ⟨more, hpath⟩ := Cursor.path_supplies (K := K) hJ (hn.parent hp).1 hp rfl hk
    (hanswers.imp fun _ _ _ _ h => h.judged) hms
  have hdrain : (K.deeper (more + (ms.length + 1))).Succeeds
      (fun E => do E.drain (← E.cursor (.path .parentNode .child test ps) (c.withNode n) false))
      (· = ms) := by
    rw [← K.deeper_deeper]
    exact Succeeds.bind (hpath.deeper _) fun r hr => hr.streams.drain
  have hcheck : (K.deeper (more + (ms.length + 1))).Succeeds
      (fun E => passes E ⟨.child, test, ps, .ofPredicates .child test ps⟩ n c)
      (fun b => b = true ↔ n ∈ ms) := by
    have hchosen := PositionCheck.ofPredicates_chosen .child test ps
    generalize PositionCheck.ofPredicates .child test ps = check at hchosen
    rw [hsplit] at hd hk hanswers hms
    cases hchosen with
    | first hps hasks _ hkind =>
      subst hps
      have hstrategy := PositionCheck.ofPredicate_of_asksFirst hasks
        fun v hv => hone v (by rw [hv]) hkind
      exact (first_succeeds hJ hn hd hk hbefore hanswers hms hstrategy).atLeast (by omega)
    | last hps hasks =>
      subst hps
      exact (last_succeeds hJ hn hd hk hafter hanswers hms hasks).atLeast (by omega)
    | among =>
      have hstep : ∀ o ∈ ms, o ∈ m.step .child test := fun o ho =>
        hsplit.symm ▸ hms.sublist.subset ho
      exact among_succeeds hn hp (fun o ho => List.mem_of_mem_filter (hstep o ho)) hpath
    | none hps =>
      have hmem : (before ++ n :: after)[before.length]? = some n := by simp
      refine (holdAll_succeeds hJ hmem hd (fun p hp => ?_) hanswers hms).atLeast (by omega)
      simpa using List.any_eq_false.mp hps p hp
  exact ⟨ms, more + (ms.length + 1), hms, hdrain, hcheck⟩

/-- Of two sibling elements the second one is the last, and the check of the step says so. -/
theorem passes_child_step_last : ∃ m n : Node, ∃ more, n.parent = some m ∧
    ((Conditions.mk .bare (fun _ => True) 3).deeper more).Succeeds
      (fun E => passes E ⟨.child, .ofKind .element, [.isLast true],
        .ofPredicates .child (.ofKind .element) [.isLast true]⟩ n .blank) (· = true) := by
  let leaf := Tree.element (.unqualified "e") none [] [] []
  let m := Node.child (.root .pair) 0 (.element (.unqualified "e") none [] [] [leaf, leaf])
  let n := Node.child m 1 leaf
  have hm : m.Valid := Node.valid_child.mpr ⟨.root .pair, rfl⟩
  have hn : n.Valid := Node.valid_child.mpr ⟨hm, rfl⟩
  let J : Oracle := ⟨fun _ _ _ i k b => b = (i == k), fun _ _ _ _ => True,
    fun _ _ _ => True, fun _ _ => True⟩
  have hJ : J.Definite := fun _ _ _ i k => ⟨i == k, rfl, fun _ h => h⟩
  have hp : ∀ i k o,
      (Conditions.mk .bare (fun _ => True) 3).Answers J .blank (.isLast true) o i k := by
    refine fun i k o => ⟨fun d d' hd hd' s hs => ?_, nofun⟩
    obtain ⟨d, rfl⟩ := Nat.exists_eq_add_of_le' hd
    exact ⟨(i == k) == true, s, rfl, by simp [J], trivial⟩
  obtain ⟨selected, more, hselected, -, hpasses⟩ := @passes_child_step ⟨.bare, fun _ => True, 3⟩
    J hJ m n (.ofKind .element) [.isLast true] .blank hn rfl
    (NodeTest.isOfChildren_of_kind rfl nofun nofun) rfl (by decide)
    ⟨fun i o _ => hp (i + 1) _ o, fun _ _ => trivial⟩ nofun
  have hstep : m.step .child (.ofKind .element) = [.child m 0 leaf] ++ n :: [] := rfl
  have hd := m.step_nodup .child (.ofKind .element)
  rw [hstep] at hd hselected
  exact ⟨m, n, more, rfl, hpasses.imp fun b hb => hb.mpr ((left_iff hJ hd hselected rfl).mpr rfl)⟩

/-- An attribute matches a step with a positional predicate, other than a lone test for the last
position, just if it is one of the nodes that the step selects from its element: whenever these can
be read out, the match is decided, whatever the session. -/
theorem accepts_attribute_step (T : Transformation) {m n : Node} {test : NodeTest}
    {ps : List Expr} {c : Context} (hm : m.Valid) (hn : n ∈ m.attributes)
    (ht : test.accepts n = true) (hps : ps.any Expr.isPositional = true)
    (hlast : ∀ p, ps = [p] → PositionCheck.asksLast p = false) {depth : Nat} {s t : Session}
    {ns : List Node}
    (hr : (do (engine T depth).drain (← (engine T depth).cursor
      (.path .parentNode .attribute test ps) (c.withNode n) false)).attempt.run s = (.ok ns, t)) :
    ∃ b u, ((ofStep .attribute test ps none).accepts (engine T depth) n c).attempt.run s =
      (.ok b, u) ∧ (b = true ↔ n ∈ ns) := by
  have hvalid : n.Valid := .attribute hm hn
  have hp : n.parent = some m := Node.parent_of_mem_attributes hn
  have hnonempty : ps.isEmpty = false := by
    cases ps with
    | nil => cases hps
    | cons p ps => rfl
  obtain ⟨r, v, hcursor, hdrain⟩ := Action.bind_ok.mp hr
  obtain ⟨u, hfind⟩ := Cursor.find_of_drain n.same hdrain
  have haccepts : ((ofStep .attribute test ps none).accepts (engine T depth) n c).attempt.run s =
      (.ok (ns.any n.same), u) := by
    simp only [ofStep, hnonempty, PositionCheck.ofPredicates_attribute hps hlast,
      Bool.false_eq_true, if_false, accepts, ht, if_true]
    exact (Action.run_bind_ok hcursor).trans hfind
  exact ⟨_, u, haccepts,
    Node.any_same_iff hvalid hp (Cursor.drain_fromParent hm hp rfl hcursor hdrain)⟩

/-- The second of two attributes matches a step for the second position. -/
theorem accepts_attribute_step_second : ∃ m n : Node, ∃ u, n ∈ m.attributes ∧
    ((ofStep .attribute (.ofKind .attribute) [.positionRange 2 2] none).accepts
      (engine .bare 9) n .blank).attempt.run {} = (.ok true, u) := by
  let a : Attribute := ⟨.unqualified "a", "1"⟩
  let b : Attribute := ⟨.unqualified "b", "2"⟩
  let m : Node := .root ⟨0, false, .element (.unqualified "r") none [] [a, b] []⟩
  have hn : Node.attribute m 1 b ∈ m.attributes := by simp [m, Node.mem_attributes]; rfl
  obtain ⟨t, hr⟩ : ∃ t, (do (engine .bare 9).drain (← (engine .bare 9).cursor
      (.path .parentNode .attribute (.ofKind .attribute) [.positionRange 2 2])
      (Context.blank.withNode (.attribute m 1 b)) false)).attempt.run {} =
        (.ok [.attribute m 1 b], t) := ⟨_, rfl⟩
  obtain ⟨matched, u, hu, hiff⟩ := accepts_attribute_step .bare (.root _) hn rfl rfl
    (by rintro p ⟨⟩; rfl) hr
  obtain rfl : matched = true := hiff.mpr List.mem_cons_self
  exact ⟨m, _, u, hn, hu⟩

end Pattern

end PathLanguage
