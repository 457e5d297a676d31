/- Reading an axis to its end delivers the nodes that the definition of the axis puts on it, each once
and in axis order. -/
import PathLanguage.Evaluation
import PathLanguage.Proofs.Selection.Plain
import PathLanguage.Proofs.Tree.Reach

namespace PathLanguage.Cursor

open Node (InTreeOf)

/-- An engine that is deep enough reads out what is listed. -/
theorem drain_listed (T : Transformation) (f : Flags) (size : Option Nat) (ns : List Node)
    {depth : Nat} (h : ns.length + 2 ≤ depth) :
    (engine T depth).drain (.listed f size ns) = pure ns := by
  induction ns generalizing depth with
  | nil =>
    obtain ⟨k, rfl⟩ := Nat.exists_eq_add_of_le' h
    rfl
  | cons n ns ih =>
    obtain ⟨k, rfl⟩ := Nat.exists_eq_add_of_le' h
    have hpull : (engine T (k + ns.length + 2)).pull (.listed f size (n :: ns)) =
        pure (some n, .listed f size ns) := rfl
    have hrest := @ih (k + ns.length + 2) (by omega)
    show Cursor.drain (engine T (k + ns.length + 2)) _ = _
    rw [Cursor.drain, hpull, pure_bind]
    show (do return n :: (← (engine T (k + ns.length + 2)).drain (.listed f size ns))) = _
    rw [hrest, pure_bind]

theorem drain_onAxis (T : Transformation) {o : Node} (ho : o.Valid) (a : Axis) (test : NodeTest)
    {depth : Nat} (h : (o.step a test).length + 2 ≤ depth) :
    (engine T depth).drain (.onAxis o a test) = pure (o.step a test) := by
  simp only [onAxis, Walk.nodes_start ho]
  exact drain_listed T _ _ _ h

/-- What reading an axis to its end delivers, whatever the session: the nodes of the tree that are on
the axis and pass the test, each once, in document order or in its reverse. From every node the
others but attributes and namespace nodes are divided into those above, below, later and earlier,
and attributes and namespace nodes have no siblings. -/
theorem onAxis_delivers (T : Transformation) {o : Node} (ho : o.Valid) :
    ∃ delivered : Axis → NodeTest → List Node,
      (∀ a test,
        (∀ depth s, (delivered a test).length + 2 ≤ depth →
          ((engine T depth).drain (.onAxis o a test)).attempt.run s = (.ok (delivered a test), s)) ∧
        (delivered a test).Nodup ∧
        (a.isForward = true → (delivered a test).Pairwise Node.Before) ∧
        (a.isReverse = true → (delivered a test).Pairwise fun m n => n.Before m) ∧
        ∀ n, n ∈ delivered a test ↔ n.InTreeOf o ∧ a.Joins o n ∧ test.accepts n = true) ∧
      (o.isAttached = false → ∀ n, n.InTreeOf o ∧ n.isAttached = false ↔
        ∃! a, a ∈ [Axis.self, .ancestor, .descendant, .following, .preceding] ∧
          n ∈ delivered a .any) ∧
      (o.isAttached = true → ∀ n, n.InTreeOf o ∧ n.isAttached = false ↔
        ∃! a, a ∈ [Axis.ancestor, .descendant, .following, .preceding] ∧ n ∈ delivered a .any) ∧
      (o.isAttached = true → ∀ test,
        delivered .followingSibling test = [] ∧ delivered .precedingSibling test = []) := by
  have hany : ∀ a, o.step a .any = o.along a := fun a => by simp [Node.step, NodeTest.accepts]
  refine ⟨o.step, fun a test => ⟨fun depth s h => ?_, ?_, fun hf => ?_, fun hr => ?_, fun n => ?_⟩,
    fun ho' n => ?_, fun ho' n => ?_, fun ho' test => ?_⟩
  · rw [drain_onAxis T ho a test h]
    rfl
  · exact (Node.along_nodup o a).filter _
  · exact (Node.along_ascending hf o).sublist List.filter_sublist
  · exact (List.pairwise_reverse.mp (Node.along_descending hr o)).sublist List.filter_sublist
  · rw [Node.step, List.mem_filter]
    constructor
    · rintro ⟨hn, ht⟩
      have hin := InTreeOf.along ho hn
      exact ⟨hin, (Node.mem_along_iff ho hin a).mp hn, ht⟩
    · rintro ⟨hin, hj, ht⟩
      exact ⟨(Node.mem_along_iff ho hin a).mpr hj, ht⟩
  · simp only [hany]
    constructor
    · rintro ⟨hin, hna⟩
      exact Node.exists_unique_along ho hin hna
    · rintro ⟨a, ⟨had, hn⟩, -⟩
      refine ⟨InTreeOf.along ho hn, ?_⟩
      rcases List.mem_cons.mp had with rfl | had
      · exact List.mem_singleton.mp hn ▸ ho'
      · exact Node.isAttached_of_mem_along ho had hn
  · simp only [hany]
    constructor
    · rintro ⟨hin, hna⟩
      obtain ⟨a, ⟨had, hn⟩, hu⟩ := Node.exists_unique_along ho hin hna
      rcases List.mem_cons.mp had with rfl | had
      · rw [List.mem_singleton.mp hn, ho'] at hna
        cases hna
      · exact ⟨a, ⟨had, hn⟩, fun b hb => hu b ⟨List.mem_cons_of_mem _ hb.1, hb.2⟩⟩
    · rintro ⟨a, ⟨had, hn⟩, -⟩
      exact ⟨InTreeOf.along ho hn, Node.isAttached_of_mem_along ho had hn⟩
  · cases o with
    | root d => cases ho'
    | child p i t => cases ho'
    | «attribute» p i a => exact ⟨rfl, rfl⟩
    | namespaceNode p i b => exact ⟨rfl, rfl⟩

/-- The first of two sibling elements precedes the second one. -/
theorem onAxis_delivers_preceding : ∃ (o n : Node) (ns : List Node), o.Valid ∧ n.Before o ∧
    (∀ depth s, ns.length + 2 ≤ depth →
      ((engine .bare depth).drain (.onAxis o .preceding .any)).attempt.run s = (.ok ns, s)) ∧
    n ∈ ns := by
  let leaf := Tree.element (.unqualified "e") none [] [] []
  let element := Node.child (.root .pair) 0 (.element (.unqualified "e") none [] [] [leaf, leaf])
  have hvalid : element.Valid := Node.valid_child.mpr ⟨.root .pair, rfl⟩
  have ho : (Node.child element 1 leaf).Valid := Node.valid_child.mpr ⟨hvalid, rfl⟩
  have hn : (Node.child element 0 leaf).Valid := Node.valid_child.mpr ⟨hvalid, rfl⟩
  have hbefore : (Node.child element 0 leaf).Before (.child element 1 leaf) := rfl
  have habove : ¬ (Node.child element 0 leaf).Above (.child element 1 leaf) := by
    simp [Node.above_iff, Node.ancestors, element]
  obtain ⟨delivered, hd, -⟩ := onAxis_delivers .bare ho
  obtain ⟨hdrain, -, -, -, hmem⟩ := hd .preceding .any
  exact ⟨_, _, _, ho, hbefore, hdrain, (hmem _).mpr ⟨⟨hn, rfl⟩, ⟨hbefore, habove, rfl⟩, rfl⟩⟩

end PathLanguage.Cursor
