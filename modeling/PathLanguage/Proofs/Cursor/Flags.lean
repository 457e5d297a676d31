/- What a cursor says of its order holds of the nodes it delivers, however it is nested. -/
import PathLanguage.Evaluation
import PathLanguage.Proofs.Session.Returns
import PathLanguage.Proofs.Tree.Walk

namespace PathLanguage

namespace Node

/-- Two nodes at or above a third one are at or above each other. -/
theorem Within.linear {a b c : Node} (ha : Within a c) (hb : Within b c) :
    Within a b ∨ Within b a := by
  have key : ∀ p n : Node, n.ancestors = p :: p.ancestors →
      (∀ {a b : Node}, Within a p → Within b p → Within a b ∨ Within b a) →
      ∀ {a b : Node}, Within a n → Within b n → Within a b ∨ Within b a := by
    intro p n hp ih a b ha hb
    have hw : ∀ {a : Node}, Within a n → a = n ∨ Within a p := by
      rintro a (rfl | ha)
      · exact .inl rfl
      · rw [hp, List.mem_cons] at ha
        exact .inr ha
    rcases hw ha with rfl | ha'
    · exact .inr hb
    · rcases hw hb with rfl | hb'
      · exact .inl ha
      · exact ih ha' hb'
  induction c generalizing a b with
  | root d =>
    obtain rfl : a = .root d := by simpa [Within, ancestors] using ha
    obtain rfl : b = .root d := by simpa [Within, ancestors] using hb
    exact .inl (.inl rfl)
  | child p i t ih => exact key p _ rfl ih ha hb
  | «attribute» p i x ih => exact key p _ rfl ih ha hb
  | namespaceNode p i x ih => exact key p _ rfl ih ha hb

theorem separate_of_within {a b x y : Node} (hne : a ≠ b) (h : Separate a b) (hx : Within a x)
    (hy : Within b y) : Separate x y := by
  have key : ∀ {a b x y : Node}, a ≠ b → Separate a b → Within a x → Within b y →
      x ∉ y.ancestors := by
    intro a b x y hne h hx hy hxy
    rcases (hx.trans (.inr hxy)).linear hy with (rfl | hab) | (rfl | hba)
    · exact hne rfl
    · exact h.1 hab
    · exact hne rfl
    · exact h.2 hba
  exact ⟨key hne h hx hy, key hne.symm h.symm hy hx⟩

end Node

namespace Flags

/-- What the flags of a cursor say of one delivered node and a later one. -/
structure Relates (f : Flags) (a b : Node) : Prop where
  sorted : f.sorted = true → a.Before b
  reverse : f.reverse = true → b.Before a
  peer : f.peer = true → a.Separate b

/-- All that flags say, other flags say too. -/
structure Covers (f g : Flags) : Prop where
  sorted : g.sorted = true → f.sorted = true
  reverse : g.reverse = true → f.reverse = true
  peer : g.peer = true → f.peer = true

theorem Relates.mono {f g : Flags} {a b : Node} (h : f.Relates a b) (hc : f.Covers g) :
    g.Relates a b :=
  ⟨fun hs => h.sorted (hc.sorted hs), fun hr => h.reverse (hc.reverse hr),
    fun hp => h.peer (hc.peer hp)⟩

end Flags

namespace Cursor

/-- The nodes among which those are that a cursor may still deliver. -/
def reach : Cursor → Node → Prop
  | .listed _ _ rest, n => n ∈ rest
  | .lookahead base buffer _ _, n => n ∈ buffer ∨ base.reach n
  | .filter base _ _ _ _, n => base.reach n
  | .merge _ left leftHead right rightHead, n =>
    (∃ a ∈ leftHead, n = a ∨ left.reach n) ∨ (∃ b ∈ rightHead, n = b ∨ right.reach n)
  | .distinct base _ _, n => base.reach n
  | .steps start plan _ current _, n =>
    current.reach n ∨ ∃ o, start.reach o ∧ n ∈ o.along plan.axis

/-- A cursor that delivers one node at most. -/
def IsSingle : Cursor → Prop
  | .listed _ _ rest => rest.length ≤ 1
  | _ => False

/-- When a step may deliver origin by origin and still keep document order. -/
structure StaysOrdered (start : Cursor) (axis : Axis) : Prop where
  forward : axis.isForward = true
  origins : start.IsSingle ∨
    (start.flags.sorted = true ∧ start.flags.peer = true ∧ axis.isSubtree = true)

/-- A cursor on nodes of the documents that will keep what its flags say. -/
def Ordered (F : Forest) : Cursor → Prop
  | .listed f _ rest => F.HoldsAll rest ∧ rest.Pairwise f.Relates
  | .lookahead base buffer _ _ =>
    base.Ordered F ∧ F.HoldsAll buffer ∧ buffer.Pairwise base.flags.Relates ∧
      ∀ a ∈ buffer, ∀ n, base.reach n → base.flags.Relates a n
  | .filter base _ _ _ _ => base.Ordered F
  | .merge _ left leftHead right rightHead =>
    (left.Ordered F ∧ left.flags.sorted = true ∧
      ∀ a ∈ leftHead, F.Holds a ∧ ∀ n, left.reach n → a.Before n) ∧
    (right.Ordered F ∧ right.flags.sorted = true ∧
      ∀ b ∈ rightHead, F.Holds b ∧ ∀ n, right.reach n → b.Before n)
  | .distinct base _ _ => base.Ordered F ∧ base.flags.sorted = true
  | .steps start plan context current sorted =>
    start.Ordered F ∧ current.Ordered F ∧
      (sorted = true → StaysOrdered start plan.axis ∧
        current.flags.Covers (flags (.steps start plan context current sorted)) ∧
        ∀ o, start.reach o → ∀ x, current.reach x → ∀ y ∈ o.along plan.axis,
          (flags (.steps start plan context current sorted)).Relates x y)

/-- The nodes of a cursor are nodes of the documents. -/
theorem Ordered.holds {F : Forest} {c : Cursor} {n : Node} (h : c.Ordered F) (hn : c.reach n) :
    F.Holds n := by
  induction c generalizing n with
  | listed f size rest => exact h.1 n hn
  | lookahead base buffer delivered exhausted ih =>
    rcases hn with hn | hn
    · exact h.2.1 n hn
    · exact ih h.1 hn
  | filter base s last position finished ih => exact ih h hn
  | merge op left leftHead right rightHead ihl ihr =>
    rcases hn with ⟨a, ha, rfl | hn⟩ | ⟨b, hb, rfl | hn⟩
    · exact (h.1.2.2 n ha).1
    · exact ihl h.1.1 hn
    · exact (h.2.2.2 n hb).1
    · exact ihr h.2.1 hn
  | distinct base key seen ih => exact ih h.1 hn
  | steps start plan context current sorted ihs ihc =>
    rcases hn with hn | ⟨o, ho, hn⟩
    · exact ihc h.2.1 hn
    · exact (ihs h.1 ho).along plan.axis n hn

theorem flags_select (base : Cursor) (p : Expr) (c : Context) (stop : Bool) :
    (base.select p c stop).flags = base.flags := by
  simp only [select, flags]
  split <;> rfl

theorem reach_select {base : Cursor} {p : Expr} {c : Context} {stop : Bool} {n : Node} :
    (base.select p c stop).reach n ↔ base.reach n := by
  simp only [select, reach]
  split <;> simp [reach, lookingAhead]

theorem Ordered.select {F : Forest} {base : Cursor} (h : base.Ordered F) (p : Expr) (c : Context)
    (stop : Bool) : (base.select p c stop).Ordered F := by
  simp only [Cursor.select, Ordered]
  split
  · exact ⟨h, by simp, List.Pairwise.nil, by simp⟩
  · exact h

/-- Before anything is read of it, a step that delivers in order is an ordered cursor. -/
theorem steps_ordered {F : Forest} {start : Cursor} (hs : start.Ordered F) (plan : StepPlan)
    (c : Context) {sorted : Bool} (ho : sorted = true → StaysOrdered start plan.axis) :
    (Cursor.steps start plan c .empty sorted).Ordered F := by
  refine ⟨hs, ⟨by simp, .nil⟩, fun h => ⟨ho h, ?_, ?_⟩⟩
  · exact ⟨fun _ => rfl, nofun, fun _ => rfl⟩
  · exact fun o _ x hx => absurd hx (by simp [Cursor.empty, Cursor.ofOption, Cursor.reach])

/-- The nodes of an axis are as the axis says. -/
theorem along_relates (o : Node) (axis : Axis) :
    (o.along axis).Pairwise (Flags.Relates ⟨axis.isForward, axis.isReverse, axis.isPeer⟩) := by
  refine List.Pairwise.imp (fun {a b} hab => ?_) ((List.Pairwise.and
    (R := fun a b => axis.isForward = true → a.Before b)
    (S := fun a b => axis.isReverse = true → b.Before a) ?_ ?_).and
    (S := fun a b => axis.isPeer = true → a.Separate b) ?_)
  · exact ⟨hab.1.1, hab.1.2, hab.2⟩
  · by_cases hf : axis.isForward = true
    · exact (Node.along_ascending hf o).imp fun hab _ => hab
    · exact List.pairwise_of_forall fun _ _ hf' => absurd hf' hf
  · by_cases hr : axis.isReverse = true
    · exact (List.pairwise_reverse.mp (Node.along_descending hr o)).imp fun hab _ => hab
    · exact List.pairwise_of_forall fun _ _ hr' => absurd hr' hr
  · by_cases hp : axis.isPeer = true
    · exact (Node.along_separate hp o).imp fun hab _ => hab
    · exact List.pairwise_of_forall fun _ _ hp' => absurd hp' hp

theorem onAxis_ordered {F : Forest} {o : Node} (h : F.Holds o) (axis : Axis) (test : NodeTest) :
    (onAxis o axis test).Ordered F := by
  simp only [onAxis, Ordered, Walk.nodes_start h.2]
  exact ⟨(h.along axis).of_subset List.filter_sublist.subset,
    (along_relates o axis).sublist List.filter_sublist⟩

end Cursor

end PathLanguage
