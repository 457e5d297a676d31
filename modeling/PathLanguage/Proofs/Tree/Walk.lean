/- A walk finds the nodes of its axis: each turn leaves the same nodes to come, less the one that it
finds, and has fewer turns before it. -/
import PathLanguage.Proofs.Tree.Axis
import PathLanguage.Tree.Walk

namespace PathLanguage

section total

variable {α : Type} (f : α → Nat)

@[simp] theorem total_nil : total f [] = 0 := rfl

@[simp] theorem total_cons (a : α) (as : List α) : total f (a :: as) = f a + total f as := rfl

@[simp] theorem total_append (as bs : List α) :
    total f (as ++ bs) = total f as + total f bs := by
  induction as with
  | nil => simp
  | cons a as ih => simp [ih, Nat.add_assoc]

@[simp] theorem total_reverse (as : List α) : total f as.reverse = total f as := by
  induction as with
  | nil => rfl
  | cons a as ih => simp [ih, Nat.add_comm]

end total

namespace Node

theorem total_turns_childNodes (p : Node) (i : Nat) (ts : List Tree) :
    total turns (p.childNodes i ts) = Tree.forestTurns ts := by
  induction ts generalizing i with
  | nil => rfl
  | cons t ts ih =>
    rw [childNodes, total_cons, ih]
    rfl

/-- A node takes a turn to be found, its children theirs, and one turn to leave them. -/
theorem turns_eq (n : Node) : n.turns = 2 + total turns n.children := by
  rw [children, total_turns_childNodes, turns]
  cases n.tree? with
  | none => rfl
  | some t => cases t <;> rfl

theorem descendantsOrSelf_eq (n : Node) :
    n.descendantsOrSelf = n :: n.children.flatMap descendantsOrSelf :=
  walk_eq attaches_nil n

/-- The descendants of a node and the node, the last one first. -/
theorem reverse_descendantsOrSelf (n : Node) :
    n.descendantsOrSelf.reverse =
      n.children.reverse.flatMap (fun c => c.descendantsOrSelf.reverse) ++ [n] := by
  rw [descendantsOrSelf_eq, List.reverse_cons, List.reverse_flatMap]
  rfl

theorem isAttached_of_tree? {n : Node} {t : Tree} (h : n.tree? = some t) :
    n.isAttached = false := by
  cases n <;> first | rfl | cases h

/-- Parents are elements or documents. -/
theorem Valid.parent {n p : Node} (h : n.Valid) (hp : n.parent = some p) :
    p.Valid ∧ p.isAttached = false := by
  have key : ∀ {α : Type} {f : Tree → List α} {i : Nat} {x : α},
      ((p.tree?.map f).getD [])[i]? = some x → p.isAttached = false := by
    intro α f i x hx
    cases ht : p.tree? with
    | none => simp [ht] at hx
    | some t => exact isAttached_of_tree? ht
  cases n with
  | root d => cases hp
  | child q i t =>
    obtain rfl := Option.some.inj hp
    exact ⟨(valid_child.mp h).1, key (valid_child.mp h).2⟩
  | «attribute» q i a =>
    obtain rfl := Option.some.inj hp
    exact ⟨(valid_attribute.mp h).1, key (valid_attribute.mp h).2⟩
  | namespaceNode q i b =>
    obtain rfl := Option.some.inj hp
    exact ⟨(valid_namespaceNode.mp h).1, key (valid_namespaceNode.mp h).2⟩

end Node

namespace ReverseFrame

/-- The nodes still to be delivered of a subtree. -/
def rest (f : ReverseFrame) : List Node :=
  f.children.flatMap (fun c => c.descendantsOrSelf.reverse) ++ [f.node]

theorem rest_of (n : Node) : (of n).rest = n.descendantsOrSelf.reverse :=
  (Node.reverse_descendantsOrSelf n).symm

theorem turns_of (n : Node) : (of n).turns + 1 = n.turns := by
  rw [Node.turns_eq, turns, of, total_reverse]
  omega

end ReverseFrame

namespace Walk

open Node

/-- The nodes that a walk has still to find. -/
def rest : Walk → List Node
  | .listed ns => ns
  | .ancestors n => (n.map fun n => n :: n.ancestors).getD []
  | .forward stack anchor =>
    stack.flatten.flatMap descendantsOrSelf ++ (anchor.map followers).getD []
  | .backward stack siblings anchor =>
    stack.flatMap ReverseFrame.rest ++ (siblings.flatMap fun s => s.descendantsOrSelf.reverse) ++
      (anchor.map predecessors).getD []

/-- The node beyond whose subtree a walk is to go, if there is one. -/
def anchor? : Walk → Option Node
  | .forward _ anchor | .backward _ _ anchor => anchor
  | _ => none

/-- Anchors are elements or documents, or leaves that stand among them. -/
def Anchored (w : Walk) : Prop := ∀ n ∈ w.anchor?, n.Valid ∧ n.isAttached = false

/-- What a turn has to do with the nodes to come and the turns before it. -/
inductive Turn.Spec (w : Walk) : Turn → Prop
  | ended : w.rest = [] → Spec w .ended
  | found {n : Node} {v : Walk} :
      w.rest = n :: v.rest → v.turns < w.turns → v.Anchored → Spec w (.found n v)
  | moved {v : Walk} : w.rest = v.rest → v.turns < w.turns → v.Anchored → Spec w (.moved v)

/-- An anchor gives way to its parent, from which it is not told by what its siblings are. -/
theorem anchored_parent {n : Node} {w : Walk} (h : n.Valid) (hw : w.anchor? = n.parent) :
    w.Anchored := by
  intro p hp
  rw [hw] at hp
  exact h.parent hp

theorem turn_spec {w : Walk} (h : w.Anchored) : Turn.Spec w w.turn := by
  cases w with
  | listed ns =>
    cases ns with
    | nil => exact .ended rfl
    | cons n ns => exact .found rfl (Nat.lt_succ_self _) (by simp [Anchored, anchor?])
  | ancestors next =>
    cases next with
    | none => exact .ended rfl
    | some n =>
      refine .found ?_ ?_ (by simp [Anchored, anchor?])
      · cases n <;> rfl
      · cases n <;> simp [turns, Node.parent, Node.ancestors]
  | forward stack anchor =>
    cases stack with
    | cons ns stack =>
      cases ns with
      | nil => exact .moved (by simp [rest]) (by simp [turns]) h
      | cons n ns =>
        refine .found ?_ ?_ h
        · simp [rest, descendantsOrSelf_eq n]
        · simp [turns, turns_eq n]
          omega
    | nil =>
      cases anchor with
      | none => exact .ended rfl
      | some n =>
        obtain ⟨hv, ha⟩ := h n rfl
        cases n with
        | root d =>
          refine .moved ?_ ?_ (anchored_parent hv rfl)
          · simp [rest, followers, Node.parent]
          · simp [turns, turnsAbove, Node.parent]
        | child p i t =>
          refine .moved ?_ ?_ (anchored_parent hv rfl)
          · simp [rest, followers, Node.parent]
          · simp [turns, turnsAbove, Node.parent]
            omega
        | «attribute» p i a => cases ha
        | namespaceNode p i b => cases ha
  | backward stack siblings anchor =>
    cases stack with
    | cons frame stack =>
      obtain ⟨n, children⟩ := frame
      cases children with
      | nil =>
        exact .found (by simp [rest, ReverseFrame.rest]) (by simp [turns, ReverseFrame.turns]) h
      | cons c cs =>
        refine .moved ?_ ?_ h
        · simp [rest, ReverseFrame.rest_of]
          simp [ReverseFrame.rest]
        · have := ReverseFrame.turns_of c
          have hn : ∀ ds, (ReverseFrame.mk n ds).turns = 1 + total Node.turns ds := fun _ => rfl
          simp [turns, hn]
          omega
    | nil =>
      cases siblings with
      | cons n ns =>
        refine .moved ?_ ?_ h
        · simp [rest, ReverseFrame.rest_of]
        · have := ReverseFrame.turns_of n
          simp [turns]
          omega
      | nil =>
        cases anchor with
        | none => exact .ended rfl
        | some n =>
          obtain ⟨hv, ha⟩ := h n rfl
          cases n with
          | root d =>
            refine .moved ?_ ?_ (anchored_parent hv rfl)
            · simp [rest, predecessors, Node.parent]
            · simp [turns, turnsAbove, Node.parent]
          | child p i t =>
            refine .moved ?_ ?_ (anchored_parent hv rfl)
            · simp [rest, predecessors, Node.parent, List.reverse_flatMap]
              rfl
            · simp [turns, turnsAbove, Node.parent]
              omega
          | «attribute» p i a => cases ha
          | namespaceNode p i b => cases ha

theorem nodesWithin_eq {w : Walk} (h : w.Anchored) {k : Nat} (hk : w.turns ≤ k) :
    w.nodesWithin k = w.rest := by
  induction k generalizing w with
  | zero =>
    match w.turn, turn_spec h with
    | _, .ended he => exact he.symm
    | _, .found _ hlt _ => omega
    | _, .moved _ hlt _ => omega
  | succ k ih =>
    rw [nodesWithin]
    match w.turn, turn_spec h with
    | _, .ended he => exact he.symm
    | _, .found he hlt ha => rw [he, ← ih ha (by omega)]
    | _, .moved he hlt ha => rw [he, ← ih ha (by omega)]

/-- A walk finds all the nodes that are to come. -/
theorem nodes_eq {w : Walk} (h : w.Anchored) : w.nodes = w.rest := nodesWithin_eq h le_rfl

theorem start_anchored {n : Node} (h : n.Valid) (a : Axis) : (start n a).Anchored := by
  have hparent : ∀ p, n.parent = some p → p.Valid ∧ p.isAttached = false := fun p => h.parent
  cases a with
  | following => cases n <;> simp_all [start, Anchored, anchor?, Node.parent, isAttached]
  | preceding => cases n <;> simp_all [start, Anchored, anchor?, Node.parent, isAttached]
  | followingSibling => cases n <;> simp [start, Anchored, anchor?, siblings?]
  | precedingSibling => cases n <;> simp [start, Anchored, anchor?, siblings?]
  | _ => simp [start, Anchored, anchor?]

/-- A walk starts with the nodes of its axis to come. -/
theorem rest_start (n : Node) (a : Axis) : (start n a).rest = n.along a := by
  cases a with
  | ancestor => cases n <;> rfl
  | descendant => simp [start, rest, along, descendants_eq]
  | descendantOrSelf => simp [start, rest, along]
  | following =>
    cases n with
    | «attribute» | namespaceNode =>
      simp [start, rest, along, followers, isAttached, Node.parent, descendants_eq]
    | root | child => simp [start, rest, along, isAttached]
  | preceding => cases n <;> simp [start, rest, along, predecessors, isAttached, Node.parent]
  | followingSibling => cases n <;> simp [start, rest, along, siblings?, followingSiblings]
  | precedingSibling => cases n <;> simp [start, rest, along, siblings?, precedingSiblings]
  | _ => rfl

/-- The walk along an axis finds the nodes of the axis in axis order. -/
theorem nodes_start {n : Node} (h : n.Valid) (a : Axis) : (start n a).nodes = n.along a :=
  (nodes_eq (start_anchored h a)).trans (rest_start n a)

end Walk

end PathLanguage
