/- What an index holds of the nodes that are entered into it, and which nodes it covers. -/
import PathLanguage.Proofs.Safety.Key
import PathLanguage.Proofs.Tree.Reach

namespace PathLanguage

namespace Node

/-- A walk delivers a subtree and what is attached to its nodes. -/
theorem mem_walk {attached : Node → List Node} (h : Attaches attached) {n m : Node} :
    m ∈ n.walk attached ↔
      m ∈ n.descendantsOrSelf ∨ ∃ k ∈ n.descendantsOrSelf, m ∈ attached k := by
  induction n using down_induction with
  | step n ih =>
    have hself (k : Node) : k ∈ n.descendantsOrSelf ↔
        k = n ∨ ∃ c ∈ n.children, k ∈ c.descendantsOrSelf := by
      rw [mem_descendantsOrSelf, descendants_eq, List.mem_flatMap]
    rw [walk_eq h, List.mem_cons, List.mem_append, List.mem_flatMap, hself]
    constructor
    · rintro (rfl | hm | ⟨c, hc, hm⟩)
      · exact .inl (.inl rfl)
      · exact .inr ⟨n, (hself n).mpr (.inl rfl), hm⟩
      · rcases (ih c hc).mp hm with hm | ⟨k, hk, hm⟩
        · exact .inl (.inr ⟨c, hc, hm⟩)
        · exact .inr ⟨k, (hself k).mpr (.inr ⟨c, hc, hk⟩), hm⟩
    · rintro ((rfl | ⟨c, hc, hm⟩) | ⟨k, hk, hm⟩)
      · exact .inl rfl
      · exact .inr (.inr ⟨c, hc, (ih c hc).mpr (.inl hm)⟩)
      · rcases (hself k).mp hk with rfl | ⟨c, hc, hk⟩
        · exact .inr (.inl hm)
        · exact .inr (.inr ⟨c, hc, (ih c hc).mpr (.inr ⟨k, hk, hm⟩)⟩)

/-- The nodes of a tree that keys may find: the root, all that is below it, and their attributes. -/
def Spans (root n : Node) : Prop :=
  n ∈ root.descendantsOrSelf ∨ ∃ m ∈ root.descendantsOrSelf, n ∈ m.attributes

theorem kind_of_mem_attributes {n m : Node} (h : n ∈ m.attributes) : n.kind = .attribute := by
  obtain ⟨i, a, -, rfl⟩ := mem_attributes.mp h
  rfl

theorem same_of_before {n m : Node} (h : m.Before n) : n.same m = false := by
  by_contra hs
  rw [Bool.not_eq_false, same, Bool.and_eq_true] at hs
  have hid : n.document.id = m.document.id := by simpa using hs.1
  have hsteps : n.steps = m.steps := by simpa using hs.2
  have ho := (before_iff.mp h).2
  simp [Node.order, hid, address, hsteps, Std.ReflCmp.compare_self] at ho

end Node

namespace Key

open Node

variable {n : Node} {ns : List Node} {w : String}

/-- The nodes that an index holds for a value. -/
def found (entries : Entries) (w : String) : List Node := (entries.lookup w).getD []

/-- Nodes with one more at the end, unless that is there already. -/
def append (n : Node) (ns : List Node) : List Node :=
  if ns.getLast?.any n.same then ns else ns ++ [n]

theorem append_append (n : Node) (ns : List Node) : append n (append n ns) = append n ns := by
  cases h : ns.getLast?.any n.same with
  | true => simp [append, h]
  | false => simp [append, h, Node.same]

/-- Nodes that come before another one are not taken for it. -/
theorem append_of_before (h : ∀ m ∈ ns, m.Before n) : append n ns = ns ++ [n] := by
  refine if_neg ?_
  rw [Bool.not_eq_true, Option.any_eq_false]
  intro m hm
  rw [same_of_before (h m (List.mem_of_getLast? hm))]

theorem found_cons (v w : String) (ns : List Node) (es : Entries) :
    found ((v, ns) :: es) w = if w = v then ns else found es w := by
  rw [found, List.lookup_cons]
  by_cases h : w = v
  · rw [if_pos h, h, beq_self_eq_true]
    rfl
  · rw [if_neg h, beq_eq_false_iff_ne.mpr h]
    rfl

theorem found_enter (n : Node) (v w : String) (es : Entries) :
    found (enter v n es) w = if w = v then append n (found es w) else found es w := by
  induction es with
  | nil =>
    rw [enter, found_cons]
    rfl
  | cons p es ih =>
    obtain ⟨u, ns⟩ := p
    rw [enter, found_cons]
    by_cases hu : u = v
    · subst hu
      rw [if_pos (beq_self_eq_true u), found_cons]
      split
      · rfl
      · rfl
    · rw [if_neg (by simpa using hu), found_cons, ih]
      by_cases hw : w = u
      · rw [if_pos hw, if_pos hw, if_neg fun h => hu (hw.symm.trans h)]
      · rw [if_neg hw, if_neg hw]

theorem found_enterAll (n : Node) (values : List String) (w : String) (es : Entries) :
    found (enterAll n values es) w = if w ∈ values then append n (found es w) else found es w := by
  induction values generalizing es with
  | nil => rfl
  | cons v values ih =>
    change found (enterAll n values (enter v n es)) w = _
    rw [ih, found_enter]
    by_cases hv : w = v
    · simp [hv, append_append]
    · simp [hv]

/-- Enters nodes, each under its values. -/
def enterRows (rows : List (Node × List String)) (es : Entries) : Entries :=
  rows.foldl (fun es r => enterAll r.1 r.2 es) es

/-- Of nodes that are entered in document order the index holds those with the value. -/
theorem found_enterRows {rows : List (Node × List String)} {es : Entries}
    (hr : Ascending (rows.map Prod.fst)) (he : ∀ m ∈ found es w, ∀ r ∈ rows, m.Before r.1) :
    found (enterRows rows es) w =
      found es w ++ (rows.filter fun r => w ∈ r.2).map Prod.fst := by
  induction rows generalizing es with
  | nil => simp [enterRows]
  | cons r rows ih =>
    obtain ⟨n, values⟩ := r
    obtain ⟨hn, hr⟩ := List.pairwise_cons.mp hr
    have hrest : ∀ r ∈ rows, n.Before r.1 := fun r h => hn r.1 (List.mem_map_of_mem h)
    have hold : ∀ m ∈ found es w, ∀ r ∈ rows, m.Before r.1 :=
      fun m hm r h => he m hm r (List.mem_cons_of_mem _ h)
    have hadd : append n (found es w) = found es w ++ [n] :=
      append_of_before fun m hm => he m hm _ List.mem_cons_self
    have hfound := found_enterAll n values w es
    change found (enterRows rows (enterAll n values es)) w = _
    by_cases hw : w ∈ values
    · rw [if_pos hw, hadd] at hfound
      rw [ih hr, hfound, List.filter_cons_of_pos (by simpa using hw), List.map_cons,
        List.append_assoc]
      · rfl
      · rw [hfound]
        intro m hm r h
        rcases List.mem_append.mp hm with hm | hm
        · exact hold m hm r h
        · obtain rfl := List.mem_singleton.mp hm
          exact hrest r h
    · rw [if_neg hw] at hfound
      rw [ih hr, hfound, List.filter_cons_of_neg (by simpa using hw)]
      rw [hfound]
      exact hold

/-- In an empty index, the nodes with the value are found in document order. -/
theorem found_enterRows_nil {rows : List (Node × List String)}
    (hr : Ascending (rows.map Prod.fst)) (w : String) :
    found (enterRows rows []) w = (rows.filter fun r => w ∈ r.2).map Prod.fst :=
  (found_enterRows hr fun _ hm => absurd hm List.not_mem_nil).trans (List.nil_append _)

theorem candidates_ascending (ds : List KeyDefinition) (root : Node) :
    Ascending (candidates ds root) :=
  walk_ascending (attaches_candidates _) root

theorem spans_of_candidate {ds : List KeyDefinition} {root : Node} (h : n ∈ candidates ds root) :
    root.Spans n := by
  rcases (mem_walk (attaches_candidates _)).mp h with h | ⟨m, hm, h⟩
  · exact .inl h
  · split at h
    · exact .inr ⟨m, hm, h⟩
    · cases h

/-- A node of the tree is a candidate unless it is an attribute, which no pattern matches. -/
theorem candidate_of_spans {ds : List KeyDefinition} {root : Node} (h : root.Spans n)
    (ha : n.kind = .attribute → ds.any (·.pattern.mayMatchAttributes) = true) :
    n ∈ candidates ds root := by
  refine (mem_walk (attaches_candidates _)).mpr ?_
  rcases h with h | ⟨m, hm, h⟩
  · exact .inl h
  · refine .inr ⟨m, hm, ?_⟩
    rw [ha (kind_of_mem_attributes h)]
    exact h

end Key

end PathLanguage
