/- Sorting nodes by keys gives them in the linear order of what their keys come to, and those whose
keys come to the same in the order that they had. -/
import PathLanguage.Evaluation
import PathLanguage.Proofs.NodeSet.DocumentOrder
import PathLanguage.Proofs.Session.Returns
import PathLanguage.Proofs.Sorting.Order

namespace PathLanguage

namespace Sorting

section Stability

variable {α : Type} {le : α → α → Bool} {R : α → α → Prop}

/-- A stable sort leaves in their order what it need not exchange. -/
theorem pairwise_of_tie (trans : ∀ a b c, le a b → le b c → le a c)
    (total : ∀ a b, le a b || le b a) {l : List α} (h : l.Pairwise R) :
    (l.mergeSort le).Pairwise fun a b => le b a = true → R a b := by
  rw [← List.mergeSort_zipIdx, List.pairwise_map]
  have hsorted := List.pairwise_mergeSort (List.zipIdxLE_trans trans)
    (List.zipIdxLE_total total) l.zipIdx
  have hperm := List.mergeSort_perm l.zipIdx (List.zipIdxLE le)
  have hplaces : (l.zipIdx.mergeSort (List.zipIdxLE le)).Pairwise fun a b => a.2 ≠ b.2 := by
    have hnodup : (l.zipIdx.map (·.2)).Nodup := by
      rw [List.zipIdx_map_snd]
      exact List.nodup_range'
    exact List.pairwise_map.mp ((hperm.map Prod.snd).nodup_iff.mpr hnodup)
  refine (hsorted.and hplaces).imp_of_mem fun {a b} ha hb hab hle => ?_
  obtain ⟨hle', hne⟩ := hab
  obtain ⟨hi, hai⟩ := List.mem_zipIdx' (hperm.mem_iff.mp ha)
  obtain ⟨hj, hbj⟩ := List.mem_zipIdx' (hperm.mem_iff.mp hb)
  have hlt : a.2 < b.2 := by
    simp only [List.zipIdxLE, hle, if_true] at hle'
    split at hle'
    · exact lt_of_le_of_ne (of_decide_eq_true hle') hne
    · cases hle'
  rw [hai, hbj]
  exact List.pairwise_iff_getElem.mp h a.2 b.2 hi hj hlt

end Stability

variable {E : Engine} {focus context : Context} {s t u : Session}

/-- The keys of a node evaluate one after another to values, each in the session that the one
before leaves: a number, or a text along with the same in lower case. -/
inductive Evaluates (E : Engine) (focus : Context) :
    Session → List (Expr × SortRule) → List KeyValue → Session → Prop
  | nil (s : Session) : Evaluates E focus s [] [] s
  | number {key : Expr} {rule : SortRule} {keys : List (Expr × SortRule)} {n : Number}
      {vs : List KeyValue} {s t u : Session} :
      rule.type = .number → (E.number key focus).attempt.run s = (.ok n, t) →
      Evaluates E focus t keys vs u → Evaluates E focus s ((key, rule) :: keys) (.number n :: vs) u
  | text {key : Expr} {rule : SortRule} {keys : List (Expr × SortRule)} {raw : String}
      {vs : List KeyValue} {s t u : Session} :
      rule.type = .text → (E.string key focus).attempt.run s = (.ok raw, t) →
      Evaluates E focus t keys vs u →
      Evaluates E focus s ((key, rule) :: keys) (.text (Text.lower raw).toList raw.toList :: vs) u

/-- The keys of nodes evaluate to values; each node in turn is in focus, at its position among as
many as there are, and current. -/
inductive EvaluatesAll (E : Engine) (keys : List (Expr × SortRule)) (context : Context)
    (last : Nat) : Session → (position : Nat) → List Node → List (List KeyValue) → Session → Prop
  | nil (s : Session) (position : Nat) : EvaluatesAll E keys context last s position [] [] s
  | cons {n : Node} {nodes : List Node} {vs : List KeyValue} {vss : List (List KeyValue)}
      {position : Nat} {s t u : Session} :
      Evaluates E ((context.withFocus n position last).withCurrent n) s keys vs t →
      EvaluatesAll E keys context last t (position + 1) nodes vss u →
      EvaluatesAll E keys context last s position (n :: nodes) (vs :: vss) u

theorem keyValue_run {key : Expr} {rule : SortRule} {v : KeyValue} :
    (keyValue E rule key focus).attempt.run s = (.ok v, t) ↔
      (∃ n, rule.type = .number ∧ (E.number key focus).attempt.run s = (.ok n, t) ∧
        v = .number n) ∨
      ∃ raw, rule.type = .text ∧ (E.string key focus).attempt.run s = (.ok raw, t) ∧
        v = .text (Text.lower raw).toList raw.toList := by
  cases hr : rule.type with
  | number =>
    simp only [keyValue, hr, Action.bind_ok, Action.pure_ok]
    grind
  | text =>
    simp only [keyValue, hr, Action.bind_ok, Action.pure_ok]
    grind

/-- Reading the key values of a node succeeds just if its keys evaluate to them. -/
theorem keyValues_run {keys : List (Expr × SortRule)} {vs : List KeyValue} :
    (keyValues E focus keys).attempt.run s = (.ok vs, t) ↔ Evaluates E focus s keys vs t := by
  induction keys generalizing s t vs with
  | nil =>
    rw [keyValues, Action.pure_ok]
    constructor
    · rintro ⟨rfl, rfl⟩
      exact .nil s
    · rintro ⟨⟩
      exact ⟨rfl, rfl⟩
  | cons k keys ih =>
    obtain ⟨key, rule⟩ := k
    simp only [keyValues, Action.bind_ok, Action.pure_ok, ih, keyValue_run]
    constructor
    · rintro ⟨v, w, ⟨n, hr, hn, rfl⟩ | ⟨raw, hr, hraw, rfl⟩, vs, w', hvs, rfl, rfl⟩
      · exact .number hr hn hvs
      · exact .text hr hraw hvs
    · rintro (_ | ⟨hr, hn, hvs⟩ | ⟨hr, hraw, hvs⟩)
      · exact ⟨_, _, .inl ⟨_, hr, hn, rfl⟩, _, _, hvs, rfl, rfl⟩
      · exact ⟨_, _, .inr ⟨_, hr, hraw, rfl⟩, _, _, hvs, rfl, rfl⟩

/-- Reading the records of nodes succeeds just if all their keys evaluate. -/
theorem records_run {keys : List (Expr × SortRule)} {last position : Nat} {nodes : List Node}
    {rs : List (Node × List KeyValue)} :
    (records E keys context last position nodes).attempt.run s = (.ok rs, t) ↔
      ∃ vss, EvaluatesAll E keys context last s position nodes vss t ∧ rs = nodes.zip vss := by
  induction nodes generalizing s t position rs with
  | nil =>
    rw [records, Action.pure_ok]
    constructor
    · rintro ⟨rfl, rfl⟩
      exact ⟨[], .nil s position, rfl⟩
    · rintro ⟨_, ⟨⟩, rfl⟩
      exact ⟨rfl, rfl⟩
  | cons n nodes ih =>
    simp only [records, Action.bind_ok, Action.pure_ok, ih, keyValues_run]
    constructor
    · rintro ⟨vs, u, hvs, rs, w, ⟨vss, hvss, rfl⟩, rfl, rfl⟩
      exact ⟨vs :: vss, .cons hvs hvss, rfl⟩
    · rintro ⟨_, _ | ⟨hvs, hvss⟩, rfl⟩
      exact ⟨_, _, hvs, _, _, ⟨_, hvss, rfl⟩, rfl, rfl⟩

/-- What keys evaluate to is of the kinds that they compare. -/
theorem Evaluates.fits {keys : List (Expr × SortRule)} {vs : List KeyValue}
    (h : Evaluates E focus s keys vs t) :
    KeyValue.FitAll (keys.map (·.2)) vs := by
  induction h with
  | nil => exact .nil
  | number hr _ _ ih => exact .cons hr ih
  | text hr _ _ ih => exact .cons hr ih

theorem EvaluatesAll.fits {keys : List (Expr × SortRule)} {last position : Nat} {nodes : List Node}
    {vss : List (List KeyValue)} (h : EvaluatesAll E keys context last s position nodes vss t) :
    ∀ vs ∈ vss, KeyValue.FitAll (keys.map (·.2)) vs := by
  induction h with
  | nil => exact nofun
  | cons hvs _ ih => exact List.forall_mem_cons.mpr ⟨hvs.fits, ih⟩

theorem EvaluatesAll.length_eq {keys : List (Expr × SortRule)} {last position : Nat}
    {nodes : List Node} {vss : List (List KeyValue)}
    (h : EvaluatesAll E keys context last s position nodes vss t) : nodes.length = vss.length := by
  induction h with
  | nil => rfl
  | cons _ _ ih => exact congrArg (· + 1) ih

/-- The records of nodes are in the linear order of what their keys come to, and where two come to
the same in document order. -/
structure Sorts (rules : List SortRule) (records sorted : List (Node × List KeyValue)) : Prop where
  perm : sorted.Perm records
  ordered : sorted.Pairwise fun a b => KeyValue.places rules a.2 ≤ KeyValue.places rules b.2
  ties : sorted.Pairwise fun a b =>
    KeyValue.places rules a.2 = KeyValue.places rules b.2 → a.1.Before b.1

section Records

variable {rules : List SortRule} {rs sorted sorted' : List (Node × List KeyValue)}

/-- There is no other such order. -/
theorem Sorts.unique (h : Sorts rules rs sorted) (h' : Sorts rules rs sorted') :
    sorted = sorted' := by
  refine (h.perm.trans h'.perm.symm).eq_of_pairwise ?_ (h.ordered.and h.ties)
    (h'.ordered.and h'.ties)
  intro a b _ _ hab hba
  have heq := le_antisymm hab.1 hba.1
  have hlt := Node.order_lt_iff_gt.mp (Node.before_iff.mp (hab.2 heq)).2
  cases hlt.symm.trans (Node.before_iff.mp (hba.2 heq.symm)).2

/-- Whether the keys of one record come to no more than those of another. -/
def atMost (rules : List SortRule) (a b : Node × List KeyValue) : Bool :=
  KeyValue.places rules a.2 ≤ KeyValue.places rules b.2

theorem atMost_iff {a b : Node × List KeyValue} :
    atMost rules a b = true ↔ KeyValue.places rules a.2 ≤ KeyValue.places rules b.2 :=
  decide_eq_true_iff

theorem atMost_trans (a b c : Node × List KeyValue) (hab : atMost rules a b = true)
    (hbc : atMost rules b c = true) : atMost rules a c = true :=
  atMost_iff.mpr ((atMost_iff.mp hab).trans (atMost_iff.mp hbc))

theorem atMost_total (a b : Node × List KeyValue) :
    (atMost rules a b || atMost rules b a) = true := by
  rw [Bool.or_eq_true, atMost_iff, atMost_iff]
  exact le_total _ _

/-- Sorting the records of nodes is sorting them by what their keys come to. -/
theorem mergeSort_records (h : ∀ r ∈ rs, KeyValue.FitAll rules r.2) :
    rs.mergeSort (fun a b => KeyValue.orderAll rules a.2 b.2 != .gt) =
      rs.mergeSort (atMost rules) := by
  have hle : ∀ a ∈ rs, ∀ b ∈ rs,
      (KeyValue.orderAll rules a.2 b.2 != .gt) = atMost rules a b := by
    intro a ha b hb
    rw [Bool.eq_iff_iff, bne_iff_ne, atMost_iff]
    exact (KeyValue.orderAll_compares (h a ha) (h b hb)).ne_gt
  simpa using List.map_mergeSort (f := id) hle

/-- Records that are in document order are sorted by keys that they fit. -/
theorem mergeSort_sorts (hfits : ∀ r ∈ rs, KeyValue.FitAll rules r.2)
    (horder : rs.Pairwise fun a b => a.1.Before b.1) :
    Sorts rules rs (rs.mergeSort fun a b => KeyValue.orderAll rules a.2 b.2 != .gt) := by
  rw [mergeSort_records hfits]
  refine ⟨List.mergeSort_perm _ _, ?_, ?_⟩
  · exact (List.pairwise_mergeSort atMost_trans atMost_total rs).imp atMost_iff.mp
  · exact (pairwise_of_tie atMost_trans atMost_total horder).imp fun hab heq =>
      hab (atMost_iff.mpr heq.ge)

end Records

/-- The nodes that a cursor delivers in document order are sorted just if the keys of each of them
evaluate; the same nodes result, in the order of what their keys come to. -/
theorem sortNodes_sorts {E : Engine} {base : Cursor} {nodes : List Node} {r s : Session}
    (hbase : (E.drain base).attempt.run r = (.ok nodes, s)) (horder : Node.Ascending nodes)
    (keys : List (Expr × SortRule)) (context : Context) :
    let sort : Action (List Node) := do sortNodes E (← E.drain base) keys context
    (∀ vss t, EvaluatesAll E keys context nodes.length s 1 nodes vss t →
      ∃ sorted, sort.attempt.run r = (.ok (sorted.map (·.1)), t) ∧
        (sorted.map (·.1)).Perm nodes ∧ Sorts (keys.map (·.2)) (nodes.zip vss) sorted) ∧
    ∀ ms t, sort.attempt.run r = (.ok ms, t) →
      ∃ vss, EvaluatesAll E keys context nodes.length s 1 nodes vss t := by
  intro sort
  have hsort : sort.attempt.run r = (sortNodes E nodes keys context).attempt.run s :=
    Action.run_bind_ok hbase
  refine ⟨fun vss t h => ?_, fun ms t h => ?_⟩
  · have hrun := records_run.mpr ⟨vss, h, rfl⟩
    have hnodes : (nodes.zip vss).map (·.1) = nodes := List.map_fst_zip h.length_eq.le
    have hsorts : Sorts (keys.map (·.2)) (nodes.zip vss) _ :=
      mergeSort_sorts (fun r hr => h.fits r.2 (List.of_mem_zip hr).2)
        (List.pairwise_map.mp (hnodes.symm ▸ horder))
    refine ⟨_, ?_, (hsorts.perm.map (·.1)).trans (.of_eq hnodes), hsorts⟩
    rw [hsort, sortNodes, Action.run_bind_ok hrun]
    rfl
  · rw [hsort, sortNodes] at h
    obtain ⟨rs, u, hrs, hpure⟩ := Action.bind_ok.mp h
    obtain ⟨-, rfl⟩ := Action.pure_ok.mp hpure
    obtain ⟨vss, hvss, -⟩ := records_run.mp hrs
    exact ⟨vss, hvss⟩

/-- By falling numbers and then by texts, of `x`, `2`, `X` and `2` the numbers come first, in
document order, then the upper case letter before the other one. -/
theorem sortNodes_sorts_of_mixed : ∃ (x m y n : Node) (base : Cursor),
    [x, m, y, n].map Node.stringValue = ["x", "2", "X", "2"] ∧
    let E := engine .bare 9
    let keys := [(Expr.contextNode, { type := .number, direction := .descending }),
      (Expr.contextNode, {})]
    (E.drain base).attempt.run {} = (.ok [x, m, y, n], {}) ∧
    Node.Ascending [x, m, y, n] ∧
    (∃ vss, EvaluatesAll E keys {} 4 {} 1 [x, m, y, n] vss {}) ∧
    (do sortNodes E (← E.drain base) keys {} : Action _).attempt.run {} =
      (.ok [m, n, y, x], {}) := by
  let text (k : Nat) (content : String) : Node := .root ⟨k, false, .text content⟩
  let x := text 0 "x"
  let m := text 1 "2"
  let y := text 2 "X"
  let n := text 3 "2"
  let rules : List SortRule := [{ type := .number, direction := .descending }, {}]
  let keys : List (Expr × SortRule) := rules.map (Expr.contextNode, ·)
  let base : Cursor := .slice [x, m, y, n] true false
  have hbase : ((engine .bare 9).drain base).attempt.run {} = (.ok [x, m, y, n], {}) := rfl
  have horder : Node.Ascending [x, m, y, n] := by
    unfold Node.Ascending Node.Before
    decide
  -- what both keys of a node with a given text come to
  let values (content : String) : List KeyValue :=
    [.number (.ofText content), .text (Text.lower content).toList content.toList]
  have hone (k last position : Nat) (content : String) : Evaluates (engine .bare 9)
      (({} : Context).withFocus (text k content) position last |>.withCurrent (text k content))
      {} keys (values content) {} :=
    .number rfl rfl (.text rfl rfl (.nil _))
  have hall : EvaluatesAll (engine .bare 9) keys {} 4 {} 1 [x, m, y, n]
      [values "x", values "2", values "X", values "2"] {} :=
    .cons (hone ..) (.cons (hone ..) (.cons (hone ..) (.cons (hone ..) (.nil _ _))))
  have hsorts : Sorts rules ([x, m, y, n].zip [values "x", values "2", values "X", values "2"])
      [(m, values "2"), (n, values "2"), (y, values "X"), (x, values "x")] := by
    refine ⟨?_, ?_, ?_⟩
    · have hlast := List.perm_append_singleton (x, values "x")
        [(m, values "2"), (n, values "2"), (y, values "X")]
      exact hlast.trans (.cons _ (.cons _ (.swap (y, values "X") (n, values "2") [])))
    · decide +kernel
    · unfold Node.Before
      decide +kernel
  obtain ⟨sorted, hrun, -, hsorted⟩ := (sortNodes_sorts hbase horder keys {}).1 _ _ hall
  obtain rfl := hsorted.unique hsorts
  exact ⟨x, m, y, n, base, rfl, hbase, horder, ⟨_, hall⟩, hrun⟩

end Sorting

end PathLanguage
