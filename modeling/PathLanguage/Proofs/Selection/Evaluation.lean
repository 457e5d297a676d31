/- The cursor that evaluation makes for an expression yields the nodes that the expression stands
for by its plain meaning. -/
import PathLanguage.Proofs.Safety.Evaluation
import PathLanguage.Proofs.Selection.Reading

namespace PathLanguage

open Node (docOrder InOrder)
open Setting (Ensures Steps)

/-- One oracle says what another says, of positions counted from one. -/
structure Oracle.Agrees (J K : Oracle) : Prop where
  truth : ∀ {p c n position size b}, 0 < position → J.truth p c n position size b →
    K.truth p c n position size b
  text : ∀ {e c n k}, J.text e c n k → K.text e c n k

/-- An oracle that knows the values of operands and the nodes that lazy node-sets keep. -/
structure Setting.Values (S : Setting) (K : Session → Oracle) (s₀ : Session) (E : Engine) :
    Prop where
  value : ∀ {s e c}, s₀.LeadsTo s → e.Fits S.forest s → c.Fits S.forest s →
    S.Ensures s (E.nodeSet e c) fun ns t => ∀ u, t.LeadsTo u → (K u).value e c ns
  kept : ∀ {t u : Session} {id e}, t.LeadsTo u → (t.intent id).extent = some e → (K u).kept id e

namespace Oracle

variable {J K : Oracle} {c : Context} {ns ms : List Node}

theorem Agrees.picks (h : J.Agrees K) {p : Expr} {size : Nat} (hp : J.Picks p c size 0 ns ms) :
    K.Picks p c size 0 ns ms :=
  hp.imp fun _ _ _ hk => h.truth hk

theorem Agrees.narrows (h : J.Agrees K) {ps : List Expr} (hp : J.Narrows c ps ns ms) :
    K.Narrows c ps ns ms := by
  induction hp with
  | nil ns => exact .nil ns
  | cons hp _ ih => exact .cons (h.picks hp) ih

theorem Agrees.textBy (h : J.Agrees K) {key : Option (Expr × Context)} {n : Node} {k : String}
    (hk : J.textBy key n k) : K.textBy key n k := by
  cases key with
  | none => exact hk
  | some p => exact h.text hk

end Oracle

/-- From a given session on, the cursors that an engine makes yield what expressions stand for. -/
structure Setting.Selects (S : Setting) (J K : Session → Oracle) (s₀ : Session) (E : Engine) :
    Prop where
  cursor : ∀ {s e c sort}, s₀.LeadsTo s → e.Fits S.forest s → c.Fits S.forest s →
    S.Ensures s (E.cursor e c sort) fun r t => r.Fresh ∧ ∀ u, t.LeadsTo u → ∀ ns,
      r.Yields (J u) ns → (K u).Selects S.transformation.globalContext e c (docOrder ns)

variable {S : Setting} {J K : Session → Oracle} {s₀ s : Session} {E : Engine}

theorem Node.docOrder_docOrder (ns : List Node) : docOrder (docOrder ns) = docOrder ns :=
  (docOrder_inOrder ns).docOrder_eq

/-- A cursor on the nodes of another in document order. -/
structure Cursor.Sorts (J : Session → Oracle) (c r : Cursor) (t : Session) : Prop where
  fresh : r.Fresh
  yields : ∀ u, t.LeadsTo u → ∀ ns, r.Yields (J u) ns →
    ∃ ms, c.Yields (J u) ms ∧ docOrder ns = docOrder ms

theorem Setting.Reads.extent (hR : S.Reads J s₀ E) (h0 : s₀.LeadsTo s) {c : Cursor}
    (hs : c.Sound S s) (hc : c.Counted) :
    S.Ensures s (E.extent c) fun e t => ∀ u, t.LeadsTo u → c.Yields (J u) e.nodes :=
  (hR.drain h0 hs hc).map fun _ _ h => h

/-- Sorting an extent and reading it again. -/
theorem Extent.sort_true {c : Cursor} {e : Extent} (he : e.Fits S.forest)
    (hy : ∀ u, s.LeadsTo u → c.Yields (J u) e.nodes) :
    S.Ensures s (do return Cursor.ofExtent (← .ofExcept e.sort)) fun r t => c.Sorts J r t := by
  refine (Ensures.ofExcept (Q := fun e' _ => e'.nodes = docOrder e.nodes)
    fun e' hs => (Extent.sort_ok he.honest he.holds hs).2.2.1).bind fun e' t _ hst hn => ?_
  refine .pure ⟨Cursor.fresh_ofExtent e', fun u hu ns hns => ⟨e.nodes, hy u (hst.trans hu), ?_⟩⟩
  rw [show ns = e'.nodes from hns, hn, Node.docOrder_docOrder]

theorem Setting.Reads.sortedCursor (hR : S.Reads J s₀ E) (hE : E.Safe S) (h0 : s₀.LeadsTo s)
    {c : Cursor} (hs : c.Sound S s) (hc : c.Fresh) :
    S.Ensures s (E.sortedCursor c) fun r t => (r.Sound S t ∧ r.flags.sorted = true) ∧
      c.Sorts J r t := by
  refine Ensures.and (hE.sortedCursor hs)
    (.ite (fun _ => .pure ⟨hc, fun _ _ ns hy => ⟨ns, hy, rfl⟩⟩) fun _ => ?_)
  refine ((hE.extent hs).and (hR.extent h0 hs hc.counted)).bind fun e t _ _ ⟨he, hy⟩ => ?_
  exact Extent.sort_true he hy

namespace NodeSet

/-- The members of a node-set as a value. -/
def Stands (S : Setting) (J K : Session → Oracle) (ns : NodeSet) (r : Cursor) (t : Session) :
    Prop :=
  r.Fresh ∧ ∀ u, t.LeadsTo u → ∀ ms, r.Yields (J u) ms → ∀ c,
    (K u).Selects S.transformation.globalContext (.value (.nodeSet ns)) c (docOrder ms)

theorem cursorOfExtent_true {e : Extent} (he : e.Fits S.forest) {ns : NodeSet} {sort : Bool}
    (h : ∀ u, s.LeadsTo u → ∀ c,
      (K u).Selects S.transformation.globalContext (.value (.nodeSet ns)) c (docOrder e.nodes)) :
    S.Ensures s (cursorOfExtent e sort) fun r t => ns.Stands S J K r t := by
  refine .ite (fun _ => ?_) fun _ => .pure ⟨Cursor.fresh_ofExtent e, ?_⟩
  · refine (Extent.sort_true (J := J) (c := .ofExtent e) he fun u _ => rfl).imp
      fun r t _ hst hr => ⟨hr.fresh, fun u hu ms hms c => ?_⟩
    obtain ⟨ks, hks, heq⟩ := hr.yields u hu ms hms
    rw [heq, show ks = e.nodes from hks]
    exact h u (hst.trans hu) c
  · intro u hu ms hms c
    rw [show ms = e.nodes from hms]
    exact h u hu c

/-- What a lazy node-set keeps is kept in the session. -/
theorem materializeIntent_keeps (hS : S.Safe) (hE : E.Safe S) {id : Nat} {d : Expr}
    (hd : (NodeSet.intent id d).Fits S.forest s) :
    S.Ensures s (materializeIntent S.transformation E id d) fun e t =>
      (t.intent id).extent = some e := by
  refine .assume fun hs => .get ?_
  split
  · next e he => exact .pure he
  · refine (hE.cursor (fits_intent.mp hd).2 (hS.globalContext s)).bind fun c t _ hst ⟨hc, _⟩ => ?_
    refine (hE.extent hc).bind fun e u _ htu he => .update fun hu => ?_
    have hkept : ((u.intent id).extent.getD e).Fits S.forest := by
      cases hi : (u.intent id).extent with
      | none => exact he
      | some e' => exact Session.extent_fits hu hi
    obtain ⟨hv, hk⟩ := Session.sound_setIntent hu id
      (i := { u.intent id with extent := some ((u.intent id).extent.getD e) }) rfl
      (fun e' h => by simp [h]) (by rintro e' ⟨⟩; exact hkept)
    refine ⟨hv, hk, ?_⟩
    have hdef := (hst.trans htu).definitions id d (fits_intent.mp hd).1
    rw [Session.definition?, Option.map_eq_some_iff] at hdef
    obtain ⟨i, hi, -⟩ := hdef
    have hlt : id < u.intents.length := (List.getElem?_eq_some_iff.mp hi).1
    simp [Session.intent, Session.setIntent, hlt]

theorem enumerateIntent_true (hS : S.Safe) (hE : E.Safe S) (hV : S.Values K s₀ E)
    (hC : S.Selects J K s₀ E) (h0 : s₀.LeadsTo s) {id : Nat} {d : Expr}
    (hd : (NodeSet.intent id d).Fits S.forest s) (sort : Bool) :
    S.Ensures s (enumerateIntent S.transformation E id d sort) fun r t =>
      (NodeSet.intent id d).Stands S J K r t := by
  refine .assume fun hs => .get ?_
  split
  · next e he =>
    exact cursorOfExtent_true (Session.extent_fits hs he) fun u hu c => .kept (hV.kept hu he)
  · refine (registerUse_safe S.transformation id).bind fun b t _ hst _ => ?_
    replace hd := hd.mono hst.toKeeps
    refine .ite (fun _ => ?_) fun _ => ?_
    · refine ((materializeIntent_safe hS hE hd).and (materializeIntent_keeps hS hE hd)).bind
        fun e u _ _ ⟨he, hkept⟩ => cursorOfExtent_true he fun v hv c => .kept (hV.kept hv hkept)
    · exact (hC.cursor (h0.trans hst) (fits_intent.mp hd).2 (hS.globalContext t)).imp
        fun r u _ _ ⟨hr, hy⟩ => ⟨hr, fun v hv ms hms c => .lazy (hy v hv ms hms)⟩

theorem stands_ofOption {t : Session} {ns : NodeSet} {n : Option Node}
    (h : ∀ u c, (K u).Selects S.transformation.globalContext (.value (.nodeSet ns)) c n.toList) :
    ns.Stands S J K (.ofOption n) t := by
  refine ⟨Cursor.fresh_ofOption n, fun u _ ms hms c => ?_⟩
  rw [Cursor.yields_ofOption.mp hms]
  cases n <;> exact h u c

theorem enumerateSorted_true (hS : S.Safe) (hE : E.Safe S) (hV : S.Values K s₀ E)
    (hC : S.Selects J K s₀ E) (h0 : s₀.LeadsTo s) {ns : NodeSet} (h : ns.Fits S.forest s)
    (sort : Bool) :
    S.Ensures s (ns.enumerateSorted S.transformation E sort) fun r t => ns.Stands S J K r t := by
  cases ns with
  | intent id d => exact enumerateIntent_true hS hE hV hC h0 h sort
  | extent e => exact cursorOfExtent_true (fits_extent.mp h) fun _ _ _ => .extent
  | empty =>
    change S.Ensures s (pure (Cursor.ofOption none)) _
    exact .pure (stands_ofOption fun _ _ => .empty)
  | single n navigable =>
    cases navigable with
    | false => exact .fail
    | true =>
      change S.Ensures s (pure (Cursor.ofOption n)) _
      exact .pure (stands_ofOption fun _ _ => .single)

end NodeSet

/-- The node in focus, if there is one. -/
theorem Context.node_true {c : Context} (h : c.Fits S.forest s) :
    S.Ensures s c.node fun n _ => S.forest.Holds n ∧ c.node? = some n := by
  unfold Context.node
  split
  · next n hn => exact .pure ⟨h.node n hn, hn⟩
  · exact .fail

theorem Context.current_true {c : Context} :
    S.Ensures s c.current fun n _ => c.current? = some n := by
  unfold Context.current
  split
  · next n hn => exact .pure hn
  · exact .fail

/-- A combination of two cursors yields what the operation makes of the sets they yield. -/
theorem Cursor.startMerge_true (hR : S.Reads J s₀ E) (hE : E.Safe S) (h0 : s₀.LeadsTo s)
    (op : SetOperator) {left right : Cursor} (hl : left.Sound S s) (hlf : left.Fresh)
    (hr : right.Sound S s) (hrf : right.Fresh) :
    S.Ensures s (startMerge E op left right) fun c t => c.Fresh ∧ ∀ u, t.LeadsTo u → ∀ ns,
      c.Yields (J u) ns → ∃ ls rs, left.Yields (J u) ls ∧ right.Yields (J u) rs ∧
        ns = op.combine (docOrder ls) (docOrder rs) := by
  have hside : ∀ {c r k : Cursor} {h : Option Node} {t v u : Session} {ls : List Node},
      c.Sorts J r t → r.Sound S t → r.flags.sorted = true → t.LeadsTo u → v.LeadsTo u →
      (∀ w, v.LeadsTo w → r.Foresees (J w) h k) → Heads h (k.Yields (J u)) ls →
      ∃ ms, c.Yields (J u) ms ∧ ls = docOrder ms := by
    intro c r k h t v u ls hsort hr hs htu hvu hy hls
    have hyield : r.Yields (J u) ls := by
      cases h with
      | none =>
        obtain rfl : ls = [] := hls
        exact (hy u hvu).done rfl
      | some a =>
        obtain ⟨ms, hms, rfl⟩ := hls
        exact (hy u hvu).more a ms rfl hms
    obtain ⟨ms, hms, heq⟩ := hsort.yields u htu ls hyield
    exact ⟨ms, hms, (hyield.inOrder hr.ordered hs).docOrder_eq ▸ heq⟩
  refine (hR.sortedCursor hE h0 hl hlf).bind fun l t _ hst ⟨⟨hl, hls⟩, hlsort⟩ => ?_
  refine (Cursor.pull_true hR hE (h0.trans hst) hl hlsort.fresh.counted).bind
    fun p u _ htu ⟨hp, hpc, hpy⟩ => ?_
  replace hr := hr.mono (hst.trans htu).toKeeps
  refine (hR.sortedCursor hE (h0.trans (hst.trans htu)) hr hrf).bind
    fun r v _ huv ⟨⟨hr, hrs⟩, hrsort⟩ => ?_
  refine (Cursor.pull_true hR hE (h0.trans (hst.trans (htu.trans huv))) hr
    hrsort.fresh.counted).bind fun q w _ hvw ⟨hq, hqc, hqy⟩ => ?_
  refine .pure ⟨⟨⟨hpc.counted, hqc.counted⟩, trivial⟩, fun x hx ns => ?_⟩
  rintro ⟨ls, rs, hlsy, hrsy, rfl⟩
  have hvx := hvw.trans hx
  have hux := huv.trans hvx
  obtain ⟨ms, hms, rfl⟩ := hside hlsort hl hls (htu.trans hux) hux hpy hlsy
  obtain ⟨ks, hks, rfl⟩ := hside hrsort hr hrs hvx hx hqy hrsy
  exact ⟨ms, ks, hms, hks, rfl⟩

theorem Cursor.startDistinct_true (hR : S.Reads J s₀ E) (hE : E.Safe S) (h0 : s₀.LeadsTo s)
    {base : Cursor} (hb : base.Sound S s) (hf : base.Fresh) (key : Option Expr) (c : Context) :
    S.Ensures s (startDistinct E base key c) fun r t => r.Fresh ∧ ∀ u, t.LeadsTo u → ∀ ns,
      r.Yields (J u) ns → InOrder ns ∧ ∃ ms, base.Yields (J u) ms ∧
        Firsts ((J u).textBy (key.map (·, c.ambient))) [] (docOrder ms) ns := by
  refine (hR.sortedCursor hE h0 hb hf).bind fun r t _ _ ⟨⟨hr, hs⟩, hsort⟩ => .pure ?_
  refine ⟨⟨hsort.fresh.counted, trivial⟩, ?_⟩
  rintro u hu ns ⟨ms, hms, hfirst⟩
  have hin := hms.inOrder hr.ordered hs
  obtain ⟨ks, hks, heq⟩ := hsort.yields u hu ms hms
  rw [hin.docOrder_eq] at heq
  exact ⟨hin.sublist hfirst.sublist, ks, hks, heq ▸ hfirst⟩

namespace Expr

theorem steps_selects {J K : Oracle} (h : J.Agrees K) {F : Forest}
    {global c : Context} {start : Expr} {starts : Cursor} {plan : StepPlan} {sorted : Bool}
    (ho : starts.Ordered F) (hs : starts.flags.sorted = true)
    (hstart : ∀ os, starts.Yields J os → K.Selects global start c (docOrder os)) {ns : List Node}
    (hy : Cursor.Yields J (.steps starts plan c.ambient .empty sorted) ns) :
    K.Selects global (.path start plan.axis plan.test plan.predicates) c (docOrder ns) := by
  obtain ⟨ms, os, reached, hms, hos, hreached, rfl⟩ := hy
  obtain rfl : ms = [] := hms
  have hsel := hstart os hos
  rw [(hos.inOrder ho hs).docOrder_eq] at hsel
  exact .path hsel (hreached.imp fun _ _ => h.narrows)

theorem filter_selects {J K : Oracle} (hJ : J.Lawful) (h : J.Agrees K) {F : Forest}
    {global c : Context} {base p : Expr} {r : Cursor} (ho : r.Ordered F)
    (hs : p.isPositional = true → r.flags.sorted = true)
    (hbase : ∀ ms, r.Yields J ms → K.Selects global base c (docOrder ms)) {ns : List Node}
    (hy : (r.select p c false).Yields J ns) :
    K.Selects global (.filter base p) c (docOrder ns) := by
  obtain ⟨ms, hms, hp⟩ := Cursor.yields_select.mp hy
  have hheld := hms.holds ho
  have hpicks : J.Picks p c.ambient (docOrder ms).length 0 (docOrder ms) (docOrder ns) := by
    cases hpos : p.isPositional with
    | true =>
      have hin := hms.inOrder ho (hs hpos)
      rwa [hin.docOrder_eq, InOrder.docOrder_eq (hin.sublist hp.sublist)]
    | false => exact hp.sort hheld fun n k k' b ht => hJ.unplaced hpos ht k' _
  exact .filter (hbase ms hms)
    (h.picks hpicks)

/-- A fresh cursor whose nodes an expression stands for. -/
def CursorSelects (S : Setting) (J K : Session → Oracle) (e : Expr) (c : Context) (r : Cursor)
    (t : Session) : Prop :=
  r.Fresh ∧ ∀ u, t.LeadsTo u → ∀ ns, r.Yields (J u) ns →
    (K u).Selects S.transformation.globalContext e c (docOrder ns)

theorem CursorSelects.of_sorts {e : Expr} {c : Context} {r k : Cursor}
    {t : Session} (h : r.Sorts J k t) (hr : ∀ u, t.LeadsTo u → ∀ ns, r.Yields (J u) ns →
      (K u).Selects S.transformation.globalContext e c (docOrder ns)) :
    CursorSelects S J K e c k t := by
  refine ⟨h.fresh, fun u hu ns hns => ?_⟩
  obtain ⟨ms, hms, heq⟩ := h.yields u hu ns hns
  exact heq ▸ hr u hu ms hms

theorem pathCursor_true (hJ : ∀ u, (J u).Agrees (K u))
    (hR : S.Reads J s₀ E) (hE : E.Safe S) (hC : S.Selects J K s₀ E) (h0 : s₀.LeadsTo s)
    {start : Expr} (hs : start.Fits S.forest s) (plan : StepPlan)
    (hp : ∀ p ∈ plan.predicates, p.Fits S.forest s) {c : Context} (hc : c.Fits S.forest s) :
    S.Ensures s (pathCursor E start plan c)
      (CursorSelects S J K (.path start plan.axis plan.test plan.predicates) c) := by
  refine ((hE.cursor hs hc).and (hC.cursor h0 hs hc)).bind
    fun starts t _ hst ⟨⟨hsound, hsorted, hsingle⟩, hfresh, hy⟩ => ?_
  replace hp := fun p hp' => (hp p hp').mono hst.toKeeps
  replace hc := hc.mono hst.toKeeps
  have hsorted' := hsorted (.inl rfl)
  have hsel : ∀ b u, t.LeadsTo u → ∀ ns,
      Cursor.Yields (J u) (.steps starts plan c.ambient .empty b) ns →
      (K u).Selects S.transformation.globalContext
        (.path start plan.axis plan.test plan.predicates) c (docOrder ns) :=
    fun b u hu ns hns => steps_selects (hJ u) hsound.ordered hsorted' (hy u hu) hns
  have hcounted : ∀ b, Cursor.Counted (.steps starts plan c.ambient .empty b) := fun b =>
    ⟨hfresh.counted, (Cursor.fresh_ofOption none).counted⟩
  refine .ite (fun h => .pure ⟨⟨hcounted true, trivial⟩, hsel true⟩) fun _ => ?_
  have hsteps := steps_sound hsound hp hc false nofun
  refine ((hE.extent hsteps).and (hR.extent (h0.trans hst) hsteps (hcounted false))).bind
    fun e u _ htu ⟨he, hye⟩ => ?_
  exact (Extent.sort_true he hye).imp fun r v _ huv hr =>
    .of_sorts hr fun w hw => hsel false w (htu.trans (huv.trans hw))

theorem enumerate_true (hS : S.Safe) (hL : ∀ u, (J u).Lawful) (hJ : ∀ u, (J u).Agrees (K u))
    (hV : S.Values K s₀ E) (hR : S.Reads J s₀ E) (hE : E.Safe S)
    (hC : S.Selects J K s₀ E) (h0 : s₀.LeadsTo s) {e : Expr} (he : e.Fits S.forest s)
    {c : Context} (hc : c.Fits S.forest s) (sort : Bool) :
    S.Ensures s (e.enumerate S.transformation E c sort) (CursorSelects S J K e c) := by
  have hone : ∀ {t : Session} {n : Option Node},
      (∀ u, (K u).Selects S.transformation.globalContext e c n.toList) →
      CursorSelects S J K e c (.ofOption n) t := by
    intro t n hn
    refine ⟨Cursor.fresh_ofOption n, fun u _ ns hns => ?_⟩
    rw [Cursor.yields_ofOption.mp hns]
    cases n <;> exact hn u
  have hother : e.isNodeSetExpr = false →
      S.Ensures s (do (← E.nodeSet e c).enumerateSorted S.transformation E sort)
        (CursorSelects S J K e c) := by
    intro hne
    refine ((hE.nodeSet he hc).and (hV.value h0 he hc)).bind fun ns t _ hst ⟨hns, hval⟩ => ?_
    exact (NodeSet.enumerateSorted_true hS hE hV hC (h0.trans hst) hns sort).imp
      fun r u _ htu ⟨hr, hy⟩ => ⟨hr, fun v hv ms hms =>
        .operand hne (hval v (htu.trans hv)) (hy v hv ms hms c)⟩
  cases e with
  | root => exact (Context.node_true hc).map fun n t hn => hone fun _ => .root hn.2
  | contextNode => exact (Context.node_true hc).map fun n t hn => hone fun _ => .contextNode hn.2
  | parentNode => exact (Context.node_true hc).map fun n t hn => hone fun _ => .parentNode hn.2
  | currentNode => exact Context.current_true.map fun n t hn => hone fun _ => .currentNode hn
  | «attribute» name =>
    exact (Context.node_true hc).map fun n t hn => hone fun _ => .attribute name hn.2
  | axis along test origin =>
    rw [Expr.Fits, leaves, fits_nodes] at he
    have hfrom : ∀ t n, s₀.LeadsTo t → S.forest.Holds n → (origin <|> c.node?) = some n →
        S.Ensures t (cursorFrom E sort (.onAxis n along test))
          (CursorSelects S J K (.axis along test origin) c) := by
      intro t n h0 hn heq
      have hsel : ∀ u ns, (Cursor.onAxis n along test).Yields (J u) ns →
          (K u).Selects S.transformation.globalContext (.axis along test origin) c
            (docOrder ns) := by
        intro u ns hns
        rw [(Cursor.yields_onAxis hn.2).mp hns]
        exact .axis along test heq
      have hfresh := Cursor.fresh_onAxis n along test
      refine .ite (fun _ => ?_) fun _ => .pure ⟨hfresh, fun u _ => hsel u⟩
      exact (hR.sortedCursor hE h0 ⟨Cursor.onAxis_ordered hn along test, trivial⟩ hfresh).imp
        fun r u _ _ hr => .of_sorts hr.2 fun v _ => hsel v
    cases origin with
    | some n => exact hfrom s n h0 (he n (by simp)) rfl
    | none =>
      exact (Context.node_true hc).bind fun n t _ hst hn => hfrom t n (h0.trans hst) hn.1 hn.2
  | path start along test predicates =>
    rw [Expr.Fits, leaves, fits_append, fits_leavesOfAll] at he
    exact pathCursor_true hJ hR hE hC h0 he.1 ⟨along, test, predicates⟩ he.2 hc
  | filter base predicate =>
    rw [Expr.Fits, leaves, fits_append] at he
    refine ((hE.cursor he.1 hc).and (hC.cursor h0 he.1 hc)).bind fun r t _ hst hrt => ?_
    obtain ⟨⟨hr, hs, -⟩, hfresh, hy⟩ := hrt
    refine .pure ⟨hfresh.select predicate c, ?_⟩
    exact fun u hu ns hns => filter_selects (hL u) (hJ u) hr.ordered
      (fun hp => hs (.inl (by simp [hp]))) (hy u hu) hns
  | set op l r =>
    rw [Expr.Fits, leaves, fits_append] at he
    refine ((hE.cursor he.1 hc).and (hC.cursor h0 he.1 hc)).bind fun a t _ hst hat => ?_
    obtain ⟨⟨ha, -⟩, haf, hay⟩ := hat
    have her := Expr.Fits.mono he.2 hst.toKeeps
    have hct := hc.mono hst.toKeeps
    refine ((hE.cursor her hct).and (hC.cursor (h0.trans hst) her hct)).bind fun b u _ htu hbu => ?_
    obtain ⟨⟨hb, -⟩, hbf, hby⟩ := hbu
    refine (Cursor.startMerge_true hR hE (h0.trans (hst.trans htu)) op (ha.mono htu.toKeeps) haf
      hb hbf).imp fun m v _ huv hm => ⟨hm.1, fun w hw ns hns => ?_⟩
    obtain ⟨ls, rs, hls, hrs, rfl⟩ := hm.2 w hw ns hns
    have huw := huv.trans hw
    rw [(op.combine_inOrder (Node.docOrder_inOrder ls)).docOrder_eq]
    exact .set (hay w (htu.trans huw) ls hls) (hby w huw rs hrs)
  | distinct base =>
    rw [Expr.Fits, leaves] at he
    refine ((hE.cursor he hc).and (hC.cursor h0 he hc)).bind fun r t _ hst hrt => ?_
    obtain ⟨⟨hr, -⟩, hf, hy⟩ := hrt
    refine (Cursor.startDistinct_true hR hE (h0.trans hst) hr hf none c).imp
      fun m v _ htv hm => ⟨hm.1, fun w hw ns hns => ?_⟩
    obtain ⟨hin, ms, hms, hfirst⟩ := hm.2 w hw ns hns
    rw [hin.docOrder_eq]
    exact .distinct (hy w (htv.trans hw) ms hms) (hfirst.imp fun _ _ => (hJ w).textBy)
  | distinctBy base key =>
    rw [Expr.Fits, leaves, fits_append] at he
    refine ((hE.cursor he.1 hc).and (hC.cursor h0 he.1 hc)).bind fun r t _ hst hrt => ?_
    obtain ⟨⟨hr, -⟩, hf, hy⟩ := hrt
    refine (Cursor.startDistinct_true hR hE (h0.trans hst) hr hf (some key) c).imp
      fun m v _ htv hm => ⟨hm.1, fun w hw ns hns => ?_⟩
    obtain ⟨hin, ms, hms, hfirst⟩ := hm.2 w hw ns hns
    rw [hin.docOrder_eq]
    exact .distinctBy (hy w (htv.trans hw) ms hms) (hfirst.imp fun _ _ => (hJ w).textBy)
  | sorted base keys rules =>
    rw [Expr.Fits, leaves, fits_append, fits_leavesOfAll] at he
    refine ((hE.cursor he.1 hc).and (hC.cursor h0 he.1 hc)).bind fun r t _ hst hrt => ?_
    obtain ⟨⟨hr, -⟩, hf, hy⟩ := hrt
    refine ((hE.drain hr).and (hR.drain (h0.trans hst) hr hf.counted)).bind fun ns u _ htu hnu => ?_
    obtain ⟨⟨hns, -⟩, hyd⟩ := hnu
    have hheld : S.forest.HoldsAll ns := fun n hn => hr.ordered.holds (hns n hn)
    have hsu := (hst.trans htu).toKeeps
    have hkeys : ∀ k ∈ keys.zip rules, k.1.Fits S.forest u := fun k hk =>
      Expr.Fits.mono (he.2 k.1 (List.of_mem_zip hk).1) hsu
    refine (Sorting.sortNodes_safe hE hheld hkeys (hc.mono hsu)).bind fun ms v _ huv hms => ?_
    have hsel : ∀ w, v.LeadsTo w → (K w).Selects S.transformation.globalContext
        (.sorted base keys rules) c (docOrder ms) := by
      intro w hw
      have huw := huv.trans hw
      rw [hheld.docOrder_congr fun n => hms.mem_iff]
      exact .sorted (hy w (htu.trans huw) ns (hyd w huw))
    have hmheld : S.forest.HoldsAll ms := fun n hn => hheld n (hms.subset hn)
    refine .ite (fun _ => ?_) fun _ => .pure ⟨Cursor.fresh_slice ms false false, ?_⟩
    · have hfits : (Extent.ofNodes ms false).Fits S.forest := ⟨Extent.ofNodes_honest (by simp), hmheld⟩
      refine (Extent.sort_true (J := J) (c := .slice ms false false) hfits fun _ _ => rfl).imp
        fun r w _ hvw hr => .of_sorts hr fun x hx ks hks => ?_
      rw [show ks = ms from hks]
      exact hsel x (hvw.trans hx)
    · intro w hw ks hks
      rw [show ks = ms from hks]
      exact hsel w hw
  | value v =>
    cases v with
    | nodeSet ns =>
      exact (NodeSet.enumerateSorted_true hS hE hV hC h0 he sort).imp
        fun r u _ _ hr => ⟨hr.1, fun w hw ms hms => hr.2 w hw ms hms c⟩
    | string => exact hother rfl
    | number => exact hother rfl
    | boolean => exact hother rfl
    | object => exact hother rfl
  | logical => exact hother rfl
  | compare => exact hother rfl
  | compareNode => exact hother rfl
  | compareNodes => exact hother rfl
  | arithmetic => exact hother rfl
  | negate => exact hother rfl
  | call => exact hother rfl
  | extension => exact hother rfl
  | reference => exact hother rfl
  | positionRange => exact hother rfl
  | isLast => exact hother rfl
  | template => exact hother rfl
  | failure => exact hother rfl

end Expr

/-- Where an engine answers truly at every depth, it reads cursors truly, and makes them of the
nodes that expressions stand for. -/
theorem engine_selects (hS : S.Safe) (hL : ∀ u, (J u).Lawful) (hJ : ∀ u, (J u).Agrees (K u))
    (hA : ∀ n, S.Answers J s₀ (engine S.transformation n))
    (hV : ∀ n, S.Values K s₀ (engine S.transformation n)) (n : Nat) :
    S.Reads J s₀ (engine S.transformation n) ∧ S.Selects J K s₀ (engine S.transformation n) := by
  induction n with
  | zero => exact ⟨.zero, ⟨fun _ _ _ => .fail⟩⟩
  | succ n ih =>
    have hE := engine_safe hS n
    exact ⟨.succ hL hE (hA n) ih.1, ⟨fun h0 he hc =>
      Expr.enumerate_true hS hL hJ (hV n) ih.1 hE ih.2 h0 he hc _⟩⟩

end PathLanguage
