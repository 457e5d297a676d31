/- Questions to node-sets. Whatever represents a node-set, and however often its nodes were asked
for and whether they are kept by now, every answer that is given is that of the nodes it stands
for. -/
import PathLanguage.Proofs.Comparison
import PathLanguage.Proofs.NodeSet.Keeping

namespace PathLanguage

open Node (docOrder InOrder)
open Setting (Observes Ready)

/-- What a caller may ask a node-set. -/
inductive Question where
  | enumerate
  | enumerateSorted (sort : Bool)
  | count
  | first
  | string
  | boolean
  | materialize
  | compare (op : Comparison) (v : Value)

inductive Answer where
  | nodes (ns : List Node)
  | number (n : Nat)
  | node (n : Option Node)
  | string (s : String)
  | boolean (b : Bool)

/-- Asks a node-set; enumerations are read to their ends. -/
def NodeSet.ask (T : Transformation) (E : Engine) (ns : NodeSet) : Question → Action Answer
  | .enumerate => do return .nodes (← ns.members T E)
  | .enumerateSorted sort => do return .nodes (← E.drain (← ns.enumerateSorted T E sort))
  | .count => return .number (← ns.count T E)
  | .first => return .node (← ns.first T E)
  | .string => return .string (← ns.asString T E)
  | .boolean => return .boolean (← ns.asBoolean T E)
  | .materialize => return .nodes (← ns.materialize T E).nodes
  | .compare op v => return .boolean (← (Value.nodeSet ns).compare T E op v)

/-- Whether nodes stand in a relation to a value: some of them does to it, or to a member of a
node-set; to a boolean it is whether there are any. -/
def Comparison.Holds (op : Comparison) (members : NodeSet → List Node) (nodes : List Node) :
    Value → Prop
  | .nodeSet ns =>
    ∃ a ∈ nodes, ∃ b ∈ members ns, op.strings a.stringValue b.stringValue = true
  | .string s => ∃ a ∈ nodes, op.strings a.stringValue s = true
  | .number x => ∃ a ∈ nodes, op.numbers (.ofText a.stringValue) x = true
  | .boolean b => op.booleans (!nodes.isEmpty) b = true
  | .object _ => False

/-- The right answers of a node-set with given nodes. -/
def Question.Right (members : NodeSet → List Node) (nodes : List Node) :
    Question → Answer → Prop
  | .enumerate, a | .enumerateSorted false, a => ∃ ns, a = .nodes ns ∧ ∀ n, n ∈ ns ↔ n ∈ nodes
  | .enumerateSorted true, a | .materialize, a => a = .nodes nodes ∧ Node.Ascending nodes
  | .count, a => a = .number nodes.length
  | .first, a => a = .node nodes.head?
  | .string, a => a = .string ((nodes.head?.map Node.stringValue).getD "")
  | .boolean, a => a = .boolean (!nodes.isEmpty)
  | .compare op v, a => ∃ b, a = .boolean b ∧ (b = true ↔ op.Holds members nodes v)

section

variable {S : Setting} {members : NodeSet → List Node} {s₀ s t : Session} {α : Type} {n : Nat}
  {id : Nat} {d : Expr}

/-- A lazy node-set registered at the beginning of a run, with a definite definition. -/
structure Setting.Registered (S : Setting) (s₀ : Session) (id : Nat) (d : Expr) : Prop where
  definition : s₀.definition? id = some d
  fits : d.Fits S.forest s₀
  definite : d.Definite

theorem Setting.Registered.of_fits (h : (NodeSet.intent id d).Fits S.forest s₀)
    (hd : d.Definite) : S.Registered s₀ id d :=
  ⟨(NodeSet.fits_intent.mp h).1, (NodeSet.fits_intent.mp h).2, hd⟩

/-- The cursor of a registered definition is on the nodes that the node-set stands for. -/
theorem Setting.Registered.cursor (h : S.Registered s₀ id d) (hS : S.Safe)
    (hm : NodeSet.Denotes S.transformation members) (n : Nat) (sort : Bool) :
    S.Observes members s₀ s
      ((engine S.transformation n).cursor d S.transformation.globalContext sort)
      fun c t => S.Ready members s₀ (members (.intent id d)) c t ∧
        (sort = true → c.flags.sorted = true) := by
  intro hk
  have hfits := h.fits.mono hk.leads.toKeeps
  have hg := hS.globalContext s
  have hcursor : S.Ensures s
      ((engine S.transformation n).cursor d S.transformation.globalContext sort) _ :=
    ((engine_safe hS n).cursor hfits hg).and
      ((sessionless_selects hS s₀ n).2.cursor hk.leads hfits hg)
  obtain ⟨ht, hst, hq⟩ := hcursor hk.sound
  have hecho := (engine_echoes S.transformation ⟨s, s, false⟩ n.le_refl).cursor
    S.transformation.globalContext sort (d.echo_self _ h.definite.standsAlone) s s
    (.start nofun nofun)
  rcases hecho with ⟨hgiven, hsince⟩ | ⟨hr, he⟩
  · refine ⟨hk.since ht hst hsince, hst, fun c hc => ?_⟩
    cases hgiven.symm.trans hc
  · refine ⟨hk.since ht hst he.left, hst, fun c hc => ?_⟩
    obtain ⟨⟨hsound, hsort, -⟩, hfresh, hy⟩ := hq c hc
    refine ⟨⟨hsound, hfresh, fun ms hms => ?_, ⟨s, s, false⟩, rfl, hk, hst, he, ?_⟩,
      fun h => hsort (.inl h)⟩
    · exact (hm (.intent id d) _ h.definite (.lazy (hy _ (.refl _) ms hms))).symm
    · rw [hc] at hr
      cases hr with
      | ok hr => exact hr

theorem Setting.Registered.materialize (h : S.Registered s₀ id d) (hS : S.Safe)
    (hm : NodeSet.Denotes S.transformation members) (n : Nat) :
    S.Observes members s₀ s
      (NodeSet.materializeIntent S.transformation (engine S.transformation n) id d) fun e _ =>
        e.Fits S.forest ∧ docOrder e.nodes = members (.intent id d) := by
  refine .assume fun hk => .get ?_
  split
  · next e he =>
    exact .pure ⟨Session.extent_fits hk.sound he, hk.kept id d e h.definition h.definite he⟩
  · refine (h.cursor hS hm n false).bind fun c t _ ⟨hc, _⟩ => (hc.extent hS n).bind
      fun e u _ ⟨hfits, he⟩ hk => ?_
    have hright : ((u.intent id).extent.getD e).Fits S.forest ∧
        docOrder ((u.intent id).extent.getD e).nodes = members (.intent id d) := by
      cases hi : (u.intent id).extent with
      | none => exact ⟨hfits, he⟩
      | some e' =>
        exact ⟨Session.extent_fits hk.sound hi, hk.kept id d e' h.definition h.definite hi⟩
    obtain ⟨hv, huv⟩ := hk.setIntent id
      (i := { u.intent id with extent := some ((u.intent id).extent.getD e) }) rfl
      (fun e' h => by simp [h]) (by rintro e' ⟨⟩; exact hright.1) (by
        rintro e' ⟨⟩ d' hd' -
        obtain rfl := Option.some.inj (h.definition.symm.trans hd')
        exact hright.2)
    exact ⟨hv, huv, fun _ hx => Except.ok.inj hx ▸ hright⟩

/-- Counting a use changes nothing that is kept. -/
theorem registerUse_observes (T : Transformation) (id : Nat) :
    S.Observes members s₀ s (NodeSet.registerUse T id) fun _ _ => True := by
  intro hk
  obtain ⟨ht, hst⟩ := hk.setIntent id
    (i := { s.intent id with uses := (s.intent id).uses + 1 }) rfl (fun _ h => h)
    (fun e he => Session.extent_fits hk.sound he) fun e he d hd hdd => hk.kept id d e hd hdd he
  exact ⟨ht, hst, fun _ _ => trivial⟩

/-- An extent is read as it is, or sorted. -/
theorem cursorOfExtent_observes {e : Extent} (he : e.Fits S.forest) (sort : Bool) :
    S.Observes members s₀ s (NodeSet.cursorOfExtent e sort) fun c t =>
      S.Ready members s₀ (docOrder e.nodes) c t ∧ (sort = true → c.flags.sorted = true) := by
  have hready (t : Session) {e : Extent} (he : e.Fits S.forest) :
      S.Observes members s₀ t (pure (.ofExtent e)) fun c t =>
        S.Ready members s₀ (docOrder e.nodes) c t ∧ c.flags.sorted = e.sorted :=
    .assume fun hk => .pure
      ⟨.ofNodes hk (Cursor.sound_ofExtent he) (Cursor.fresh_ofExtent e) rfl, rfl⟩
  unfold NodeSet.cursorOfExtent
  split
  · refine (Observes.ofExcept (Q := fun e' _ => e.sort = .ok e') fun _ h => h).bind
      fun e' t hst hs => ?_
    obtain ⟨hfits, hsorted⟩ := Extent.sort_fits he hs
    have hnodes := (Extent.sort_ok he.honest he.holds hs).2.2.1
    refine (hready t hfits).imp fun c u ⟨hc, hflags⟩ => ⟨?_, fun _ => hflags.trans hsorted⟩
    rwa [hnodes, Node.docOrder_docOrder] at hc
  · next hsort => exact (hready s he).imp fun c t hc => ⟨hc.1, fun h => absurd h hsort⟩

/-- A node-set of a run: lazy, registered at its beginning and definite, or with nodes at hand. -/
structure NodeSet.Known (S : Setting) (s₀ : Session) (ns : NodeSet) : Prop where
  fits : ns.Fits S.forest s₀
  definite : ns.Definite

section known

variable {ns : NodeSet}

theorem enumerateIntent_observes (hS : S.Safe) (hm : NodeSet.Denotes S.transformation members)
    (h : S.Registered s₀ id d) (n : Nat) (sort : Bool) :
    S.Observes members s₀ s
      (NodeSet.enumerateIntent S.transformation (engine S.transformation n) id d sort) fun c t =>
        S.Ready members s₀ (members (.intent id d)) c t ∧
          (sort = true → c.flags.sorted = true) := by
  refine .assume fun hk => .get ?_
  split
  · next e he =>
    rw [← hk.kept id d e h.definition h.definite he]
    exact cursorOfExtent_observes (Session.extent_fits hk.sound he) sort
  · refine (registerUse_observes S.transformation id).bind fun kept t _ _ => ?_
    split
    · refine (h.materialize hS hm n).bind fun e u _ ⟨hfits, he⟩ => ?_
      rw [← he]
      exact cursorOfExtent_observes hfits sort
    · exact h.cursor hS hm n sort

theorem members_atHand (hm : NodeSet.Denotes S.transformation members) (ns : NodeSet)
    (h : ns.AtHand) : members ns = ns.atHand := by
  refine hm ns _ ?_ (.atHand h)
  cases ns with
  | intent id d => exact absurd rfl (h id d)
  | _ => trivial

/-- At most one node, in every order at once. -/
theorem ofOption_observes {o : Option Node} (ho : ∀ m ∈ o, S.forest.Holds m) :
    S.Observes members s₀ s (pure (.ofOption o)) fun c t =>
      S.Ready members s₀ o.toList c t ∧ c.flags.sorted = true :=
  .assume fun hk => .pure ⟨.ofNodes hk (Cursor.sound_ofOption ho) (Cursor.fresh_ofOption o)
    (by cases o <;> rfl), rfl⟩

theorem scan_observes (hS : S.Safe) (hm : NodeSet.Denotes S.transformation members)
    (h : ns.Known S s₀) (n : Nat) :
    S.Observes members s₀ s (ns.scan S.transformation (engine S.transformation n)) fun c t =>
      S.Ready members s₀ (members ns) c t := by
  cases ns with
  | empty =>
    rw [members_atHand hm .empty nofun]
    exact (ofOption_observes (o := none) nofun).imp fun c t hc => hc.1
  | single o navigable =>
    rw [members_atHand hm (.single o navigable) nofun]
    exact (ofOption_observes (NodeSet.holds_of_single h.fits)).imp fun c t hc => hc.1
  | extent e =>
    rw [members_atHand hm (.extent e) nofun]
    have he := NodeSet.fits_extent.mp h.fits
    exact (cursorOfExtent_observes he false).imp fun c t hc => hc.1
  | intent id d =>
    exact (enumerateIntent_observes hS hm (.of_fits h.fits h.definite) n false).imp
      fun c t hc => hc.1

theorem enumerateSorted_observes (hS : S.Safe) (hm : NodeSet.Denotes S.transformation members)
    (h : ns.Known S s₀) (n : Nat) (sort : Bool) :
    S.Observes members s₀ s
      (ns.enumerateSorted S.transformation (engine S.transformation n) sort) fun c t =>
        S.Ready members s₀ (members ns) c t ∧ (sort = true → c.flags.sorted = true) := by
  cases ns with
  | empty =>
    rw [members_atHand hm .empty nofun]
    exact (ofOption_observes (o := none) nofun).imp fun c t hc => ⟨hc.1, fun _ => hc.2⟩
  | single o navigable =>
    rw [members_atHand hm (.single o navigable) nofun]
    cases navigable with
    | false => exact .fail
    | true =>
      exact (ofOption_observes (NodeSet.holds_of_single h.fits)).imp
        fun c t hc => ⟨hc.1, fun _ => hc.2⟩
  | extent e =>
    rw [members_atHand hm (.extent e) nofun]
    exact cursorOfExtent_observes (NodeSet.fits_extent.mp h.fits) sort
  | intent id d => exact enumerateIntent_observes hS hm (.of_fits h.fits h.definite) n sort

/-- The number of nodes: told by a sorted cursor, or that of what is kept from now on. -/
theorem count_observes (hS : S.Safe) (hm : NodeSet.Denotes S.transformation members)
    (h : ns.Known S s₀) (n : Nat) :
    S.Observes members s₀ s (ns.count S.transformation (engine S.transformation n)) fun k _ =>
      k = (members ns).length := by
  have hsort (t : Session) {e : Extent} (he : e.Fits S.forest) :
      S.Observes members s₀ t (do return (← Action.ofExcept e.sort).nodes.length) fun k _ =>
        k = (docOrder e.nodes).length :=
    (Observes.ofExcept (Q := fun e' _ => e'.nodes = docOrder e.nodes) fun e' hs =>
      (Extent.sort_ok he.honest he.holds hs).2.2.1).map fun e' _ hn => congrArg List.length hn
  cases ns with
  | empty =>
    rw [members_atHand hm .empty nofun]
    exact .pure rfl
  | single o navigable =>
    rw [members_atHand hm (.single o navigable) nofun]
    exact .pure rfl
  | extent e =>
    rw [members_atHand hm (.extent e) nofun]
    exact hsort s (NodeSet.fits_extent.mp h.fits)
  | intent id d =>
    have hr : S.Registered s₀ id d := .of_fits h.fits h.definite
    have hkeep (t : Session) : S.Observes members s₀ t
        (do
          let e ← NodeSet.materializeIntent S.transformation (engine S.transformation n) id d
          return (← Action.ofExcept e.sort).nodes.length) fun k _ =>
        k = (members (.intent id d)).length :=
      (hr.materialize hS hm n).bind fun e u _ ⟨hfits, he⟩ => he ▸ hsort u hfits
    refine .assume fun hk => .get ?_
    split
    · next e he =>
      rw [← hk.kept id d e hr.definition hr.definite he]
      exact hsort s (Session.extent_fits hk.sound he)
    · refine (hr.cursor hS hm n false).bind fun c t _ ⟨hc, _⟩ => ?_
      extract_lets finish
      have hfinish (u : Session) (told : Option Nat)
          (ht : ∀ k ∈ told, k = (members (.intent id d)).length) :
          S.Observes members s₀ u (finish told) fun k _ =>
            k = (members (.intent id d)).length := by
        cases told with
        | none => exact hkeep u
        | some k => exact .pure (ht k rfl)
      refine .ite (fun hcounts => ?_) fun _ => hfinish t none nofun
      have hsize := (hc.size hS hcounts n).bind fun told u _ ht => hfinish u told ht
      rwa [bind_assoc] at hsize

theorem first_observes (hS : S.Safe) (hm : NodeSet.Denotes S.transformation members)
    (h : ns.Known S s₀) (n : Nat) :
    S.Observes members s₀ s (ns.first S.transformation (engine S.transformation n)) fun o _ =>
      o = (members ns).head? := by
  have hfirst (t : Session) {e : Extent} (he : e.Fits S.forest) :
      S.Observes members s₀ t (.ofExcept e.first) fun o _ => o = (docOrder e.nodes).head? :=
    .ofExcept fun o ho => Extent.first_ok he.honest he.holds ho
  cases ns with
  | empty =>
    rw [members_atHand hm .empty nofun]
    exact .pure rfl
  | single o navigable =>
    rw [members_atHand hm (.single o navigable) nofun]
    refine .pure ?_
    cases o <;> rfl
  | extent e =>
    rw [members_atHand hm (.extent e) nofun]
    exact hfirst s (NodeSet.fits_extent.mp h.fits)
  | intent id d =>
    have hr : S.Registered s₀ id d := .of_fits h.fits h.definite
    refine .assume fun hk => .get ?_
    split
    · next e he =>
      rw [← hk.kept id d e hr.definition hr.definite he]
      exact hfirst s (Session.extent_fits hk.sound he)
    · refine (hr.cursor hS hm n false).bind fun c t _ ⟨hc, _⟩ =>
        .ite (fun hsorted => ?_) fun _ => ?_
      · refine (hc.consume (Setting.consumes_head hS s₀ n)).imp fun o _ => ?_
        rintro ⟨ms, hms, heq, rfl⟩
        exact congrArg List.head? (heq hsorted)
      · exact (hc.extent hS n).bind fun e u _ ⟨hfits, he⟩ => he ▸ hfirst u hfits

theorem materialize_observes (hS : S.Safe) (hm : NodeSet.Denotes S.transformation members)
    (h : ns.Known S s₀) (n : Nat) :
    S.Observes members s₀ s (ns.materialize S.transformation (engine S.transformation n)) fun e _ =>
      e.nodes = members ns ∧ Node.Ascending (members ns) := by
  have hsort (t : Session) {e : Extent} (he : e.Fits S.forest) :
      S.Observes members s₀ t (.ofExcept e.sort) fun e' _ =>
        e'.nodes = docOrder e.nodes ∧ Node.Ascending (docOrder e.nodes) := by
    refine .ofExcept fun e' hs => ?_
    obtain ⟨-, -, hn, ha⟩ := Extent.sort_ok he.honest he.holds hs
    exact ⟨hn, hn ▸ ha⟩
  have hone (o : Option Node) (ho : ∀ m ∈ o, S.forest.Holds m) :
      S.Observes members s₀ s ((engine S.transformation n).extent (.ofOption o)) fun e _ =>
        e.nodes = o.toList ∧ Node.Ascending o.toList := by
    refine Observes.bind (ofOption_observes ho) (f := (engine S.transformation n).extent)
      fun c t _ ⟨hc, hs⟩ => (hc.drain hS n).map fun ms _ ⟨_, hms⟩ => ?_
    obtain ⟨rfl, ha⟩ := hms hs
    exact ⟨rfl, ha⟩
  cases ns with
  | empty =>
    rw [members_atHand hm .empty nofun]
    exact hone none nofun
  | single o navigable =>
    rw [members_atHand hm (.single o navigable) nofun]
    exact hone o (NodeSet.holds_of_single h.fits)
  | extent e =>
    rw [members_atHand hm (.extent e) nofun]
    exact hsort s (NodeSet.fits_extent.mp h.fits)
  | intent id d =>
    have hr : S.Registered s₀ id d := .of_fits h.fits h.definite
    exact (hr.materialize hS hm n).bind fun e t _ ⟨hfits, he⟩ => he ▸ hsort t hfits

theorem members_observes (hS : S.Safe) (hm : NodeSet.Denotes S.transformation members)
    (h : ns.Known S s₀) (n : Nat) :
    S.Observes members s₀ s (ns.members S.transformation (engine S.transformation n)) fun ms _ =>
      S.forest.Lists (members ns) ms :=
  .bind (.ite (fun _ => scan_observes hS hm h n) fun _ => .fail) fun _ _ _ hc =>
    (hc.drain hS n).imp fun _ _ hms => hms.1

theorem asString_observes (hS : S.Safe) (hm : NodeSet.Denotes S.transformation members)
    (h : ns.Known S s₀) (n : Nat) :
    S.Observes members s₀ s (ns.asString S.transformation (engine S.transformation n)) fun k _ =>
      k = ((members ns).head?.map Node.stringValue).getD "" :=
  (first_observes hS hm h n).map fun _ _ ho => by rw [ho]

theorem asBoolean_observes (hS : S.Safe) (hm : NodeSet.Denotes S.transformation members)
    (h : ns.Known S s₀) (n : Nat) :
    S.Observes members s₀ s (ns.asBoolean S.transformation (engine S.transformation n)) fun b _ =>
      b = !(members ns).isEmpty := by
  cases ns with
  | empty =>
    rw [members_atHand hm .empty nofun]
    exact .pure rfl
  | single o navigable =>
    rw [members_atHand hm (.single o navigable) nofun]
    refine .pure ?_
    cases o <;> rfl
  | extent e =>
    rw [members_atHand hm (.extent e) nofun]
    have he := NodeSet.fits_extent.mp h.fits
    exact .pure (congrArg not (Forest.Lists.isEmpty_eq ⟨he.holds, rfl⟩))
  | intent id d =>
    have hr : S.Registered s₀ id d := .of_fits h.fits h.definite
    refine (enumerateIntent_observes hS hm hr n false).bind fun c t _ ⟨hc, _⟩ =>
      (hc.consume (Setting.consumes_head hS s₀ n)).map fun o _ => ?_
    rintro ⟨ms, hms, -, rfl⟩
    rw [← hms.isEmpty_eq]
    cases ms <;> rfl

/-- Whether some member passes a test, as far as the first that does is found. -/
theorem find_observes (hS : S.Safe) (hm : NodeSet.Denotes S.transformation members)
    (h : ns.Known S s₀) (n : Nat) (test : Node → Bool) :
    S.Observes members s₀ s
      (do
        (engine S.transformation n).find test
          (← ns.scan S.transformation (engine S.transformation n)))
      fun b _ => b = true ↔ ∃ m ∈ members ns, test m = true := by
  refine (scan_observes hS hm h n).bind fun c t _ hc =>
    (hc.consume (Setting.consumes_find hS s₀ test n)).imp fun b _ => ?_
  rintro ⟨ms, hms, -, rfl⟩
  simp only [List.any_eq_true, hms.mem_iff]

/-- Two node-sets are compared by the strings of their members. -/
theorem compareNodeSets_observes (hS : S.Safe) (hm : NodeSet.Denotes S.transformation members)
    (h : ns.Known S s₀) {other : NodeSet} (ho : other.Known S s₀) (op : Comparison) (n : Nat) :
    S.Observes members s₀ s
      (Value.compareNodeSets S.transformation (engine S.transformation n) ns op other) fun b _ =>
        b = true ↔ op.Holds members (members ns) (.nodeSet other) := by
  refine (scan_observes hS hm h n).bind fun c t _ hc => (hc.drain hS n).bind
    fun left u _ ⟨hleft, _⟩ => .ite (fun hempty => .pure ?_) fun _ => ?_
  · rw [hleft.isEmpty_eq, List.isEmpty_iff] at hempty
    simp [Comparison.Holds, hempty]
  · refine (scan_observes hS hm ho n).bind fun c' v _ hc' => (hc'.drain hS n).map
      fun right _ ⟨hright, _⟩ => ?_
    rw [Comparison.stringLists_iff]
    simp only [List.mem_map, Comparison.Holds, ← hleft.mem_iff, ← hright.mem_iff]
    constructor
    · rintro ⟨_, ⟨a, ha, rfl⟩, _, ⟨b, hb, rfl⟩, hab⟩
      exact ⟨a, ha, b, hb, hab⟩
    · rintro ⟨a, ha, b, hb, hab⟩
      exact ⟨_, ⟨a, ha, rfl⟩, _, ⟨b, hb, rfl⟩, hab⟩

/-- A value that node-sets are compared with in a run. -/
def Value.Known (S : Setting) (s₀ : Session) : Value → Prop
  | .nodeSet ns => ns.Known S s₀
  | _ => True

theorem compare_observes (hS : S.Safe) (hm : NodeSet.Denotes S.transformation members)
    (h : ns.Known S s₀) (op : Comparison) {v : Value} (hv : v.Known S s₀) (n : Nat) :
    S.Observes members s₀ s
      ((Value.nodeSet ns).compare S.transformation (engine S.transformation n) op v) fun b _ =>
        b = true ↔ op.Holds members (members ns) v := by
  cases v with
  | nodeSet other => exact compareNodeSets_observes hS hm h hv op n
  | string text => exact find_observes hS hm h n fun m => op.strings m.stringValue text
  | number x => exact find_observes hS hm h n fun m => op.numbers (.ofText m.stringValue) x
  | boolean x => exact (asBoolean_observes hS hm h n).map fun b _ hb => by rw [hb]; rfl
  | object text => exact .pure (iff_of_false nofun id)

/-- The values that a question brings with it are known in the run. -/
def Question.Known (S : Setting) (s₀ : Session) : Question → Prop
  | .compare _ v => v.Known S s₀
  | _ => True

/-- Every answer is right, and leads to a session whose later answers will be. -/
theorem ask_observes (hS : S.Safe) (hm : NodeSet.Denotes S.transformation members)
    (h : ns.Known S s₀) {q : Question} (hq : q.Known S s₀) (n : Nat) :
    S.Observes members s₀ s (ns.ask S.transformation (engine S.transformation n) q) fun a _ =>
      q.Right members (members ns) a := by
  cases q with
  | enumerate =>
    refine (members_observes hS hm h n).map fun ms _ hms => ?_
    exact ⟨ms, rfl, hms.mem_iff⟩
  | enumerateSorted sort =>
    refine (enumerateSorted_observes hS hm h n sort).bind fun c t _ ⟨hc, hsort⟩ =>
      (hc.drain hS n).map fun ms _ ⟨hms, hsorted⟩ => ?_
    cases sort with
    | false => exact ⟨ms, rfl, hms.mem_iff⟩
    | true =>
      obtain ⟨rfl, ha⟩ := hsorted (hsort rfl)
      exact ⟨rfl, ha⟩
  | count => exact (count_observes hS hm h n).map fun _ _ hk => congrArg Answer.number hk
  | first => exact (first_observes hS hm h n).map fun _ _ ho => congrArg Answer.node ho
  | string => exact (asString_observes hS hm h n).map fun _ _ hk => congrArg Answer.string hk
  | boolean => exact (asBoolean_observes hS hm h n).map fun _ _ hb => congrArg Answer.boolean hb
  | materialize =>
    exact (materialize_observes hS hm h n).map fun _ _ he => ⟨congrArg Answer.nodes he.1, he.2⟩
  | compare op v =>
    exact (compare_observes hS hm h op hq n).map fun b _ hb => ⟨b, rfl, hb⟩

end known

end

/-- One question, put to a node-set at some depth of evaluation. -/
structure Ask where
  nodeSet : NodeSet
  question : Question
  depth : Nat

namespace Ask

def run (T : Transformation) (a : Ask) : Action Answer :=
  a.nodeSet.ask T (engine T a.depth) a.question

/-- The session after some questions, whatever the answers. -/
def after (T : Transformation) : List Ask → Session → Session
  | [], s => s
  | a :: asks, s => after T asks ((a.run T).attempt.run s).2

structure Known (S : Setting) (s₀ : Session) (a : Ask) : Prop where
  nodeSet : a.nodeSet.Known S s₀
  question : a.question.Known S s₀

/-- If there is an answer it is that of the nodes, and what was kept before stays kept. -/
structure Answered (S : Setting) (members : NodeSet → List Node) (s : Session) (a : Ask) :
    Prop where
  right : ∀ x, ((a.run S.transformation).attempt.run s).1 = .ok x →
    a.question.Right members (members a.nodeSet) x
  kept : ∀ id e, (s.intent id).extent = some e →
    (((a.run S.transformation).attempt.run s).2.intent id).extent = some e

variable {S : Setting} {members : NodeSet → List Node} {s₀ s : Session}

theorem keeping_after (hS : S.Safe) (hm : NodeSet.Denotes S.transformation members)
    (hs : S.Keeping members s₀ s) {asks : List Ask} (ha : ∀ a ∈ asks, a.Known S s₀) :
    S.Keeping members s₀ (after S.transformation asks s) := by
  induction asks generalizing s with
  | nil => exact hs
  | cons a asks ih =>
    obtain ⟨ha, hasks⟩ := List.forall_mem_cons.mp ha
    exact ih (ask_observes hS hm ha.nodeSet ha.question a.depth hs).1 hasks

/-- There are nodes for each node-set such that every answer that is given, in any sequence of
questions in which any may fail, is right for them: those at hand, or those that a definite
definition stands for. -/
theorem observations_agree (hS : S.Safe) : ∃ members : NodeSet → List Node,
    NodeSet.Denotes S.transformation members ∧ (∀ ns, InOrder (members ns)) ∧
    ∀ s, S.Sound s → (∀ id, (s.intent id).extent = none) → ∀ (asks : List Ask) (a : Ask),
      (∀ b ∈ a :: asks, b.Known S s) → a.Answered S members (after S.transformation asks s) := by
  obtain ⟨members, hm, hin⟩ := NodeSet.exists_denotes S.transformation
  refine ⟨members, hm, hin, fun s hs hnone asks a hknown => ?_⟩
  obtain ⟨ha, hasks⟩ := List.forall_mem_cons.mp hknown
  have hstart : S.Keeping members s s := by
    refine ⟨hs, .refl s, fun id d e _ _ he => ?_⟩
    rw [hnone id] at he
    cases he
  have hk := keeping_after hS hm hstart hasks
  obtain ⟨-, hst, hright⟩ := ask_observes hS hm ha.nodeSet ha.question a.depth hk
  exact ⟨hright, fun id e => hst.kept id e⟩

/-- A path to the grandchildren of a root. -/
def grandchildren : Expr := .path (.axis .child .any (some (.root .pair))) .child .any []

/-- A session that has them registered as a lazy node-set. -/
def registered : Session := (Session.newIntent {} grandchildren).2

/-- A question to that node-set. -/
def ofGrandchildren (q : Question) : Ask := ⟨.intent 0 grandchildren, q, 6⟩

/-- So many questions that the third use has its nodes kept. -/
def untilKept : List Ask := [.boolean, .first, .enumerate, .boolean].map ofGrandchildren

/-- The lazy node-set is asked until it is kept; then it is counted, and compared with itself. -/
theorem observations_agree_of_kept : ∃ t : Session, t = after .bare untilKept registered ∧
    (t.intent 0).extent.isSome = true ∧
    (((ofGrandchildren .count).run .bare).attempt.run t).1 = .ok (.number 2) ∧
    (Setting.bare .pair).Safe ∧ ∃ members, (members (.intent 0 grandchildren)).length = 2 ∧
      (ofGrandchildren (.compare .equal (.nodeSet (.intent 0 grandchildren)))).Answered
        (.bare .pair) members t := by
  have hleaves : ∀ l ∈ grandchildren.leaves, l = .node (.root .pair) := fun l hl => by
    simpa [grandchildren, Expr.leaves, leavesOfAll] using hl
  have hfits (s : Session) : grandchildren.Fits (Forest.single .pair) s := fun l hl =>
    hleaves l hl ▸ ⟨List.mem_singleton.mpr rfl, .root .pair⟩
  have hdefinite : grandchildren.Definite := fun l hl => hleaves l hl ▸ ⟨trivial, nofun⟩
  have hsound := (Session.sound_newIntent (Setting.bare_sound .pair) (hfits _) rfl).1
  have hnone : ∀ id, (registered.intent id).extent = none := fun id => by cases id <;> rfl
  have hknown : (NodeSet.intent 0 grandchildren).Known (.bare .pair) registered :=
    ⟨NodeSet.fits_intent.mpr ⟨rfl, hfits _⟩, hdefinite⟩
  obtain ⟨members, -, -, hagree⟩ := observations_agree (Setting.bare_safe .pair)
  have hanswered (q : Question) (hq : q.Known (.bare .pair) registered) :
      (ofGrandchildren q).Answered (.bare .pair) members (after .bare untilKept registered) := by
    refine hagree _ hsound hnone _ _ fun b hb => ?_
    rcases List.mem_cons.mp hb with rfl | hb
    · exact ⟨hknown, hq⟩
    · obtain ⟨q', hq', rfl⟩ := List.mem_map.mp hb
      refine ⟨hknown, ?_⟩
      simp only [List.mem_cons, List.not_mem_nil, or_false] at hq'
      rcases hq' with rfl | rfl | rfl | rfl <;> trivial
  have hcount : (((ofGrandchildren .count).run .bare).attempt.run
      (after .bare untilKept registered)).1 = .ok (.number 2) := rfl
  refine ⟨_, rfl, rfl, hcount, Setting.bare_safe .pair, members, ?_, hanswered _ hknown⟩
  exact (Answer.number.inj ((hanswered .count trivial).right _ hcount)).symm

end Ask

end PathLanguage
