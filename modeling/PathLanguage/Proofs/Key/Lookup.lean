/- Looking up keys that stand alone: matching and indexing echo themselves, and what is found is what
the definitions say of each node of the tree on its own, whatever was looked up before. -/
import PathLanguage.Evaluation.Key
import PathLanguage.Proofs.Echo.Evaluation
import PathLanguage.Proofs.Echo.Value
import PathLanguage.Proofs.Key.Entries
import PathLanguage.Proofs.Key.Sharing
import PathLanguage.Proofs.Pattern.Summary

namespace PathLanguage

variable {T : Transformation} {h : Pasts} {E E' : Engine}

def PatternStep.StandsAlone (loads : Bool) (s : PatternStep) : Prop :=
  ∀ l ∈ leavesOfAll s.predicates ++ s.check.leaves, l.StandsAlone loads

/-- A pattern that searches no key and whose predicates stand alone. -/
def Pattern.StandsAlone (loads : Bool) : Pattern → Prop
  | .document | .test _ | .id _ => True
  | .key .. => False
  | .step s => s.StandsAlone loads
  | .under _ upper s => upper.StandsAlone loads ∧ s.StandsAlone loads
  | .union a b => a.StandsAlone loads ∧ b.StandsAlone loads

structure KeyDefinition.StandsAlone (loads : Bool) (d : KeyDefinition) : Prop where
  pattern : d.pattern.StandsAlone loads
  use : d.use.StandsAlone loads

namespace Pattern

theorem holdAll_echoes (hE : E.Echoes T h E') (c : Context) {ps ps' : List Expr}
    (hps : AllEcho h ps ps') : Action.Echoes T h Eq (holdAll E c ps) (holdAll E' c ps') := by
  induction ps generalizing ps' with
  | nil =>
    cases hps
    exact .pure rfl
  | cons p ps ih =>
    cases hps with
    | cons hp hps => exact (hE.boolean c hp).bind_eq fun _ => .ite (fun _ => ih hps) fun _ => .pure rfl

theorem passes_echoes (hE : E.Echoes T h E') {s : PatternStep} (hs : s.StandsAlone h.loads) (n : Node)
    (c : Context) : Action.Echoes T h Eq (passes E s n c) (passes E' s n c) := by
  obtain ⟨hp, hq⟩ := Leaf.standsAlone_append hs
  unfold passes
  split
  · exact holdAll_echoes hE _ (allEcho_self h _ hp)
  · exact (hE.head (.listed ..)).map_eq
  · exact (hE.head (.listed ..)).map_eq
  · next e he =>
    rw [he] at hq
    exact (hE.cursor _ false (Expr.echo_self h e hq)).bind fun _ _ hk => hE.find _ hk

theorem anyOf_echoes {holds holds' : Node → Action Bool}
    (hh : ∀ n, Action.Echoes T h Eq (holds n) (holds' n)) (ns : List Node) :
    Action.Echoes T h Eq (anyOf holds ns) (anyOf holds' ns) := by
  induction ns with
  | nil => exact .pure rfl
  | cons n ns ih => exact (hh n).bind_eq fun _ => .ite (fun _ => .pure rfl) fun _ => ih

theorem accepts_echoes (hE : E.Echoes T h E') {p : Pattern} (hp : p.StandsAlone h.loads) (n : Node)
    (c : Context) : Action.Echoes T h Eq (accepts E p n c) (accepts E' p n c) := by
  induction p generalizing n with
  | document | test | id => exact .pure rfl
  | key => exact hp.elim
  | step s => exact .ite (fun _ => passes_echoes hE hp n c) fun _ => .pure rfl
  | under connector upper s ih =>
    refine .ite (fun _ => .pure rfl) fun _ => ?_
    exact (anyOf_echoes (fun m => ih hp.1 m) _).bind_eq fun _ =>
      .ite (fun _ => passes_echoes hE hp.2 n c) fun _ => .pure rfl
  | union a b iha ihb =>
    exact (iha hp.1 n).bind_eq fun _ => .ite (fun _ => .pure rfl) fun _ => ihb hp.2 n

end Pattern

namespace Key

theorem valuesOf_echoes (hE : E.Echoes T h E') {d : KeyDefinition} (hd : d.StandsAlone h.loads) (n : Node)
    (c : Context) : Action.Echoes T h Eq (valuesOf T E d n c) (valuesOf T E' d n c) := by
  refine (hE.value _ (Expr.echo_self h d.use hd.use)).bind fun v v' hv => ?_
  have hstring : Action.Echoes T h Eq (do return [← v.asString T E])
      (do return [← v'.asString T E']) :=
    (Value.asString_echoes hE hv).map_eq
  cases hv with
  | nodeSet hn => exact (NodeSet.members_echoes hE hn).map_eq
  | string | number | boolean | object => exact hstring

theorem enterNode_echoes (hE : E.Echoes T h E') {ds : List KeyDefinition}
    (hds : ∀ d ∈ ds, d.StandsAlone h.loads) (n : Node) (c : Context) (entries : Entries) :
    Action.Echoes T h Eq (enterNode T E c n ds entries) (enterNode T E' c n ds entries) := by
  induction ds generalizing entries with
  | nil => exact .pure rfl
  | cons d ds ih =>
    obtain ⟨hd, hds⟩ := List.forall_mem_cons.mp hds
    refine (Pattern.accepts_echoes hE hd.pattern n c).bind_eq fun _ => .ite (fun _ => ?_)
      fun _ => ih hds entries
    exact (valuesOf_echoes hE hd n c).bind_eq fun _ => ih hds _

theorem enterNodes_echoes (hE : E.Echoes T h E') {ds : List KeyDefinition}
    (hds : ∀ d ∈ ds, d.StandsAlone h.loads) (c : Context) (ns : List Node) (entries : Entries) :
    Action.Echoes T h Eq (enterNodes T E c ds ns entries) (enterNodes T E' c ds ns entries) := by
  induction ns generalizing entries with
  | nil => exact .pure rfl
  | cons n ns ih => exact (enterNode_echoes hE hds n c entries).bind_eq fun entries => ih entries

end Key

end PathLanguage

namespace PathLanguage

mutual

/-- What stands alone looks up no variables. -/
theorem Expr.StandsAlone.variables {loads : Bool} :
    ∀ {e : Expr}, e.StandsAlone loads → e.variables = []
  | .value _, _ | .root, _ | .contextNode, _ | .parentNode, _ | .currentNode, _ | .attribute _, _
  | .axis .., _ | .positionRange .., _ | .isLast _, _ | .failure _, _ => rfl
  | .path _ _ _ _, h | .sorted _ _ _, h => by
    obtain ⟨hb, hp⟩ := Leaf.standsAlone_append h
    rw [Expr.variables, Expr.StandsAlone.variables hb, variablesOfAll_of_alone hp]
    rfl
  | .filter _ _, h | .distinctBy _ _, h | .set _ _ _, h | .logical _ _ _, h | .compare _ _ _, h
  | .arithmetic _ _ _, h => by
    obtain ⟨hl, hr⟩ := Leaf.standsAlone_append h
    rw [Expr.variables, Expr.StandsAlone.variables hl, Expr.StandsAlone.variables hr]
    rfl
  | .compareNode _ _ _, h | .compareNodes _ _ _, h => by
    rw [Expr.variables]
    exact Expr.StandsAlone.variables (Leaf.standsAlone_append h).1
  | .distinct _, h | .negate _, h => by
    rw [Expr.variables]
    exact Expr.StandsAlone.variables h
  | .call _ _ _ _, h => by
    rw [Expr.variables]
    exact variablesOfAll_of_alone (Leaf.standsAlone_append (Leaf.standsAlone_cons h).2).1
  | .extension _ _, h => (Leaf.standsAlone_cons h).1.elim
  | .reference _, h => if_pos (Leaf.standsAlone_cons h).1
  | .template _, h => by
    rw [Expr.variables]
    exact variablesOfAll_of_alone h

theorem variablesOfAll_of_alone {loads : Bool} : ∀ {es : List Expr},
    (∀ l ∈ leavesOfAll es, l.StandsAlone loads) → variablesOfAll es = []
  | [], _ => rfl
  | _ :: _, h => by
    obtain ⟨he, hes⟩ := Leaf.standsAlone_append h
    rw [variablesOfAll, Expr.StandsAlone.variables he, variablesOfAll_of_alone hes]
    rfl

end

theorem Pattern.StandsAlone.variables {loads : Bool} {p : Pattern} (h : p.StandsAlone loads) :
    p.variables = [] := by
  have hstep {s : PatternStep} (hs : s.StandsAlone loads) : s.variables = [] := by
    obtain ⟨hp, hq⟩ := Leaf.standsAlone_append hs
    have hcheck : s.check.variables = [] := by
      cases hc : s.check with
      | among e =>
        rw [hc] at hq
        exact Expr.StandsAlone.variables hq
      | none | first | last => rfl
    rw [PatternStep.variables, variablesOfAll_of_alone hp, hcheck]
    rfl
  induction p with
  | document | test | id | key => rfl
  | step s => exact hstep h
  | under connector upper s ih =>
    rw [Pattern.variables, ih h.1, hstep h.2]
    rfl
  | union a b iha ihb =>
    rw [Pattern.variables, iha h.1, ihb h.2]
    rfl

/-- All key definitions stand alone. -/
def Transformation.KeysStandAlone (T : Transformation) : Prop :=
  ∀ d ∈ T.keys, d.StandsAlone true

theorem Transformation.KeysStandAlone.agrees {T : Transformation} (h : T.KeysStandAlone)
    (c c' : Context) : c.Agrees T ∅ [] c' := by
  have hv : T.keyVariables = [] := List.flatMap_eq_nil_iff.mpr fun d hd => by
    rw [KeyDefinition.variables, (h d hd).pattern.variables, (h d hd).use.variables]
    rfl
  refine ⟨fun v hm => ?_, nofun, nofun, nofun, nofun, nofun⟩
  rw [hv] at hm
  rcases hm with hm | hm <;> cases hm

namespace KeyDefinition

variable (T : Transformation) (E : Engine) (d : KeyDefinition) (n : Node)

/-- A node matches the pattern, evaluated for this node alone. -/
def Matches : Prop := (d.pattern.accepts E n .blank).verdict = .ok true

/-- Evaluating the use expression with a node in context and current. -/
def used : Action Value := E.value d.use ((Context.blank.withNode n).withCurrent n)

/-- The strings that the use expression gives for a node: those of the members of a node-set, or the
one of another value. -/
inductive Yields (value : String) : Prop
  | member {ns : NodeSet} {ms : List Node} {m : Node} {t : Session} :
      (d.used E n).attempt.run {} = (.ok (.nodeSet ns), t) →
      ((ns.members T E).attempt.run t).1 = .ok ms → m ∈ ms → m.stringValue = value → Yields value
  | string {v : Value} {t : Session} : (∀ ns, v ≠ .nodeSet ns) →
      (d.used E n).attempt.run {} = (.ok v, t) →
      ((v.asString T E).attempt.run t).1 = .ok value → Yields value

end KeyDefinition

/-- A node is to be found under a value by one of the definitions. -/
def Key.Enters (T : Transformation) (E : Engine) (ds : List KeyDefinition) (n : Node)
    (value : String) : Prop :=
  ∃ d ∈ ds, d.Matches E n ∧ d.Yields T E n value

namespace Key

section values

variable {T : Transformation} {E : Engine} {d : KeyDefinition} {n : Node} {values : List String}
  {t : Session}

theorem yields_of_nodeSet {ns : NodeSet} {ms : List Node}
    (hu : (d.used E n).attempt.run {} = (.ok (.nodeSet ns), t))
    (hm : ((ns.members T E).attempt.run t).1 = .ok ms) (value : String) :
    d.Yields T E n value ↔ value ∈ ms.map Node.stringValue := by
  constructor
  · rintro (⟨hu', hm', hin, hv⟩ | ⟨hne, hu', hv⟩)
    · rw [hu] at hu'
      cases hu'
      rw [hm] at hm'
      cases hm'
      exact List.mem_map.mpr ⟨_, hin, hv⟩
    · rw [hu] at hu'
      cases hu'
      exact absurd rfl (hne ns)
  · intro h
    obtain ⟨m, hin, hv⟩ := List.mem_map.mp h
    exact .member hu hm hin hv

theorem yields_of_string {v : Value} {text : String} (hne : ∀ ns, v ≠ .nodeSet ns)
    (hu : (d.used E n).attempt.run {} = (.ok v, t))
    (ht : ((v.asString T E).attempt.run t).1 = .ok text) (value : String) :
    d.Yields T E n value ↔ value = text := by
  constructor
  · rintro (⟨hu', -, -, -⟩ | ⟨-, hu', ht'⟩)
    · rw [hu] at hu'
      cases hu'
      exact absurd rfl (hne _)
    · rw [hu] at hu'
      cases hu'
      rw [ht] at ht'
      cases ht'
      rfl
  · rintro rfl
    exact .string hne hu ht

/-- A node is entered under the strings that its definition yields. -/
theorem mem_valuesOf (h : (valuesOf T E d n .blank).verdict = .ok values) (value : String) :
    value ∈ values ↔ d.Yields T E n value := by
  have hrun : (valuesOf T E d n .blank).attempt.run {} =
      (.ok values, ((valuesOf T E d n .blank).attempt.run {}).2) := Prod.ext h rfl
  obtain ⟨v, u, hu, hrest⟩ := Action.bind_ok.mp hrun
  have hstring (hne : ∀ ns, v ≠ .nodeSet ns)
      (hr : (do return [← v.asString T E] : Action (List String)).attempt.run u =
        (.ok values, ((valuesOf T E d n .blank).attempt.run {}).2)) :
      value ∈ values ↔ d.Yields T E n value := by
    obtain ⟨text, w, ht, hp⟩ := Action.bind_ok.mp hr
    cases hp
    rw [yields_of_string hne hu (congrArg Prod.fst ht), List.mem_singleton]
  cases v with
  | nodeSet ns =>
    obtain ⟨ms, w, hm, hp⟩ := Action.bind_ok.mp hrest
    cases hp
    exact (yields_of_nodeSet hu (congrArg Prod.fst hm) value).symm
  | string | number | boolean | object => exact hstring nofun hrest

end values

section index

variable {T : Transformation} {depth : Nat} {d : KeyDefinition} {ds : List KeyDefinition}
  {n : Node} {s t : Session} {es es' : Entries}

theorem accepts_sessionless (hd : d.StandsAlone true) (n : Node) (c : Context) :
    (d.pattern.accepts (engine T depth) n c).Sessionless T true :=
  fun h hl => Pattern.accepts_echoes (engine_echoes T h depth.le_refl) (hl ▸ hd.pattern) n c

theorem valuesOf_sessionless (hd : d.StandsAlone true) (n : Node) (c : Context) :
    (valuesOf T (engine T depth) d n c).Sessionless T true :=
  fun h hl => valuesOf_echoes (engine_echoes T h depth.le_refl) (hl ▸ hd) n c

theorem build_sessionless (hk : T.KeysStandAlone) (depth : Nat) (name : ExpandedName)
    (root : Node) (c : Context) : (build T (engine T depth) name root c).Sessionless T true :=
  fun h hl => enterNodes_echoes (engine_echoes T h depth.le_refl)
    (fun d hd => hl ▸ hk d (List.mem_of_mem_filter hd)) c _ _

/-- What one definition adds to the values of a node. -/
theorem enters_cons (ds : List KeyDefinition) (value : String) :
    Enters T (engine T depth) (d :: ds) n value ↔
      (d.Matches (engine T depth) n ∧ d.Yields T (engine T depth) n value) ∨
        Enters T (engine T depth) ds n value := by
  simp only [Enters, List.mem_cons, exists_eq_or_imp]

/-- Entering a node enters it under the values that the definitions give it, each on its own. -/
theorem enterNode_values (hds : ∀ d ∈ ds, d.StandsAlone true) (hs : s.Faithful T)
    (h : (enterNode T (engine T depth) .blank n ds es).attempt.run s = (.ok es', t)) :
    t.Faithful T ∧ ∃ values, es' = enterAll n values es ∧
      ∀ value, value ∈ values ↔ Enters T (engine T depth) ds n value := by
  induction ds generalizing s es with
  | nil =>
    cases h
    exact ⟨hs, [], rfl, fun value => by simp [Enters]⟩
  | cons d ds ih =>
    obtain ⟨hd, hds⟩ := List.forall_mem_cons.mp hds
    obtain ⟨b, u, hb, h⟩ := Action.bind_ok.mp h
    obtain ⟨hv, hu⟩ := (accepts_sessionless hd n .blank).run (fun _ => hs) hb
    cases b with
    | false =>
      have hm : ¬ d.Matches (engine T depth) n := fun hm => by
        rw [KeyDefinition.Matches, hv] at hm
        cases hm
      obtain ⟨ht, values, he, hin⟩ := ih hds (hu.documents rfl) h
      exact ⟨ht, values, he, fun value => by simp [hin, enters_cons, hm]⟩
    | true =>
      obtain ⟨own, w, ho, h⟩ := Action.bind_ok.mp h
      obtain ⟨hown, hw⟩ := (valuesOf_sessionless hd n .blank).run hu.documents ho
      obtain ⟨ht, values, he, hin⟩ := ih hds (hw.documents rfl) h
      refine ⟨ht, own ++ values, ?_, fun value => ?_⟩
      · rw [he, enterAll, enterAll, enterAll, List.foldl_append]
      · rw [List.mem_append, mem_valuesOf hown, hin, enters_cons, and_iff_right (show d.Matches _ n from hv)]

/-- Each node is entered under its values. -/
theorem enterNodes_rows (hds : ∀ d ∈ ds, d.StandsAlone true) (hs : s.Faithful T) {ns : List Node}
    (h : (enterNodes T (engine T depth) .blank ds ns es).attempt.run s = (.ok es', t)) :
    ∃ rows, rows.map Prod.fst = ns ∧ es' = enterRows rows es ∧
      ∀ r ∈ rows, ∀ value, value ∈ r.2 ↔ Enters T (engine T depth) ds r.1 value := by
  induction ns generalizing s es with
  | nil =>
    cases h
    exact ⟨[], rfl, rfl, nofun⟩
  | cons n ns ih =>
    obtain ⟨es'', u, hu, h⟩ := Action.bind_ok.mp h
    obtain ⟨hfaithful, values, rfl, hin⟩ := enterNode_values hds hs hu
    obtain ⟨rows, rfl, he, hrows⟩ := ih hfaithful h
    exact ⟨(n, values) :: rows, rfl, he, List.forall_mem_cons.mpr ⟨hin, hrows⟩⟩

/-- An attribute is entered by definitions only whose pattern may match one. -/
theorem mayMatchAttributes_of_enters {value : String}
    (h : Enters T (engine T depth) ds n value) (hn : n.kind = .attribute) :
    ds.any (·.pattern.mayMatchAttributes) = true := by
  obtain ⟨d, hd, hm, -⟩ := h
  refine List.any_eq_true.mpr ⟨d, hd, ?_⟩
  by_contra hno
  have hsuits := Pattern.accepts_suits (engine T depth) d.pattern n .blank {} true hm rfl
  exact Pattern.not_suits_of_attribute (Bool.eq_false_iff.mpr hno) hn hsuits

/-- The nodes that a complete index holds for a value: in document order, those of the tree that the
definitions enter under it. -/
structure Exact (T : Transformation) (E : Engine) (ds : List KeyDefinition) (root : Node)
    (value : String) (ns : List Node) : Prop where
  ordered : Node.Ascending ns
  mem (n : Node) : n ∈ ns ↔ root.Spans n ∧ Enters T E ds n value

theorem build_exact {name : ExpandedName} {root : Node} (hk : T.KeysStandAlone)
    (h : (build T (engine T depth) name root .blank).verdict = .ok es) (value : String) :
    Exact T (engine T depth) (T.keysNamed name) root value (found es value) := by
  have hds : ∀ d ∈ T.keysNamed name, d.StandsAlone true := fun d hd => hk d (List.mem_of_mem_filter hd)
  obtain ⟨rows, hns, rfl, hrows⟩ := enterNodes_rows hds (Session.faithful_new T) (Prod.ext h rfl)
  have hasc : Node.Ascending (rows.map Prod.fst) := hns ▸ candidates_ascending _ _
  rw [found_enterRows_nil hasc]
  refine ⟨hasc.sublist (List.filter_sublist.map _), fun n => ?_⟩
  rw [List.mem_map]
  constructor
  · rintro ⟨r, hr, rfl⟩
    obtain ⟨hr, hv⟩ := List.mem_filter.mp hr
    exact ⟨spans_of_candidate (hns ▸ List.mem_map_of_mem hr),
      (hrows r hr value).mp (of_decide_eq_true hv)⟩
  · rintro ⟨hspan, he⟩
    have hc := candidate_of_spans hspan (mayMatchAttributes_of_enters he)
    rw [← hns] at hc
    obtain ⟨r, hr, rfl⟩ := List.mem_map.mp hc
    exact ⟨r, List.mem_filter.mpr ⟨hr, decide_eq_true ((hrows r hr value).mpr he)⟩, rfl⟩

end index

/-- A session whose indexes are all such as they would be in a new session. -/
structure Indexed (T : Transformation) (E : Engine) (F : Forest) (s : Session) : Prop where
  faithful : s.Faithful T
  indexes : ∀ i ∈ s.indexes, F.Holds i.root ∧ (build T E i.name i.root .blank).verdict = .ok i.entries

section lookup

variable {T : Transformation} {F : Forest} {depth : Nat} {s : Session} {name : ExpandedName}
  {value : String} {root : Node} {c : Context}

theorem Indexed.index? {i : KeyIndex} (hs : Indexed T (engine T depth) F s) (hr : F.Holds root)
    (hi : s.index? name root = some i) :
    (build T (engine T depth) name root .blank).verdict = .ok i.entries := by
  have hm := List.mem_of_find?_eq_some hi
  have hp := List.find?_some hi
  obtain ⟨hroot, hb⟩ := hs.indexes i hm
  rw [Bool.and_eq_true, hroot.same_iff hr, beq_iff_eq] at hp
  rwa [hp.1, hp.2] at hb

/-- Whatever the context, an index comes to be as in a new session, and leaves the others. -/
theorem build_run (hh : T.HostsReadFocus) (hc : T.KeysClosed) (hk : T.KeysStandAlone)
    (hs : s.Faithful T) (depth : Nat) (name : ExpandedName) (root : Node) (c : Context) :
    ((build T (engine T depth) name root c).attempt.run s).1 =
        (build T (engine T depth) name root .blank).verdict ∧
      ((build T (engine T depth) name root c).attempt.run s).2.Faithful T ∧
      ((build T (engine T depth) name root c).attempt.run s).2.indexes = s.indexes := by
  have hE := engine_steady hh hc depth
  obtain ⟨hr, ht⟩ := build_inStep hc hE (hk.agrees c .blank) name root s s (.refl s)
  have ha := build_sessionless hk depth name root .blank
  obtain ⟨hv, hsince⟩ := ha.run (fun _ => hs) rfl
  refine ⟨hr.eq.trans hv.symm, ?_, ht.indexes.trans hsince.indexes⟩
  intro uri r hl
  exact hsince.documents rfl uri r (ht.documents ▸ hl)

/-- A lookup finds what the index built in a new session holds, or fails as building it does. -/
theorem search_answer (hh : T.HostsReadFocus) (hc : T.KeysClosed) (hk : T.KeysStandAlone)
    (hs : Indexed T (engine T depth) F s) (hr : F.Holds root)
    (hd : (T.keysNamed name).isEmpty = false) (value : String) (c : Context) :
    ((search T (engine T depth) name value root c).attempt.run s).1 =
        (build T (engine T depth) name root .blank).verdict.map (found · value) ∧
      Indexed T (engine T depth) F
        ((search T (engine T depth) name value root c).attempt.run s).2 := by
  cases hi : s.index? name root with
  | some i =>
    rw [search_of_index hd hi, hs.index? hr hi]
    exact ⟨rfl, hs⟩
  | none =>
    obtain ⟨hb, hf, hix⟩ := build_run hh hc hk hs.faithful depth name root c
    generalize hrun : (build T (engine T depth) name root c).attempt.run s = x at hb hf hix
    obtain ⟨r, t⟩ := x
    subst hb
    have ht : t.index? name root = none := by
      rw [Session.index?, hix]
      exact hi
    cases hv : (build T (engine T depth) name root .blank).verdict with
    | error f =>
      rw [hv] at hrun
      rw [search_of_failed hd hi hrun]
      exact ⟨rfl, hf, fun i hm => hs.indexes i (hix ▸ hm)⟩
    | ok es =>
      rw [hv] at hrun
      rw [search_of_built hd hi hrun ht]
      refine ⟨rfl, hf, fun i hm => ?_⟩
      rcases List.mem_append.mp hm with hm | hm
      · exact hs.indexes i (hix ▸ hm)
      · obtain rfl := List.mem_singleton.mp hm
        exact ⟨hr, hv⟩

theorem search_indexed (hh : T.HostsReadFocus) (hc : T.KeysClosed) (hk : T.KeysStandAlone)
    (hs : Indexed T (engine T depth) F s) (hr : F.Holds root) :
    Indexed T (engine T depth) F
      ((search T (engine T depth) name value root c).attempt.run s).2 := by
  cases hd : (T.keysNamed name).isEmpty with
  | true =>
    rw [search_of_undefined hd]
    exact hs
  | false => exact (search_answer hh hc hk hs hr hd value c).2

end lookup

/-- What a caller looks up, and where. -/
structure Lookup where
  name : ExpandedName
  value : String
  root : Node
  context : Context

def Lookup.run (E : Engine) (l : Lookup) : Action (List Node) :=
  E.search l.name l.value l.root l.context

/-- The session after some lookups, whatever they come to. -/
def afterLookups (E : Engine) : List Lookup → Session → Session
  | [], s => s
  | l :: ls, s => afterLookups E ls ((l.run E).attempt.run s).2

/-- A lookup comes to what it comes to in a new session, and the nodes that it finds are exactly those
that the definitions of the key enter under the value. -/
structure Lookup.Answered (T : Transformation) (depth : Nat) (s : Session) (l : Lookup) : Prop where
  alone : ((l.run (engine T (depth + 1))).attempt.run s).1 =
    (l.run (engine T (depth + 1))).verdict
  exact : ∀ ns, ((l.run (engine T (depth + 1))).attempt.run s).1 = .ok ns →
    Exact T (engine T depth) (T.keysNamed l.name) l.root l.value ns

section run

variable {T : Transformation} {F : Forest} {depth : Nat} {s : Session}

theorem Indexed.after (hh : T.HostsReadFocus) (hc : T.KeysClosed) (hk : T.KeysStandAlone)
    (hs : Indexed T (engine T depth) F s) {ls : List Lookup} (hr : ∀ l ∈ ls, F.Holds l.root) :
    Indexed T (engine T depth) F (afterLookups (engine T (depth + 1)) ls s) := by
  induction ls generalizing s with
  | nil => exact hs
  | cons l ls ih =>
    obtain ⟨hl, hr⟩ := List.forall_mem_cons.mp hr
    exact ih (search_indexed hh hc hk hs hl) hr

theorem Indexed.answered (hh : T.HostsReadFocus) (hc : T.KeysClosed) (hk : T.KeysStandAlone)
    (hs : Indexed T (engine T depth) F s) {l : Lookup} (hr : F.Holds l.root) :
    l.Answered T depth s := by
  have hnew : Indexed T (engine T depth) F {} := ⟨Session.faithful_new T, nofun⟩
  have hrun : l.run (engine T (depth + 1)) =
      search T (engine T depth) l.name l.value l.root l.context := rfl
  cases hd : (T.keysNamed l.name).isEmpty with
  | true =>
    constructor
    · rw [Action.verdict, hrun, search_of_undefined hd, search_of_undefined hd]
    · rw [hrun, search_of_undefined hd]
      exact nofun
  | false =>
    have hanswer := (search_answer hh hc hk hs hr hd l.value l.context).1
    constructor
    · rw [Action.verdict, hrun, hanswer, (search_answer hh hc hk hnew hr hd _ _).1]
    · intro ns hns
      rw [hrun, hanswer] at hns
      cases hb : (build T (engine T depth) l.name l.root .blank).verdict with
      | error f =>
        rw [hb] at hns
        cases hns
      | ok es =>
        rw [hb] at hns
        cases hns
        exact build_exact hk hb l.value

/-- Lookups of keys that stand alone are exact, and whatever was looked up before, lookups that failed
included, does not affect them. -/
theorem lookups_exact (hh : T.HostsReadFocus) (hr : T.KeysRead) (hk : T.KeysStandAlone)
    (hs : s.Faithful T) (hi : s.indexes = []) (ls : List Lookup) (l : Lookup)
    (hroots : ∀ k ∈ l :: ls, F.Holds k.root) (depth : Nat) :
    l.Answered T depth (afterLookups (engine T (depth + 1)) ls s) := by
  obtain ⟨hroot, hroots⟩ := List.forall_mem_cons.mp hroots
  have hstart : Indexed T (engine T depth) F s := ⟨hs, by rw [hi]; exact nofun⟩
  exact (hstart.after hh hr.closed hk hroots).answered hh hr.closed hk hroot

/-- Two definitions of one key, looked up after lookups of which one fails, from another context. -/
theorem lookups_exact_of_merged : ∃ (T : Transformation) (F : Forest) (ls : List Lookup) (l : Lookup),
    (T.keysNamed l.name).length = 2 ∧ l.context.node? ≠ none ∧
    (∃ k ∈ ls, T.keysNamed k.name = []) ∧ (∃ k ∈ ls, k.name = l.name ∧ k.context.node? = none) ∧
    T.HostsReadFocus ∧ T.KeysRead ∧ T.KeysStandAlone ∧ Session.Faithful T {} ∧
    (∀ k ∈ l :: ls, F.Holds k.root) ∧
    (∃ ns, (l.run (engine T 3)).verdict = .ok ns ∧ ns.length = 3) ∧
    ∀ depth, l.Answered T depth (afterLookups (engine T (depth + 1)) ls {}) := by
  let k : ExpandedName := .unqualified "k"
  let T : Transformation := { keys := [
    ⟨k, .test (.named .element (.unqualified "e")), .call .name [] none none⟩,
    ⟨k, .document, .value (.string "t")⟩] }
  let top : Node := .root .pair
  let ls : List Lookup := [⟨.unqualified "j", "e", top, .blank⟩, ⟨k, "t", top, .blank⟩]
  let l : Lookup := ⟨k, "e", top, .onNode (some top)⟩
  have hh : T.HostsReadFocus := nofun
  have hr : T.KeysRead := by
    intro d hd
    rcases List.mem_cons.mp hd with rfl | hd
    · exact ⟨.standalone, "e", rfl⟩
    · obtain rfl := List.mem_singleton.mp hd
      exact ⟨.standalone, "/", rfl⟩
  have hk : T.KeysStandAlone := by
    intro d hd
    rcases List.mem_cons.mp hd with rfl | hd
    · exact ⟨trivial, by simp [Expr.StandsAlone, Expr.leaves, leavesOfAll, Leaf.StandsAlone,
        SystemFunction.StandsAlone]⟩
    · obtain rfl := List.mem_singleton.mp hd
      exact ⟨trivial, by simp [Expr.StandsAlone, Expr.leaves, Value.leaves]⟩
  have hroots : ∀ j ∈ l :: ls, (Forest.single .pair).Holds j.root := by
    intro j hj
    have : j.root = top := by
      simp only [ls, List.mem_cons, List.not_mem_nil, or_false] at hj
      rcases hj with rfl | rfl | rfl <;> rfl
    rw [this]
    exact ⟨List.mem_singleton.mpr rfl, .root _⟩
  refine ⟨T, .single .pair, ls, l, rfl, nofun, ⟨_, List.mem_cons_self, rfl⟩,
    ⟨_, List.mem_cons_of_mem _ List.mem_cons_self, rfl, rfl⟩, hh, hr, hk,
    Session.faithful_new T, hroots, ⟨_, rfl, rfl⟩, fun depth => ?_⟩
  exact lookups_exact hh hr hk (Session.faithful_new T) rfl ls l hroots depth

end run

end Key

end PathLanguage
