/- Matching and key searches: what they find depends on nothing of a context but the variables that
key definitions look up. -/
import PathLanguage.Proofs.Agreement.Value

namespace PathLanguage

/-- No predicate in the pattern of a key reads the current node. -/
def Transformation.KeysClosed (T : Transformation) : Prop := ∀ d ∈ T.keys, d.pattern.Closed

variable {T : Transformation} {E : Engine} {c c' : Context}

namespace Context.Agrees

variable {d e : Dependencies} {names more : List ExpandedName}

theorem forKeys (h : c.Agrees T d names c') : c.Agrees T ∅ [] c' :=
  h.mono (Dependencies.empty_sub _) (List.nil_subset _)

/-- What reads no current node and no variables but those of keys finds all that it reads in a
context on a given node. -/
theorem onNode (h : c.Agrees T ∅ [] c') (hd : e.currentNode = false)
    (hv : more ⊆ T.keyVariables) (n : Node) : (c.withNode n).Agrees T e more (c'.withNode n) where
  locals v hm := h.locals v (.inr (hm.elim (@hv v) id))
  current hc := absurd hc (by simp [hd])
  node _ := rfl
  position _ := rfl
  last _ := rfl
  document _ := rfl

/-- What reads no variables but those of keys finds all that it reads in a context on a given node
that is also current. -/
theorem onCurrent (h : c.Agrees T ∅ [] c') (hv : more ⊆ T.keyVariables) (n : Node) :
    ((c.withNode n).withCurrent n).Agrees T e more ((c'.withNode n).withCurrent n) where
  locals v hm := h.locals v (.inr (hm.elim (@hv v) id))
  current _ := rfl
  node _ := rfl
  position _ := rfl
  last _ := rfl
  document _ := rfl

end Context.Agrees

theorem Transformation.variables_subset {d : KeyDefinition} (h : d ∈ T.keys) :
    d.pattern.variables ⊆ T.keyVariables ∧ d.use.variables ⊆ T.keyVariables := by
  have hd : d.variables ⊆ T.keyVariables := fun v hv => List.mem_flatMap.mpr ⟨d, h, hv⟩
  exact List.append_subset.mp hd

namespace Pattern

theorem holdAll_inStep (hE : E.Steady T) {ps : List Expr} (h : AllAskAlike T ps ps c c') :
    Action.InStep Eq (holdAll E c ps) (holdAll E c' ps) := by
  induction ps with
  | nil => exact .pure rfl
  | cons p ps ih =>
    refine (hE.boolean h.head).bind_eq fun holds => ?_
    cases holds with
    | true => exact ih h.tail
    | false => exact .pure rfl

theorem passes_inStep (hE : E.Steady T) (hc : c.Agrees T ∅ [] c') {s : PatternStep}
    (hd : s.dependencies.currentNode = false) (hv : s.variables ⊆ T.keyVariables) (n : Node) :
    Action.InStep Eq (passes E s n c) (passes E s n c') := by
  obtain ⟨hp, hq⟩ : (dependenciesOfAll s.predicates).currentNode = false ∧
      s.check.dependencies.currentNode = false := Bool.or_eq_false_iff.mp hd
  obtain ⟨hpv, hqv⟩ := List.append_subset.mp hv
  unfold passes
  split
  · exact holdAll_inStep hE ⟨.refl _, hc.onNode hp hpv n⟩
  · exact (hE.head (.listed ..)).map_eq
  · exact (hE.head (.listed ..)).map_eq
  · next e he =>
    rw [he] at hq hqv
    exact (hE.cursor false ⟨.refl e, hc.onNode hq hqv n⟩).bind fun _ _ hk => hE.find _ hk

theorem anyOf_inStep {holds holds' : Node → Action Bool} {ns : List Node}
    (h : ∀ n ∈ ns, Action.InStep Eq (holds n) (holds' n)) :
    Action.InStep Eq (anyOf holds ns) (anyOf holds' ns) := by
  induction ns with
  | nil => exact .pure rfl
  | cons n ns ih =>
    refine (h n List.mem_cons_self).bind_eq fun found => ?_
    cases found with
    | true => exact .pure rfl
    | false => exact ih fun m hm => h m (List.mem_cons_of_mem _ hm)

theorem accepts_inStep (hE : E.Steady T) (hc : c.Agrees T ∅ [] c') {p : Pattern}
    (hd : p.Closed) (hv : p.variables ⊆ T.keyVariables) (n : Node) :
    Action.InStep Eq (accepts E p n c) (accepts E p n c') := by
  induction p generalizing n with
  | document | test | id => exact .pure rfl
  | key name value => exact (hE.search name value n.top hc).map_eq
  | step s =>
    rw [accepts, accepts]
    split
    · exact passes_inStep hE hc hd hv n
    · exact .pure rfl
  | under connector upper s ih =>
    obtain ⟨hu, hs⟩ : upper.dependencies.currentNode = false ∧
        s.dependencies.currentNode = false := Bool.or_eq_false_iff.mp hd
    obtain ⟨huv, hsv⟩ := List.append_subset.mp hv
    unfold accepts
    split
    · exact .pure rfl
    · refine (anyOf_inStep fun m _ => ih hu huv m).bind_eq fun found => ?_
      cases found with
      | true => exact passes_inStep hE hc hs hsv n
      | false => exact .pure rfl
  | union a b iha ihb =>
    obtain ⟨ha, hb⟩ : a.dependencies.currentNode = false ∧
        b.dependencies.currentNode = false := Bool.or_eq_false_iff.mp hd
    obtain ⟨hav, hbv⟩ := List.append_subset.mp hv
    rw [accepts, accepts]
    refine (iha ha hav n).bind_eq fun found => ?_
    cases found with
    | true => exact .pure rfl
    | false => exact ihb hb hbv n

end Pattern

namespace Key

theorem valuesOf_inStep (hE : E.Steady T) (hc : c.Agrees T ∅ [] c') {d : KeyDefinition}
    (hv : d.use.variables ⊆ T.keyVariables) (n : Node) :
    Action.InStep Eq (valuesOf T E d n c) (valuesOf T E d n c') := by
  refine (hE.value ⟨.refl d.use, hc.onCurrent hv n⟩).bind fun v v' h => ?_
  have hstring : Action.InStep Eq (do return [← v.asString T E]) (do return [← v'.asString T E]) :=
    (Value.asString_inStep hE h).map_eq
  cases h with
  | nodeSet h => exact (NodeSet.members_inStep hE h).map_eq
  | string | number | boolean | object => exact hstring

theorem enterNode_inStep (hT : T.KeysClosed) (hE : E.Steady T) (hc : c.Agrees T ∅ [] c') (n : Node)
    {ds : List KeyDefinition} (hds : ds ⊆ T.keys) (entries : Entries) :
    Action.InStep Eq (enterNode T E c n ds entries) (enterNode T E c' n ds entries) := by
  induction ds generalizing entries with
  | nil => exact .pure rfl
  | cons d ds ih =>
    obtain ⟨hd, hds⟩ := List.cons_subset.mp hds
    obtain ⟨hp, hu⟩ := Transformation.variables_subset hd
    refine (Pattern.accepts_inStep hE hc (hT d hd) hp n).bind_eq fun found => ?_
    cases found with
    | true => exact (valuesOf_inStep hE hc hu n).bind_eq fun values => ih hds _
    | false => exact ih hds entries

theorem enterNodes_inStep (hT : T.KeysClosed) (hE : E.Steady T) (hc : c.Agrees T ∅ [] c')
    {ds : List KeyDefinition} (hds : ds ⊆ T.keys) (ns : List Node) (entries : Entries) :
    Action.InStep Eq (enterNodes T E c ds ns entries) (enterNodes T E c' ds ns entries) := by
  induction ns generalizing entries with
  | nil => exact .pure rfl
  | cons n ns ih =>
    exact (enterNode_inStep hT hE hc n hds entries).bind_eq fun entries => ih entries

theorem search_inStep (hT : T.KeysClosed) (hE : E.Steady T) (hc : c.Agrees T ∅ [] c')
    (name : ExpandedName) (value : String) (root : Node) :
    Action.InStep Eq (search T E name value root c) (search T E name value root c') := by
  refine .ite (fun _ => .throw _) fun _ => Action.InStep.get.bind fun s s' hs => ?_
  rw [← hs.index?]
  split
  · exact .pure rfl
  · have hds : T.keysNamed name ⊆ T.keys := List.filter_subset_self _
    refine (enterNodes_inStep hT hE hc hds _ _).bind_eq fun entries => ?_
    refine (Action.InStep.modify fun t t' ht => ?_).bind_eq fun _ => .pure rfl
    rw [← ht.index?]
    split
    · exact ht
    · exact { ht with indexes := congrArg (· ++ _) ht.indexes }

end Key

end PathLanguage
