/- Calls of functions in step: a call reads no more of its context than its catalog entry says. -/
import PathLanguage.Function.Call
import PathLanguage.Proofs.Agreement.Key

namespace PathLanguage

variable {T : Transformation} {E : Engine}

theorem BoundAlike.eq {f : SystemFunction} {b b' : Option Node} (h : BoundAlike f b b')
    (hf : f.readsDocument = false) : b = b' := by
  cases h with
  | same => rfl
  | document hd => exact absurd hd (by simp [hf])

theorem readsDocument_eq_false {f : SystemFunction} {arity : Nat}
    (h : (f.intrinsic arity).contextNode = true) : f.readsDocument = false := by
  cases f with
  | id | unparsedEntityUri => exact absurd h Bool.false_ne_true
  | _ => rfl

theorem Node.elementWithId_congr {n n' : Node} (h : n.document = n'.document) (id : String) :
    n.elementWithId id = n'.elementWithId id := by
  rw [elementWithId, elementWithId, top, top, h]

theorem Node.unparsedEntityUri_congr {n n' : Node} (h : n.document = n'.document) (name : String) :
    n.unparsedEntityUri name = n'.unparsedEntityUri name := by
  rw [unparsedEntityUri, unparsedEntityUri, h]

namespace Function

variable {v v' : Value} {ns ns' ms ms' : NodeSet} {c c' : Context}

theorem argumentStrings_inStep (hE : E.Steady T) (h : v.Alike v') :
    Action.InStep Eq (argumentStrings T E v) (argumentStrings T E v') := by
  have hstring : Action.InStep Eq (do return [← v.asString T E]) (do return [← v'.asString T E]) :=
    (Value.asString_inStep hE h).map_eq
  cases h with
  | nodeSet h => exact (NodeSet.members_inStep hE h).map_eq
  | string | number | boolean | object => exact hstring

theorem sortedSet_inStep (nodes : List Node) :
    Action.InStep Value.Alike (sortedSet nodes) (sortedSet nodes) :=
  (Action.InStep.ofExcept _).map fun _ _ he => he ▸ .refl _

theorem byId_inStep (hE : E.Steady T) (h : v.Alike v') {n n' : Node}
    (hn : n.document = n'.document) :
    Action.InStep Value.Alike (byId T E v n) (byId T E v' n') := by
  refine (argumentStrings_inStep hE h).bind_eq fun strings => ?_
  rw [show n.elementWithId = n'.elementWithId from funext (Node.elementWithId_congr hn)]
  exact sortedSet_inStep _

theorem searchAll_inStep (hE : E.Steady T) (hc : c.Agrees T ∅ [] c') (name : ExpandedName)
    (root : Node) (strings : List String) :
    Action.InStep Eq (searchAll E name root c strings) (searchAll E name root c' strings) := by
  induction strings with
  | nil => exact .pure rfl
  | cons s strings ih => exact (hE.search name s root hc).bind_eq fun _ => ih.map_eq

theorem byKey_inStep (hE : E.Steady T) (hc : c.Agrees T ∅ [] c') (name : String) (h : v.Alike v')
    (scope : Option Scope) {n n' : Node} (hn : n.document = n'.document) :
    Action.InStep Value.Alike (byKey T E name v scope n c) (byKey T E name v' scope n' c') := by
  refine (Action.InStep.ofExcept _).bind_eq fun keyName => .ite (fun _ => .throw _) fun _ => ?_
  refine (argumentStrings_inStep hE h).bind_eq fun strings => ?_
  rw [Node.top, Node.top, hn]
  exact (searchAll_inStep hE hc keyName _ strings).bind_eq fun nodes => sortedSet_inStep nodes

theorem loadDocument_inStep (T : Transformation) (uri : String) :
    Action.InStep Eq (loadDocument T uri) (loadDocument T uri) := by
  refine Action.InStep.get.bind fun s s' hs => ?_
  rw [← hs.documents]
  split
  · exact .pure rfl
  · split
    · exact .throw _
    · refine Action.InStep.bind_eq (.modify fun t t' ht => ?_) fun _ => ?_
      · exact { ht with requested := congrArg (· ++ _) ht.requested }
      · refine (Action.InStep.ofExcept _).bind_eq fun root => ?_
        cases root with
        | none => exact .pure rfl
        | some root =>
          refine Action.InStep.bind_eq (.modify fun t t' ht => ?_) fun _ => .pure rfl
          exact { ht with documents := congrArg (· ++ _) ht.documents }

theorem loadAll_inStep (T : Transformation) (requests : List (String × Option String)) :
    Action.InStep Eq (loadAll T requests) (loadAll T requests) := by
  induction requests with
  | nil => exact .pure rfl
  | cons r requests ih =>
    exact (Action.InStep.ofExcept _).bind_eq fun uri =>
      (loadDocument_inStep T uri).bind_eq fun root => ih.map_eq

theorem documents_inStep (hE : E.Steady T) (h : v.Alike v') {base base' : Option NodeSet}
    (hb : Option.Rel NodeSet.Alike base base') (scope : Option Scope) :
    Action.InStep Value.Alike (documents T E v base scope) (documents T E v' base' scope) := by
  have hall (requests : List (String × Option String)) : Action.InStep Value.Alike
      (do sortedSet (← loadAll T requests)) (do sortedSet (← loadAll T requests)) :=
    (loadAll_inStep T requests).bind_eq fun nodes => sortedSet_inStep nodes
  have hstring := Value.asString_inStep hE h
  cases h with
  | nodeSet h =>
    have hload (explicit : Option String) := (NodeSet.members_inStep hE h).bind_eq fun nodes =>
      hall (nodes.map fun n => (n.stringValue, explicit <|> n.baseUri))
    cases hb with
    | none => exact hload none
    | some hb => exact (NodeSet.first_inStep hE hb).bind_eq fun n => hload (n.bind Node.baseUri)
  | string | number | boolean | object =>
    have hload (explicit : Option String) := hstring.bind_eq fun text =>
      hall [(text, explicit <|> scope.bind (·.baseUri))]
    cases hb with
    | none => exact hload none
    | some hb => exact (NodeSet.first_inStep hE hb).bind_eq fun n => hload (n.bind Node.baseUri)

theorem haveSameNode_inStep (hE : E.Steady T) (h : ns.Alike ns') (hm : ms.Alike ms') :
    Action.InStep Eq (haveSameNode T E ns ms) (haveSameNode T E ns' ms') :=
  (NodeSet.members_inStep hE hm).bind_eq fun _ =>
    (NodeSet.enumerate_inStep hE h).bind fun _ _ hk => hE.find _ hk

theorem besideFirst_inStep (hE : E.Steady T) (h : ns.Alike ns') (hm : ms.Alike ms')
    (side : Ordering) :
    Action.InStep Eq (besideFirst T E ns ms side) (besideFirst T E ns' ms' side) := by
  refine (NodeSet.first_inStep hE hm).bind_eq fun pivot => ?_
  cases pivot with
  | none => exact .pure rfl
  | some pivot =>
    refine (NodeSet.materialize_inStep hE h).bind_eq fun e => ?_
    exact .ite (fun _ => .pure rfl) fun _ => .ite (fun _ => .throw _) fun _ => .pure rfl

theorem leading_inStep (hE : E.Steady T) (h : ns.Alike ns') (hm : ms.Alike ms') :
    Action.InStep NodeSet.Alike (leading T E ns ms) (leading T E ns' ms') := by
  refine (besideFirst_inStep hE h hm .lt).bind_eq fun r => .pure ?_
  cases r with
  | none => exact h
  | some r => exact .refl r

theorem trailing_inStep (hE : E.Steady T) (h : ns.Alike ns') (hm : ms.Alike ms') :
    Action.InStep NodeSet.Alike (trailing T E ns ms) (trailing T E ns' ms') :=
  (besideFirst_inStep hE h hm .gt).map fun _ _ he => he ▸ .refl _

theorem sum_inStep (hE : E.Steady T) (h : ns.Alike ns') :
    Action.InStep Eq (sum T E ns) (sum T E ns') :=
  (NodeSet.members_inStep hE h).map_eq

/-- Calls that are alike, in contexts that agree on what the function and its arguments read. -/
structure Call.Alike (T : Transformation) (k k' : Call) : Prop where
  function : k.function = k'.function
  args : AllAskAlike T k.args k'.args k.context k'.context
  bound : BoundAlike k.function k.bound k'.bound
  scope : k.scope = k'.scope
  own : k.context.Agrees T
    (if k.bound.isSome then k.function.intrinsic k.args.length \ .focusNode
      else k.function.intrinsic k.args.length) [] k'.context

namespace Call

variable {k k' : Call}

theorem Alike.position (h : k.Alike T k')
    (hp : (k.function.intrinsic k.args.length).position = true) :
    k.context.position = k'.context.position := by
  refine h.own.position ?_
  split
  · exact Bool.and_eq_true_iff.mpr ⟨hp, rfl⟩
  · exact hp

theorem Alike.last (h : k.Alike T k') (hl : (k.function.intrinsic k.args.length).last = true) :
    k.context.last = k'.context.last := by
  refine h.own.last ?_
  split
  · exact Bool.and_eq_true_iff.mpr ⟨hl, rfl⟩
  · exact hl

theorem current_inStep (h : k.Alike T k')
    (hc : (k.function.intrinsic k.args.length).currentNode = true) :
    Action.InStep Eq k.context.current k'.context.current := by
  refine h.own.get_current ?_
  split
  · exact Bool.and_eq_true_iff.mpr ⟨hc, rfl⟩
  · exact hc

theorem focus_inStep (h : k.Alike T k')
    (hn : (k.function.intrinsic k.args.length).contextNode = true) :
    Action.InStep Eq k.focus k'.focus := by
  have hb := h.bound.eq (readsDocument_eq_false hn)
  have hown := h.own
  unfold focus
  rw [← hb]
  cases hk : k.bound with
  | some n => exact .pure rfl
  | none =>
    rw [hk] at hown
    exact hown.get_node hn

/-- Where a function reads the document, the nodes in focus are of one document. -/
theorem focus_document (h : k.Alike T k')
    (hd : (k.function.intrinsic k.args.length).contextDocument = true) :
    Action.InStep (fun n n' => n.document = n'.document) k.focus k'.focus := by
  have hown := h.own
  have hb := h.bound
  unfold focus
  generalize k.bound = b, k'.bound = b' at hb hown ⊢
  cases hb with
  | same b =>
    cases b with
    | some n => exact .pure rfl
    | none => exact hown.get_document hd
  | document _ hn => exact .pure hn

theorem arg_inStep (h : k.Alike T k') (i : Nat) :
    Action.InStep (fun e e' => AskAlike T e e' k.context k'.context) (k.arg i) (k'.arg i) := by
  have ha := h.args.getElem? i
  unfold arg
  rw [← h.function]
  generalize k.args[i]? = e, k'.args[i]? = e' at ha ⊢
  cases ha with
  | none => exact .fail _
  | some he => exact .pure he

theorem stringArg_inStep (hE : E.Steady T) (h : k.Alike T k') (i : Nat) :
    Action.InStep Eq (k.stringArg E i) (k'.stringArg E i) :=
  (arg_inStep h i).bind fun _ _ he => hE.string he

theorem numberArg_inStep (hE : E.Steady T) (h : k.Alike T k') (i : Nat) :
    Action.InStep Eq (k.numberArg E i) (k'.numberArg E i) :=
  (arg_inStep h i).bind fun _ _ he => hE.number he

theorem booleanArg_inStep (hE : E.Steady T) (h : k.Alike T k') (i : Nat) :
    Action.InStep Eq (k.booleanArg E i) (k'.booleanArg E i) :=
  (arg_inStep h i).bind fun _ _ he => hE.boolean he

theorem valueArg_inStep (hE : E.Steady T) (h : k.Alike T k') (i : Nat) :
    Action.InStep Value.Alike (k.valueArg E i) (k'.valueArg E i) :=
  (arg_inStep h i).bind fun _ _ he => hE.value he

theorem nodeSetArg_inStep (hE : E.Steady T) (h : k.Alike T k') (i : Nat) :
    Action.InStep NodeSet.Alike (k.nodeSetArg E i) (k'.nodeSetArg E i) :=
  (arg_inStep h i).bind fun _ _ he => hE.nodeSet he

theorem optionalArg_inStep {α : Type} {R : α → α → Prop} {evaluate : Expr → Context → Action α}
    (he : ∀ {e e' : Expr}, AskAlike T e e' k.context k'.context →
      Action.InStep R (evaluate e k.context) (evaluate e' k'.context))
    (h : k.Alike T k') (i : Nat) :
    Action.InStep (Option.Rel R) (k.optionalArg i evaluate) (k'.optionalArg i evaluate) := by
  have ha := h.args.getElem? i
  unfold optionalArg
  generalize k.args[i]? = e, k'.args[i]? = e' at ha ⊢
  cases ha with
  | none => exact .pure .none
  | some ha => exact (he ha).map fun _ _ hr => .some hr

theorem optionalScalar_inStep {α : Type} {evaluate : Expr → Context → Action α}
    (he : ∀ {e e' : Expr}, AskAlike T e e' k.context k'.context →
      Action.InStep Eq (evaluate e k.context) (evaluate e' k'.context))
    (h : k.Alike T k') (i : Nat) :
    Action.InStep Eq (k.optionalArg i evaluate) (k'.optionalArg i evaluate) := by
  refine (optionalArg_inStep he h i).imp fun a b hr => ?_
  cases hr with
  | none => rfl
  | some hr => rw [hr]

theorem subject_inStep (hE : E.Steady T) (h : k.Alike T k')
    (hn : (k.function.intrinsic 0).contextNode = true) :
    Action.InStep Eq (k.subject T E) (k'.subject T E) := by
  have ha := h.args
  have hlen : k.args = [] → Action.InStep Eq k.focus k'.focus := fun he =>
    focus_inStep h (by rw [he]; exact hn)
  unfold subject
  generalize k.args = es, k'.args = es' at ha hlen ⊢
  match es, es', ha.alike with
  | [], [], .nil => exact (hlen rfl).map_eq
  | _ :: _, _ :: _, .cons .. =>
    exact (hE.nodeSet ha.head).bind fun _ _ hs => NodeSet.first_inStep hE hs

theorem subjectString_inStep (hE : E.Steady T) (h : k.Alike T k')
    (hn : (k.function.intrinsic 0).contextNode = true) :
    Action.InStep Eq (k.subjectString E) (k'.subjectString E) := by
  have ha := h.args
  have hlen : k.args = [] → Action.InStep Eq k.focus k'.focus := fun he =>
    focus_inStep h (by rw [he]; exact hn)
  unfold subjectString
  generalize k.args = es, k'.args = es' at ha hlen ⊢
  match es, es', ha.alike with
  | [], [], .nil => exact (hlen rfl).map_eq
  | _ :: _, _ :: _, .cons .. => exact hE.string ha.head

theorem joinedArgs_inStep (hE : E.Steady T) {es es' : List Expr} (h : AllAskAlike T es es' c c') :
    Action.InStep Eq (joinedArgs E c es) (joinedArgs E c' es') := by
  induction es generalizing es' with
  | nil =>
    cases h.alike
    exact .pure rfl
  | cons e es ih =>
    match es', h.alike with
    | _ :: _, .cons .. => exact (hE.string h.head).bind_eq fun _ => (ih h.tail).map_eq

/-- The value of a scalar that both calls come to. -/
theorem valueOf_inStep {α : Type} {a b : Action α} (h : Action.InStep Eq a b) (make : α → Value) :
    Action.InStep Value.Alike (do return make (← a)) (do return make (← b)) :=
  h.map fun _ _ he => he ▸ .refl _

theorem run_inStep (hE : E.Steady T) (h : k.Alike T k') :
    Action.InStep Value.Alike (k.run T E) (k'.run T E) := by
  have hc : k.context.Agrees T ∅ [] k'.context := h.own.forKeys
  have hstring := stringArg_inStep hE h
  have hnumber := numberArg_inStep hE h
  have hnodes := nodeSetArg_inStep hE h
  have hstrings (make : String → String → Value) : Action.InStep Value.Alike
      (do return make (← k.stringArg E 0) (← k.stringArg E 1))
      (do return make (← k'.stringArg E 0) (← k'.stringArg E 1)) :=
    (hstring 0).bind_eq fun _ => valueOf_inStep (hstring 1) _
  obtain ⟨f, args, bound, scope, c⟩ := k
  obtain ⟨_, args', bound', _, c'⟩ := k'
  obtain rfl : f = _ := h.function
  obtain rfl : scope = _ := h.scope
  unfold run
  cases f with
  | last => exact .pure (by rw [h.last rfl]; exact .refl _)
  | position => exact .pure (by rw [h.position rfl]; exact .refl _)
  | count =>
    exact (hnodes 0).bind fun _ _ hn => valueOf_inStep (NodeSet.count_inStep hE hn) _
  | current => exact valueOf_inStep (current_inStep h rfl) _
  | id =>
    exact (valueArg_inStep hE h 0).bind fun _ _ hv => (focus_document h rfl).bind fun _ _ hn =>
      byId_inStep hE hv hn
  | key =>
    exact (hstring 0).bind_eq fun name => (valueArg_inStep hE h 1).bind fun _ _ hv =>
      (focus_document h rfl).bind fun _ _ hn => byKey_inStep hE hc name hv scope hn
  | document =>
    exact (valueArg_inStep hE h 0).bind fun _ _ hv =>
      (optionalArg_inStep hE.nodeSet h 1).bind fun _ _ hb => documents_inStep hE hv hb scope
  | localName => exact valueOf_inStep (subject_inStep hE h rfl) _
  | namespaceUri => exact valueOf_inStep (subject_inStep hE h rfl) _
  | name => exact valueOf_inStep (subject_inStep hE h rfl) _
  | generateId => exact valueOf_inStep (subject_inStep hE h rfl) _
  | not => exact valueOf_inStep (booleanArg_inStep hE h 0) _
  | true => exact .pure (.refl _)
  | false => exact .pure (.refl _)
  | boolean => exact valueOf_inStep (booleanArg_inStep hE h 0) _
  | lang =>
    exact (hstring 0).bind_eq fun wanted => valueOf_inStep (focus_inStep h rfl) fun n =>
      .boolean (n.language.any (speaks · wanted))
  | number =>
    match args, args', h.args.alike with
    | [], [], .nil =>
      exact valueOf_inStep (focus_inStep h rfl) fun n => .number (.ofText n.stringValue)
    | _ :: _, _ :: _, .cons .. => exact valueOf_inStep (hE.number h.args.head) _
  | floor => exact valueOf_inStep (hnumber 0) _
  | ceiling => exact valueOf_inStep (hnumber 0) _
  | round => exact valueOf_inStep (hnumber 0) _
  | sum => exact (hnodes 0).bind fun _ _ hn => valueOf_inStep (sum_inStep hE hn) _
  | string => exact valueOf_inStep (subjectString_inStep hE h rfl) _
  | startsWith => exact hstrings fun a b => .boolean (startsWith a b)
  | stringLength => exact valueOf_inStep (subjectString_inStep hE h rfl) _
  | substring =>
    exact (hstring 0).bind_eq fun text => (hnumber 1).bind_eq fun start =>
      valueOf_inStep (optionalScalar_inStep hE.number h 2) fun length =>
        .string (Function.substring text start length)
  | contains => exact hstrings fun a b => .boolean (contains a b)
  | substringBefore => exact hstrings fun a b => .string (substringBefore a b)
  | substringAfter => exact hstrings fun a b => .string (substringAfter a b)
  | normalizeSpace => exact valueOf_inStep (subjectString_inStep hE h rfl) _
  | translate =>
    exact (hstring 0).bind_eq fun text => (hstring 1).bind_eq fun replaced =>
      valueOf_inStep (hstring 2) fun replacement =>
        .string (Function.translate text replaced replacement)
  | concat => exact valueOf_inStep (joinedArgs_inStep hE h.args) _
  | formatNumber =>
    exact (hnumber 0).bind_eq fun n => (hstring 1).bind_eq fun picture =>
      (optionalScalar_inStep hE.string h 2).bind_eq fun format => valueOf_inStep (.ofExcept _) _
  | systemProperty =>
    exact (hstring 0).bind_eq fun name => valueOf_inStep (.ofExcept _) systemProperty
  | functionAvailable =>
    exact (hstring 0).bind_eq fun name => valueOf_inStep (.ofExcept _) fun name =>
      .boolean (isFunctionAvailable T scope name)
  | elementAvailable =>
    exact (hstring 0).bind_eq fun name => valueOf_inStep (.ofExcept _) fun name =>
      .boolean (Scope.isElementAvailable name)
  | unparsedEntityUri =>
    refine (focus_document h rfl).bind fun n n' hn => (hstring 0).bind_eq fun name => ?_
    rw [Node.unparsedEntityUri_congr hn]
    exact .pure (.refl _)
  | hasSameNode =>
    exact (hnodes 0).bind fun _ _ ha => (hnodes 1).bind fun _ _ hb =>
      valueOf_inStep (haveSameNode_inStep hE ha hb) _
  | leading =>
    exact (hnodes 0).bind fun _ _ ha => (hnodes 1).bind fun _ _ hb =>
      (leading_inStep hE ha hb).map fun _ _ hn => .nodeSet hn
  | trailing =>
    exact (hnodes 0).bind fun _ _ ha => (hnodes 1).bind fun _ _ hb =>
      (trailing_inStep hE ha hb).map fun _ _ hn => .nodeSet hn

end Call

end Function

end PathLanguage
