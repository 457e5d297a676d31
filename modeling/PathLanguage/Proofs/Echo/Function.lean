/- Calls of functions that echo one another. Of what a session remembers a function reads documents
only, and these are the same in every session that is faithful to the resolver. -/
import PathLanguage.Function.Call
import PathLanguage.Proofs.Echo.Value

namespace PathLanguage

variable {T : Transformation} {h : Pasts} {E E' : Engine}

theorem NodeSet.echo_ofOption (h : Pasts) (n : Option Node) : (ofOption n).Echo h (ofOption n) := by
  cases n with
  | none => exact .empty
  | some n => exact .single ..

theorem NodeSet.echo_ofNodes (h : Pasts) (ns : List Node) (sorted : Bool) :
    (ofNodes ns sorted).Echo h (ofNodes ns sorted) := by
  unfold ofNodes
  split
  · exact .empty
  · exact .extent _

/-- What the resolver answers for a URI. -/
def Transformation.answer (T : Transformation) (uri : String) : Except Fault (Option Node) :=
  match T.resolver with
  | some resolver => resolver uri
  | none => .error (.noResolver uri)

/-- A session that remembers documents of the resolver, and otherwise what another one does. -/
structure Session.Loads (T : Transformation) (s t : Session) : Prop where
  documents : t.Faithful T
  globals : t.globals = s.globals
  indexes : t.indexes = s.indexes
  intents : t.intents = s.intents

theorem Session.Faithful.answer {s : Session} (hs : s.Faithful T) {uri : String} {root : Node}
    (hl : s.documents.lookup uri = some root) : T.answer uri = .ok (some root) := by
  obtain ⟨resolver, hr, ho⟩ := hs uri root hl
  rw [Transformation.answer, hr]
  exact ho

theorem Session.Faithful.remember {s : Session} (hs : s.Faithful T)
    {resolver : String → Except Fault (Option Node)} (hr : T.resolver = some resolver)
    {uri : String} {root : Node} (ho : resolver uri = .ok (some root)) (asked : List String) :
    Session.Faithful T
      { s with requested := asked, documents := s.documents ++ [(uri, root)] } := by
  intro uri' root' hl
  rw [List.lookup_append, Option.or_eq_some_iff] at hl
  rcases hl with hl | ⟨-, hl⟩
  · exact hs uri' root' hl
  · rw [List.lookup_cons] at hl
    split at hl
    · next hu =>
      obtain rfl := Option.some.inj hl
      obtain rfl := eq_of_beq hu
      exact ⟨resolver, hr, ho⟩
    · cases hl

namespace Function

variable {v v' : Value} {ns ns' ms ms' : NodeSet}

theorem argumentStrings_echoes (hE : E.Echoes T h E') (hv : v.Echo h v') :
    Action.Echoes T h Eq (argumentStrings T E v) (argumentStrings T E' v') := by
  have hstring : Action.Echoes T h Eq (do return [← v.asString T E])
      (do return [← v'.asString T E']) :=
    (Value.asString_echoes hE hv).map_eq
  cases hv with
  | nodeSet hn => exact (NodeSet.members_echoes hE hn).map_eq
  | string | number | boolean | object => exact hstring

theorem sortedSet_echoes (nodes : List Node) :
    Action.Echoes T h (Value.Echo h) (sortedSet nodes) (sortedSet nodes) :=
  (Action.Echoes.ofExcept _).map fun _ _ he => he ▸ .nodeSet (NodeSet.echo_ofNodes h _ _)

theorem byId_echoes (hE : E.Echoes T h E') (hv : v.Echo h v') (n : Node) :
    Action.Echoes T h (Value.Echo h) (byId T E v n) (byId T E' v' n) :=
  (argumentStrings_echoes hE hv).bind_eq fun _ => sortedSet_echoes _

/-- A faithful session loads what the resolver answers. -/
theorem loadDocument_answer {s : Session} (hs : s.Faithful T) (uri : String) :
    ((loadDocument T uri).attempt.run s).1 = T.answer uri ∧
      s.Loads T ((loadDocument T uri).attempt.run s).2 := by
  rw [loadDocument, Action.run_get]
  cases hl : s.documents.lookup uri with
  | some root => exact ⟨(hs.answer hl).symm, hs, rfl, rfl, rfl⟩
  | none =>
    rw [Transformation.answer]
    cases hr : T.resolver with
    | none => exact ⟨rfl, hs, rfl, rfl, rfl⟩
    | some resolver =>
      dsimp only
      cases ho : resolver uri with
      | error f => exact ⟨rfl, hs, rfl, rfl, rfl⟩
      | ok root =>
        cases root with
        | none => exact ⟨rfl, hs, rfl, rfl, rfl⟩
        | some root => exact ⟨rfl, hs.remember hr ho _, rfl, rfl, rfl⟩

theorem loadDocument_echoes (hl : h.loads = true) (uri : String) :
    Action.Echoes T h Eq (loadDocument T uri) (loadDocument T uri) := by
  intro s s' hs
  obtain ⟨hr, ht⟩ := loadDocument_answer (hs.left.documents hl) uri
  obtain ⟨hr', ht'⟩ := loadDocument_answer (hs.right.documents hl) uri
  refine .inr ⟨?_, ⟨ht.globals.trans hs.left.globals, ht.indexes.trans hs.left.indexes,
    ht.intents ▸ hs.left.intents, fun _ => ht.documents⟩,
    ⟨ht'.globals.trans hs.right.globals, ht'.indexes.trans hs.right.indexes,
    ht'.intents ▸ hs.right.intents, fun _ => ht'.documents⟩, ?_⟩
  · rw [hr, hr']
    cases T.answer uri with
    | error f => exact .error f
    | ok root => exact .ok rfl
  · rw [ht.intents, ht'.intents]
    exact hs.made

theorem loadAll_echoes (hl : h.loads = true) (requests : List (String × Option String)) :
    Action.Echoes T h Eq (loadAll T requests) (loadAll T requests) := by
  induction requests with
  | nil => exact .pure rfl
  | cons r requests ih =>
    exact (Action.Echoes.ofExcept _).bind_eq fun uri =>
      (loadDocument_echoes hl uri).bind_eq fun root => ih.map_eq

theorem documents_echoes (hl : h.loads = true) (hE : E.Echoes T h E') (hv : v.Echo h v')
    {base base' : Option NodeSet} (hb : Option.Rel (NodeSet.Echo h) base base')
    (scope : Option Scope) :
    Action.Echoes T h (Value.Echo h) (documents T E v base scope)
      (documents T E' v' base' scope) := by
  have hall (requests : List (String × Option String)) : Action.Echoes T h (Value.Echo h)
      (do sortedSet (← loadAll T requests)) (do sortedSet (← loadAll T requests)) :=
    (loadAll_echoes hl requests).bind_eq fun nodes => sortedSet_echoes nodes
  have hstring := Value.asString_echoes hE hv
  cases hv with
  | nodeSet hn =>
    have hload (explicit : Option String) := (NodeSet.members_echoes hE hn).bind_eq fun nodes =>
      hall (nodes.map fun n => (n.stringValue, explicit <|> n.baseUri))
    cases hb with
    | none => exact hload none
    | some hb => exact (NodeSet.first_echoes hE hb).bind_eq fun n => hload (n.bind Node.baseUri)
  | string | number | boolean | object =>
    have hload (explicit : Option String) := hstring.bind_eq fun text =>
      hall [(text, explicit <|> scope.bind (·.baseUri))]
    cases hb with
    | none => exact hload none
    | some hb => exact (NodeSet.first_echoes hE hb).bind_eq fun n => hload (n.bind Node.baseUri)

theorem haveSameNode_echoes (hE : E.Echoes T h E') (hn : ns.Echo h ns') (hm : ms.Echo h ms') :
    Action.Echoes T h Eq (haveSameNode T E ns ms) (haveSameNode T E' ns' ms') :=
  (NodeSet.members_echoes hE hm).bind_eq fun _ =>
    (NodeSet.enumerate_echoes hE hn).bind fun _ _ hk => hE.find _ hk

theorem besideFirst_echoes (hE : E.Echoes T h E') (hn : ns.Echo h ns') (hm : ms.Echo h ms')
    (side : Ordering) :
    Action.Echoes T h (Option.Rel (NodeSet.Echo h)) (besideFirst T E ns ms side)
      (besideFirst T E' ns' ms' side) := by
  refine (NodeSet.first_echoes hE hm).bind_eq fun pivot => ?_
  cases pivot with
  | none => exact .pure .none
  | some pivot =>
    refine (NodeSet.materialize_echoes hE hn).bind_eq fun e => ?_
    exact .ite (fun _ => .pure (.some .empty)) fun _ =>
      .ite (fun _ => .throw _) fun _ => .pure (.some (NodeSet.echo_ofNodes h _ _))

theorem leading_echoes (hE : E.Echoes T h E') (hn : ns.Echo h ns') (hm : ms.Echo h ms') :
    Action.Echoes T h (NodeSet.Echo h) (leading T E ns ms) (leading T E' ns' ms') := by
  refine (besideFirst_echoes hE hn hm .lt).map fun r r' hr => ?_
  cases hr with
  | none => exact hn
  | some hr => exact hr

theorem trailing_echoes (hE : E.Echoes T h E') (hn : ns.Echo h ns') (hm : ms.Echo h ms') :
    Action.Echoes T h (NodeSet.Echo h) (trailing T E ns ms) (trailing T E' ns' ms') := by
  refine (besideFirst_echoes hE hn hm .gt).map fun r r' hr => ?_
  cases hr with
  | none => exact .empty
  | some hr => exact hr

theorem sum_echoes (hE : E.Echoes T h E') (hn : ns.Echo h ns') :
    Action.Echoes T h Eq (sum T E ns) (sum T E' ns') :=
  (NodeSet.members_echoes hE hn).map_eq

/-- Calls of one function in one context. -/
structure Call.Echo (h : Pasts) (k k' : Call) : Prop where
  function : k.function = k'.function
  args : AllEcho h k.args k'.args
  bound : k.bound = k'.bound
  scope : k.scope = k'.scope
  context : k.context = k'.context

namespace Call

variable {k k' : Call}

theorem Echo.focus (hk : k.Echo h k') : k.focus = k'.focus := by
  rw [Call.focus, Call.focus, hk.bound, hk.context]

theorem focus_echoes (hk : k.Echo h k') : Action.Echoes T h Eq k.focus k'.focus := by
  rw [← hk.focus]
  unfold Call.focus
  split
  · exact .pure rfl
  · unfold Context.node
    split
    · exact .pure rfl
    · exact .fail _

theorem current_echoes (c : Context) : Action.Echoes T h Eq c.current c.current := by
  unfold Context.current
  split
  · exact .pure rfl
  · exact .fail _

theorem arg_echoes (hk : k.Echo h k') (i : Nat) :
    Action.Echoes T h (Expr.Echo h) (k.arg i) (k'.arg i) := by
  have ha := hk.args.getElem? i
  unfold arg
  rw [← hk.function]
  generalize k.args[i]? = e, k'.args[i]? = e' at ha ⊢
  cases ha with
  | none => exact .fail _
  | some he => exact .pure he

theorem stringArg_echoes (hE : E.Echoes T h E') (hk : k.Echo h k') (i : Nat) :
    Action.Echoes T h Eq (k.stringArg E i) (k'.stringArg E' i) := by
  unfold stringArg
  rw [← hk.context]
  exact (arg_echoes hk i).bind fun _ _ he => hE.string _ he

theorem numberArg_echoes (hE : E.Echoes T h E') (hk : k.Echo h k') (i : Nat) :
    Action.Echoes T h Eq (k.numberArg E i) (k'.numberArg E' i) := by
  unfold numberArg
  rw [← hk.context]
  exact (arg_echoes hk i).bind fun _ _ he => hE.number _ he

theorem booleanArg_echoes (hE : E.Echoes T h E') (hk : k.Echo h k') (i : Nat) :
    Action.Echoes T h Eq (k.booleanArg E i) (k'.booleanArg E' i) := by
  unfold booleanArg
  rw [← hk.context]
  exact (arg_echoes hk i).bind fun _ _ he => hE.boolean _ he

theorem valueArg_echoes (hE : E.Echoes T h E') (hk : k.Echo h k') (i : Nat) :
    Action.Echoes T h (Value.Echo h) (k.valueArg E i) (k'.valueArg E' i) := by
  unfold valueArg
  rw [← hk.context]
  exact (arg_echoes hk i).bind fun _ _ he => hE.value _ he

theorem nodeSetArg_echoes (hE : E.Echoes T h E') (hk : k.Echo h k') (i : Nat) :
    Action.Echoes T h (NodeSet.Echo h) (k.nodeSetArg E i) (k'.nodeSetArg E' i) := by
  unfold nodeSetArg
  rw [← hk.context]
  exact (arg_echoes hk i).bind fun _ _ he => hE.nodeSet _ he

theorem optionalArg_echoes {α : Type} {R : α → α → Prop}
    {evaluate evaluate' : Expr → Context → Action α}
    (he : ∀ {e e' : Expr} (c : Context), e.Echo h e' →
      Action.Echoes T h R (evaluate e c) (evaluate' e' c))
    (hk : k.Echo h k') (i : Nat) :
    Action.Echoes T h (Option.Rel R) (k.optionalArg i evaluate) (k'.optionalArg i evaluate') := by
  have ha := hk.args.getElem? i
  unfold optionalArg
  rw [← hk.context]
  generalize k.args[i]? = e, k'.args[i]? = e' at ha ⊢
  cases ha with
  | none => exact .pure .none
  | some ha => exact (he _ ha).map fun _ _ hr => .some hr

theorem optionalScalar_echoes {α : Type} {evaluate evaluate' : Expr → Context → Action α}
    (he : ∀ {e e' : Expr} (c : Context), e.Echo h e' →
      Action.Echoes T h Eq (evaluate e c) (evaluate' e' c))
    (hk : k.Echo h k') (i : Nat) :
    Action.Echoes T h Eq (k.optionalArg i evaluate) (k'.optionalArg i evaluate') := by
  refine (optionalArg_echoes he hk i).imp fun a b hr => ?_
  cases hr with
  | none => rfl
  | some hr => rw [hr]

theorem subject_echoes (hE : E.Echoes T h E') (hk : k.Echo h k') :
    Action.Echoes T h Eq (k.subject T E) (k'.subject T E') := by
  have ha := hk.args
  unfold subject
  rw [← hk.context]
  generalize k.args = es, k'.args = es' at ha ⊢
  cases ha with
  | nil => exact (focus_echoes hk).map_eq
  | cons he _ => exact (hE.nodeSet _ he).bind fun _ _ hn => NodeSet.first_echoes hE hn

theorem subjectString_echoes (hE : E.Echoes T h E') (hk : k.Echo h k') :
    Action.Echoes T h Eq (k.subjectString E) (k'.subjectString E') := by
  have ha := hk.args
  unfold subjectString
  rw [← hk.context]
  generalize k.args = es, k'.args = es' at ha ⊢
  cases ha with
  | nil => exact (focus_echoes hk).map_eq
  | cons he _ => exact hE.string _ he

theorem joinedArgs_echoes (hE : E.Echoes T h E') (c : Context) {es es' : List Expr}
    (hes : AllEcho h es es') :
    Action.Echoes T h Eq (joinedArgs E c es) (joinedArgs E' c es') := by
  induction es generalizing es' with
  | nil =>
    cases hes
    exact .pure rfl
  | cons e es ih =>
    cases hes with
    | cons he hes => exact (hE.string c he).bind_eq fun _ => (ih hes).map_eq

/-- The value made of what both calls come to. -/
theorem make_echoes {α : Type} {a b : Action α} (ha : Action.Echoes T h Eq a b) {make : α → Value}
    (hm : ∀ x, (make x).Echo h (make x)) :
    Action.Echoes T h (Value.Echo h) (do return make (← a)) (do return make (← b)) :=
  ha.map fun x _ he => he ▸ hm x

theorem systemProperty_echo (h : Pasts) (name : ExpandedName) :
    (systemProperty name).Echo h (systemProperty name) := by
  unfold systemProperty
  split
  · split
    · exact .number _
    · exact .string _
    · exact .string _
    · exact .string _
  · exact .string _

theorem run_echoes (hE : E.Echoes T h E') (hk : k.Echo h k')
    (hf : k.function.StandsAlone h.loads) :
    Action.Echoes T h (Value.Echo h) (k.run T E) (k'.run T E') := by
  have hfocus : Action.Echoes T h Eq k.focus k'.focus := focus_echoes hk
  have hstring := stringArg_echoes hE hk
  have hnumber := numberArg_echoes hE hk
  have hboolean := booleanArg_echoes hE hk
  have hnodes := nodeSetArg_echoes hE hk
  have hvalue := valueArg_echoes hE hk
  have hbase := optionalArg_echoes hE.nodeSet hk 1
  have hlength := optionalScalar_echoes hE.number hk 2
  have hformat := optionalScalar_echoes hE.string hk 2
  have hsubject := subject_echoes hE hk
  have htext := subjectString_echoes hE hk
  have hstrings {α : Type} {make : String → String → α} {wrap : α → Value}
      (hm : ∀ x, (wrap x).Echo h (wrap x)) : Action.Echoes T h (Value.Echo h)
        (do return wrap (make (← k.stringArg E 0) (← k.stringArg E 1)))
        (do return wrap (make (← k'.stringArg E' 0) (← k'.stringArg E' 1))) :=
    (hstring 0).bind_eq fun _ => make_echoes (hstring 1) fun _ => hm _
  obtain ⟨f, args, bound, scope, c⟩ := k
  obtain ⟨_, args', bound', _, c'⟩ := k'
  obtain ⟨rfl, ha, rfl, rfl, rfl⟩ : f = _ ∧ AllEcho h args args' ∧ bound = bound' ∧ scope = _ ∧
    c = c' := ⟨hk.function, hk.args, hk.bound, hk.scope, hk.context⟩
  unfold run
  cases f with
  | last => exact .pure (.number _)
  | position => exact .pure (.number _)
  | count =>
    exact (hnodes 0).bind fun _ _ hn => make_echoes (NodeSet.count_echoes hE hn) fun _ => .number _
  | current => exact make_echoes (current_echoes c) fun _ => .nodeSet (NodeSet.echo_ofOption h _)
  | id => exact (hvalue 0).bind fun _ _ hv => hfocus.bind_eq fun n => byId_echoes hE hv n
  | key => exact absurd rfl hf.1
  | document =>
    exact (hvalue 0).bind fun _ _ hv => hbase.bind fun _ _ hb =>
      documents_echoes (hf.2 rfl) hE hv hb scope
  | localName => exact make_echoes hsubject fun _ => .string _
  | namespaceUri => exact make_echoes hsubject fun _ => .string _
  | name => exact make_echoes hsubject fun _ => .string _
  | generateId => exact make_echoes hsubject fun _ => .string _
  | not => exact make_echoes (hboolean 0) fun _ => .boolean _
  | true => exact .pure (.boolean _)
  | false => exact .pure (.boolean _)
  | boolean => exact make_echoes (hboolean 0) fun _ => .boolean _
  | lang => exact (hstring 0).bind_eq fun wanted => make_echoes hfocus fun _ => .boolean _
  | number =>
    cases ha with
    | nil => exact make_echoes hfocus fun _ => .number _
    | cons he _ => exact make_echoes (hE.number c he) fun _ => .number _
  | floor => exact make_echoes (hnumber 0) fun _ => .number _
  | ceiling => exact make_echoes (hnumber 0) fun _ => .number _
  | round => exact make_echoes (hnumber 0) fun _ => .number _
  | sum => exact (hnodes 0).bind fun _ _ hn => make_echoes (sum_echoes hE hn) fun _ => .number _
  | string => exact make_echoes htext fun _ => .string _
  | startsWith => exact hstrings .boolean
  | stringLength => exact make_echoes htext fun _ => .number _
  | substring =>
    exact (hstring 0).bind_eq fun text => (hnumber 1).bind_eq fun start =>
      make_echoes hlength fun _ => .string _
  | contains => exact hstrings .boolean
  | substringBefore => exact hstrings .string
  | substringAfter => exact hstrings .string
  | normalizeSpace => exact make_echoes htext fun _ => .string _
  | translate =>
    exact (hstring 0).bind_eq fun text => (hstring 1).bind_eq fun replaced =>
      make_echoes (hstring 2) fun _ => .string _
  | concat => exact make_echoes (joinedArgs_echoes hE c ha) fun _ => .string _
  | formatNumber =>
    exact (hnumber 0).bind_eq fun n => (hstring 1).bind_eq fun picture =>
      hformat.bind_eq fun format => make_echoes (.ofExcept _) fun _ => .string _
  | systemProperty =>
    exact (hstring 0).bind_eq fun name => make_echoes (.ofExcept _) (systemProperty_echo h)
  | functionAvailable =>
    exact (hstring 0).bind_eq fun name => make_echoes (.ofExcept _) fun _ => .boolean _
  | elementAvailable =>
    exact (hstring 0).bind_eq fun name => make_echoes (.ofExcept _) fun _ => .boolean _
  | unparsedEntityUri =>
    exact hfocus.bind_eq fun n => make_echoes (hstring 0) fun _ => .string _
  | hasSameNode =>
    exact (hnodes 0).bind fun _ _ ha => (hnodes 1).bind fun _ _ hb =>
      make_echoes (haveSameNode_echoes hE ha hb) fun _ => .boolean _
  | leading =>
    exact (hnodes 0).bind fun _ _ ha => (hnodes 1).bind fun _ _ hb =>
      (leading_echoes hE ha hb).map fun _ _ hn => .nodeSet hn
  | trailing =>
    exact (hnodes 0).bind fun _ _ ha => (hnodes 1).bind fun _ _ hb =>
      (trailing_echoes hE ha hb).map fun _ _ hn => .nodeSet hn

end Call

end Function

end PathLanguage
