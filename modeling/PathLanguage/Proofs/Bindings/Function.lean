/- Calls of system functions, pattern matching and key searches are tidy. -/
import PathLanguage.Proofs.Bindings.Reading

namespace PathLanguage

variable {T : Transformation} {E : Engine}

theorem Context.node_tidy (c : Context) : c.node.Tidy := by
  unfold Context.node
  split
  · exact .pure _
  · exact .fail _

theorem Context.current_tidy (c : Context) : c.current.Tidy := by
  unfold Context.current
  split
  · exact .pure _
  · exact .fail _

namespace Function

theorem argumentStrings_tidy (hE : E.Tidy) (v : Value) : (argumentStrings T E v).Tidy := by
  unfold argumentStrings
  split
  · exact (NodeSet.members_tidy hE _).map _
  · exact (Value.asString_tidy hE _).map _

theorem sortedSet_tidy (nodes : List Node) : (sortedSet nodes).Tidy :=
  (Action.Tidy.ofExcept _).map _

theorem byId_tidy (hE : E.Tidy) (v : Value) (n : Node) : (byId T E v n).Tidy := by
  apply (argumentStrings_tidy hE v).bind
  intro ids
  exact sortedSet_tidy _

theorem searchAll_tidy (hE : E.Tidy) (name : ExpandedName) (root : Node) (context : Context)
    (values : List String) : (searchAll E name root context values).Tidy := by
  induction values with
  | nil => exact .pure _
  | cons s rest ih => exact (hE.search name s root context).bind fun found => ih.map _

theorem byKey_tidy (hE : E.Tidy) (name : String) (v : Value) (scope : Option Scope) (n : Node)
    (context : Context) : (byKey T E name v scope n context).Tidy := by
  apply (Action.Tidy.ofExcept _).bind
  intro keyName
  apply Action.Tidy.ite
  · exact .throw_bind _ _
  apply (argumentStrings_tidy hE v).bind
  intro values
  exact (searchAll_tidy hE keyName n.top context values).bind sortedSet_tidy

theorem loadDocument_tidy (uri : String) : (loadDocument T uri).Tidy := by
  apply Action.Tidy.get
  intro s
  split
  · exact .pure _
  split
  · exact .throw _
  apply Action.Tidy.bind
  · exact .modify fun _ => rfl
  intro _
  apply (Action.Tidy.ofExcept _).bind
  intro root
  split
  · exact .pure _
  · exact Action.Tidy.bind (.modify fun _ => rfl) fun _ => .pure _

theorem loadAll_tidy (requests : List (String × Option String)) : (loadAll T requests).Tidy := by
  induction requests with
  | nil => exact .pure _
  | cons request rest ih =>
    apply (Action.Tidy.ofExcept _).bind
    intro uri
    exact (loadDocument_tidy uri).bind fun root => ih.map _

theorem documents_tidy (hE : E.Tidy) (v : Value) (baseNodes : Option NodeSet)
    (scope : Option Scope) : (documents T E v baseNodes scope).Tidy := by
  unfold documents
  extract_lets load finish
  have hload : ∀ requests, (load requests).Tidy :=
    fun requests => (loadAll_tidy requests).bind sortedSet_tidy
  have hfinish : ∀ explicit, (finish explicit).Tidy := by
    intro explicit
    simp only [finish]
    split
    · exact (NodeSet.members_tidy hE _).bind fun nodes => (Action.Tidy.pure _).bind hload
    · exact (Value.asString_tidy hE _).bind fun text => (Action.Tidy.pure _).bind hload
  split
  · next ns => exact (NodeSet.first_tidy hE ns).bind fun n => (Action.Tidy.pure _).bind hfinish
  · exact (Action.Tidy.pure _).bind hfinish

theorem haveSameNode_tidy (hE : E.Tidy) (a b : NodeSet) : (haveSameNode T E a b).Tidy := by
  apply (NodeSet.members_tidy hE b).bind
  intro right
  exact (NodeSet.enumerate_tidy hE a).bind fun c => hE.find _ c

theorem besideFirst_tidy (hE : E.Tidy) (a b : NodeSet) (side : Ordering) :
    (besideFirst T E a b side).Tidy := by
  apply (NodeSet.first_tidy hE b).bind
  intro pivot
  split
  · exact .pure _
  apply (NodeSet.materialize_tidy hE a).bind
  intro e
  apply Action.Tidy.ite (.pure _)
  exact .ite (.throw_bind _ _) (.pure _)

theorem sum_tidy (hE : E.Tidy) (ns : NodeSet) : (sum T E ns).Tidy :=
  (NodeSet.members_tidy hE ns).map _

namespace Call

variable {α : Type}

theorem focus_tidy (c : Call) : c.focus.Tidy := by
  unfold focus
  split
  · exact .pure _
  · exact c.context.node_tidy

theorem arg_tidy (c : Call) (i : Nat) : (c.arg i).Tidy := by
  unfold arg
  split
  · exact .pure _
  · exact .fail _

theorem stringArg_tidy (hE : E.Tidy) (c : Call) (i : Nat) : (c.stringArg E i).Tidy :=
  (c.arg_tidy i).bind fun e => hE.string e _

theorem numberArg_tidy (hE : E.Tidy) (c : Call) (i : Nat) : (c.numberArg E i).Tidy :=
  (c.arg_tidy i).bind fun e => hE.number e _

theorem booleanArg_tidy (hE : E.Tidy) (c : Call) (i : Nat) : (c.booleanArg E i).Tidy :=
  (c.arg_tidy i).bind fun e => hE.boolean e _

theorem valueArg_tidy (hE : E.Tidy) (c : Call) (i : Nat) : (c.valueArg E i).Tidy :=
  (c.arg_tidy i).bind fun e => hE.value e _

theorem nodeSetArg_tidy (hE : E.Tidy) (c : Call) (i : Nat) : (c.nodeSetArg E i).Tidy :=
  (c.arg_tidy i).bind fun e => hE.nodeSet e _

theorem optionalArg_tidy {evaluate : Expr → Context → Action α}
    (h : ∀ e context, (evaluate e context).Tidy) (c : Call) (i : Nat) :
    (c.optionalArg i evaluate).Tidy := by
  unfold optionalArg
  split
  · exact (h _ _).map _
  · exact .pure _

theorem subject_tidy (hE : E.Tidy) (c : Call) : (c.subject T E).Tidy := by
  unfold subject
  split
  · exact (hE.nodeSet _ _).bind (NodeSet.first_tidy hE)
  · exact c.focus_tidy.map _

theorem subjectString_tidy (hE : E.Tidy) (c : Call) : (c.subjectString E).Tidy := by
  unfold subjectString
  split
  · exact hE.string _ _
  · exact c.focus_tidy.map _

theorem joinedArgs_tidy (hE : E.Tidy) (context : Context) (args : List Expr) :
    (joinedArgs E context args).Tidy := by
  induction args with
  | nil => exact .pure _
  | cons e rest ih => exact (hE.string e context).bind fun text => ih.map _

/-- What applies to the name that the first argument denotes. -/
theorem named_tidy (hE : E.Tidy) (c : Call) {f : ExpandedName → α} :
    (do return f (← .ofExcept (resolveName c.scope (← c.stringArg E 0))) : Action α).Tidy :=
  (c.stringArg_tidy hE 0).bind fun _ => (Action.Tidy.ofExcept _).map _

/-- What combines the strings of the first two arguments. -/
theorem strings_tidy (hE : E.Tidy) (c : Call) {f : String → String → α} :
    (do return f (← c.stringArg E 0) (← c.stringArg E 1) : Action α).Tidy :=
  (c.stringArg_tidy hE 0).bind fun _ => (c.stringArg_tidy hE 1).map _

theorem nodeSets_tidy (hE : E.Tidy) (c : Call) {f : NodeSet → NodeSet → Action Value}
    (hf : ∀ a b, (f a b).Tidy) :
    (do
      let a ← c.nodeSetArg E 0
      f a (← c.nodeSetArg E 1)).Tidy :=
  (c.nodeSetArg_tidy hE 0).bind fun a => (c.nodeSetArg_tidy hE 1).bind (hf a)

theorem run_tidy (hE : E.Tidy) (c : Call) : (c.run T E).Tidy := by
  obtain ⟨function, args, bound, scope, context⟩ := c
  cases function with
  | last | position | true | false => exact .pure _
  | count =>
    apply (nodeSetArg_tidy hE _ 0).bind
    intro ns
    exact (NodeSet.count_tidy hE ns).map _
  | current => exact (Context.current_tidy _).map _
  | id =>
    apply (valueArg_tidy hE _ 0).bind
    intro v
    exact (focus_tidy _).bind (byId_tidy hE v)
  | key =>
    apply (stringArg_tidy hE _ 0).bind
    intro name
    apply (valueArg_tidy hE _ 1).bind
    intro v
    exact (focus_tidy _).bind fun n => byKey_tidy hE name v _ n _
  | document =>
    apply (valueArg_tidy hE _ 0).bind
    intro v
    exact (optionalArg_tidy hE.nodeSet _ 1).bind fun base => documents_tidy hE v base _
  | localName | namespaceUri | name | generateId => exact (subject_tidy hE _).map _
  | not | boolean => exact (booleanArg_tidy hE _ 0).map _
  | lang =>
    exact (stringArg_tidy hE _ 0).bind fun wanted => (focus_tidy _).map _
  | number =>
    cases args with
    | nil => exact (focus_tidy _).map _
    | cons e rest => exact (hE.number e _).map _
  | floor | ceiling | round => exact (numberArg_tidy hE _ 0).map _
  | sum =>
    exact (nodeSetArg_tidy hE _ 0).bind fun ns => (sum_tidy hE ns).map _
  | string | stringLength | normalizeSpace => exact (subjectString_tidy hE _).map _
  | startsWith | contains | substringBefore | substringAfter => exact strings_tidy hE _
  | substring =>
    apply (stringArg_tidy hE _ 0).bind
    intro text
    exact (numberArg_tidy hE _ 1).bind fun start => (optionalArg_tidy hE.number _ 2).map _
  | translate =>
    apply (stringArg_tidy hE _ 0).bind
    intro text
    exact (stringArg_tidy hE _ 1).bind fun «from» => (stringArg_tidy hE _ 2).map _
  | concat => exact (joinedArgs_tidy hE _ _).map _
  | formatNumber =>
    apply (numberArg_tidy hE _ 0).bind
    intro n
    apply (stringArg_tidy hE _ 1).bind
    intro picture
    apply (optionalArg_tidy hE.string _ 2).bind
    intro format
    exact (Action.Tidy.ofExcept _).map _
  | systemProperty | functionAvailable | elementAvailable => exact named_tidy hE _
  | unparsedEntityUri =>
    exact (focus_tidy _).bind fun n => (stringArg_tidy hE _ 0).map _
  | hasSameNode =>
    exact nodeSets_tidy hE _ fun a b => (haveSameNode_tidy hE a b).map _
  | leading | trailing =>
    exact nodeSets_tidy hE _ fun a b => ((besideFirst_tidy hE a b _).map _).map _

end Call

end Function

namespace Pattern

theorem holdAll_tidy (hE : E.Tidy) (focus : Context) (predicates : List Expr) :
    (holdAll E focus predicates).Tidy := by
  induction predicates with
  | nil => exact .pure _
  | cons p rest ih => exact (hE.boolean p focus).bind fun holds => .ite ih (.pure _)

theorem passes_tidy (hE : E.Tidy) (s : PatternStep) (n : Node) (context : Context) :
    (passes E s n context).Tidy := by
  unfold passes
  split
  · exact holdAll_tidy hE _ _
  · exact (hE.head _).map _
  · exact (hE.head _).map _
  · exact (hE.cursor _ _ _).bind fun c => hE.find _ c

theorem anyOf_tidy {holds : Node → Action Bool} (h : ∀ n, (holds n).Tidy) (nodes : List Node) :
    (anyOf holds nodes).Tidy := by
  induction nodes with
  | nil => exact .pure _
  | cons n rest ih => exact (h n).bind fun found => .ite (.pure _) ih

theorem accepts_tidy (hE : E.Tidy) (p : Pattern) (n : Node) (context : Context) :
    (accepts E p n context).Tidy := by
  induction p generalizing n with
  | document => exact .pure _
  | test t => exact .pure _
  | step s => exact .ite (passes_tidy hE s n context) (.pure _)
  | under connector upper s ih =>
    apply Action.Tidy.ite (.pure _)
    apply (anyOf_tidy ih _).bind
    intro found
    exact .ite (passes_tidy hE s n context) (.pure _)
  | id ids => exact .pure _
  | key name value => exact (hE.search name value n.top context).map _
  | union a b iha ihb => exact (iha n).bind fun found => .ite (.pure _) (ihb n)

end Pattern

namespace Key

theorem valuesOf_tidy (hE : E.Tidy) (d : KeyDefinition) (n : Node) (context : Context) :
    (valuesOf T E d n context).Tidy := by
  apply (hE.value d.use _).bind
  intro v
  split
  · exact (NodeSet.members_tidy hE _).map _
  · exact (Value.asString_tidy hE _).map _

theorem enterNode_tidy (hE : E.Tidy) (context : Context) (n : Node)
    (definitions : List KeyDefinition) (entries : Entries) :
    (enterNode T E context n definitions entries).Tidy := by
  induction definitions generalizing entries with
  | nil => exact .pure _
  | cons d rest ih =>
    apply (Pattern.accepts_tidy hE d.pattern n context).bind
    intro accepted
    apply Action.Tidy.ite
    · exact (valuesOf_tidy hE d n context).bind fun values => ih _
    · exact ih entries

theorem enterNodes_tidy (hE : E.Tidy) (context : Context) (definitions : List KeyDefinition)
    (nodes : List Node) (entries : Entries) :
    (enterNodes T E context definitions nodes entries).Tidy := by
  induction nodes generalizing entries with
  | nil => exact .pure _
  | cons n rest ih => exact (enterNode_tidy hE context n definitions entries).bind ih

theorem search_tidy (hE : E.Tidy) (name : ExpandedName) (value : String) (root : Node)
    (context : Context) : (search T E name value root context).Tidy := by
  apply Action.Tidy.ite
  · exact .throw_bind _ _
  apply Action.Tidy.get
  intro s
  split
  · exact .pure _
  apply (enterNodes_tidy hE context _ _ []).bind
  intro entries
  apply Action.Tidy.bind
  · apply Action.Tidy.modify
    intro s
    split <;> rfl
  · exact fun _ => .pure _

end Key

end PathLanguage
