/- Calls of system functions with direct arguments: where one engine succeeds an engine that follows
it does, and no call makes a lazy node-set. -/
import PathLanguage.Proofs.Direct.Reading

namespace PathLanguage

variable {R : Session → Session → Prop} {T : Transformation} {E E' : Engine}

theorem Context.node_follows (c : Context) : Action.Follows R (fun _ => True) c.node c.node := by
  unfold Context.node
  split
  · exact .pure trivial
  · exact .fail

theorem Context.current_follows (c : Context) :
    Action.Follows R (fun _ => True) c.current c.current := by
  unfold Context.current
  split
  · exact .pure trivial
  · exact .fail

namespace Function

theorem argumentStrings_follows (hE : E.Follows R E') {v : Value} (h : v.AtHand) :
    Action.Follows R (fun _ => True) (argumentStrings T E v) (argumentStrings T E' v) := by
  unfold argumentStrings
  split
  · exact (NodeSet.members_follows hE (h _ rfl)).map_any
  · exact (Value.asString_follows E E' h).map_any

theorem sortedSet_follows (nodes : List Node) :
    Action.Follows R Value.AtHand (sortedSet nodes) (sortedSet nodes) :=
  (Action.Follows.ofExcept_any _).map fun _ _ => (NodeSet.atHand_ofNodes _ true).value

theorem byId_follows (hE : E.Follows R E') {v : Value} (h : v.AtHand) (n : Node) :
    Action.Follows R Value.AtHand (byId T E v n) (byId T E' v n) :=
  (argumentStrings_follows hE h).bind fun _ _ => sortedSet_follows _

theorem haveSameNode_follows (hE : E.Follows R E') {a b : NodeSet} (ha : a.AtHand)
    (hb : b.AtHand) :
    Action.Follows R (fun _ => True) (haveSameNode T E a b) (haveSameNode T E' a b) :=
  (NodeSet.members_follows hE hb).bind fun _ _ =>
    (NodeSet.enumerate_follows E E' ha).bind fun _ hc => hE.find _ hc

theorem besideFirst_follows (hE : E.Follows R E') {a b : NodeSet} (ha : a.AtHand) (hb : b.AtHand)
    (side : Ordering) :
    Action.Follows R (fun r => ∀ ns ∈ r, ns.AtHand) (besideFirst T E a b side)
      (besideFirst T E' a b side) := by
  refine (NodeSet.first_follows E E' hb).bind fun pivot _ => ?_
  split
  · exact .pure nofun
  · have hsome {ns : NodeSet} (h : ns.AtHand) :
        Action.Follows R (fun r => ∀ ns ∈ r, ns.AtHand) (pure (some ns)) (pure (some ns)) :=
      .pure fun _ hm => Option.some.inj hm ▸ h
    refine (NodeSet.materialize_follows hE ha).bind fun e _ => ?_
    refine .ite (fun _ => hsome nofun) fun _ => .ite (fun _ => .throw) fun _ => ?_
    exact hsome (NodeSet.atHand_ofNodes _ true)

theorem leading_follows (hE : E.Follows R E') {a b : NodeSet} (ha : a.AtHand) (hb : b.AtHand) :
    Action.Follows R NodeSet.AtHand (leading T E a b) (leading T E' a b) :=
  (besideFirst_follows hE ha hb .lt).map fun r hr => by
    cases r with
    | none => exact ha
    | some ns => exact hr ns rfl

theorem trailing_follows (hE : E.Follows R E') {a b : NodeSet} (ha : a.AtHand) (hb : b.AtHand) :
    Action.Follows R NodeSet.AtHand (trailing T E a b) (trailing T E' a b) :=
  (besideFirst_follows hE ha hb .gt).map fun r hr => by
    cases r with
    | none => exact nofun
    | some ns => exact hr ns rfl

theorem sum_follows (hE : E.Follows R E') {ns : NodeSet} (h : ns.AtHand) :
    Action.Follows R (fun _ => True) (sum T E ns) (sum T E' ns) :=
  (NodeSet.members_follows hE h).map_any

namespace Call

/-- A call with direct arguments in a context without local variables. -/
structure Direct (c : Call) : Prop where
  standsAlone : c.function.StandsAlone false
  args : AllDirect c.function.takesValue c.args
  locals : c.context.locals = []

variable {α : Type} {c : Call}

theorem focus_follows (c : Call) : Action.Follows R (fun _ => True) c.focus c.focus := by
  unfold focus
  split
  · exact .pure trivial
  · exact c.context.node_follows

theorem arg_follows (h : c.Direct) (i : Nat) :
    Action.Follows R (fun e => e.Direct (c.function.takesValue i)) (c.arg i) (c.arg i) := by
  unfold arg
  split
  · exact .pure (h.args.get ‹_›)
  · exact .fail

theorem stringArg_follows (hE : E.Follows R E') (h : c.Direct) {i : Nat}
    (hi : c.function.takesValue i = false) :
    Action.Follows R (fun _ => True) (c.stringArg E i) (c.stringArg E' i) :=
  (arg_follows h i).bind fun _ he => hE.string (hi ▸ he) h.locals

theorem booleanArg_follows (hE : E.Follows R E') (h : c.Direct) {i : Nat}
    (hi : c.function.takesValue i = false) :
    Action.Follows R (fun _ => True) (c.booleanArg E i) (c.booleanArg E' i) :=
  (arg_follows h i).bind fun _ he => hE.boolean (hi ▸ he) h.locals

theorem numberArg_follows (hE : E.Follows R E') (h : c.Direct) {i : Nat}
    (hi : c.function.takesValue i = true) :
    Action.Follows R (fun _ => True) (c.numberArg E i) (c.numberArg E' i) :=
  (arg_follows h i).bind fun _ he => hE.number (hi ▸ he) h.locals

theorem valueArg_follows (hE : E.Follows R E') (h : c.Direct) {i : Nat}
    (hi : c.function.takesValue i = true) :
    Action.Follows R Value.AtHand (c.valueArg E i) (c.valueArg E' i) :=
  (arg_follows h i).bind fun _ he => hE.value (hi ▸ he) h.locals

theorem nodeSetArg_follows (hE : E.Follows R E') (h : c.Direct) {i : Nat}
    (hi : c.function.takesValue i = true) :
    Action.Follows R NodeSet.AtHand (c.nodeSetArg E i) (c.nodeSetArg E' i) :=
  (arg_follows h i).bind fun _ he => hE.nodeSet (hi ▸ he) h.locals

theorem optionalArg_follows {evaluate evaluate' : Expr → Context → Action α} (h : c.Direct)
    (i : Nat) (he : ∀ e, e.Direct (c.function.takesValue i) →
      Action.Follows R (fun _ => True) (evaluate e c.context) (evaluate' e c.context)) :
    Action.Follows R (fun _ => True) (c.optionalArg i evaluate) (c.optionalArg i evaluate') := by
  unfold optionalArg
  split
  · exact (he _ (h.args.get ‹_›)).map_any
  · exact .pure trivial

theorem subject_follows (hE : E.Follows R E') (h : c.Direct)
    (hi : c.function.takesValue 0 = true) :
    Action.Follows R (fun _ => True) (c.subject T E) (c.subject T E') := by
  have hargs := h.args
  unfold subject
  split
  · next e rest heq =>
    rw [heq] at hargs
    have he : e.Direct true := hi ▸ hargs.head
    exact (hE.nodeSet he h.locals).bind fun _ hns => NodeSet.first_follows E E' hns
  · exact c.focus_follows.map_any

theorem subjectString_follows (hE : E.Follows R E') (h : c.Direct)
    (hi : c.function.takesValue 0 = false) :
    Action.Follows R (fun _ => True) (c.subjectString E) (c.subjectString E') := by
  have hargs := h.args
  unfold subjectString
  split
  · next e rest heq =>
    rw [heq] at hargs
    have he : e.Direct false := hi ▸ hargs.head
    exact hE.string he h.locals
  · exact c.focus_follows.map_any

theorem joinedArgs_follows (hE : E.Follows R E') {context : Context} (hc : context.locals = [])
    {args : List Expr} (h : AllDirect (fun _ => false) args) :
    Action.Follows R (fun _ => True) (joinedArgs E context args) (joinedArgs E' context args) := by
  induction args with
  | nil => exact .pure trivial
  | cons e rest ih => exact (hE.string h.head hc).bind fun _ _ => (ih h.tail).map_any

/-- What applies to the name that the first argument denotes. -/
theorem named_follows (hE : E.Follows R E') (h : c.Direct) (hi : c.function.takesValue 0 = false)
    {f : ExpandedName → α} {P : α → Prop} (hf : ∀ name, P (f name)) :
    Action.Follows R P (do return f (← .ofExcept (resolveName c.scope (← c.stringArg E 0))))
      (do return f (← .ofExcept (resolveName c.scope (← c.stringArg E' 0)))) :=
  (stringArg_follows hE h hi).bind fun _ _ =>
    (Action.Follows.ofExcept_any _).map fun name _ => hf name

/-- What combines the strings of the first two arguments. -/
theorem strings_follows (hE : E.Follows R E') (h : c.Direct)
    (hi : ∀ i, c.function.takesValue i = false) {f : String → String → α} {P : α → Prop}
    (hf : ∀ a b, P (f a b)) :
    Action.Follows R P (do return f (← c.stringArg E 0) (← c.stringArg E 1))
      (do return f (← c.stringArg E' 0) (← c.stringArg E' 1)) :=
  (stringArg_follows hE h (hi 0)).bind fun a _ =>
    (stringArg_follows hE h (hi 1)).map fun b _ => hf a b

theorem nodeSets_follows (hE : E.Follows R E') (h : c.Direct)
    (hi : ∀ i, c.function.takesValue i = true) {f f' : NodeSet → NodeSet → Action Value}
    (hf : ∀ a b, a.AtHand → b.AtHand → Action.Follows R Value.AtHand (f a b) (f' a b)) :
    Action.Follows R Value.AtHand
      (do
        let a ← c.nodeSetArg E 0
        f a (← c.nodeSetArg E 1))
      (do
        let a ← c.nodeSetArg E' 0
        f' a (← c.nodeSetArg E' 1)) :=
  (nodeSetArg_follows hE h (hi 0)).bind fun a ha =>
    (nodeSetArg_follows hE h (hi 1)).bind fun b hb => hf a b ha hb

theorem run_follows (hE : E.Follows R E') (h : c.Direct) :
    Action.Follows R Value.AtHand (c.run T E) (c.run T E') := by
  obtain ⟨function, args, bound, scope, context⟩ := c
  have hc : context.locals = [] := h.locals
  cases function with
  | last | position | true | false => exact .pure nofun
  | count =>
    refine (nodeSetArg_follows hE h rfl).bind fun ns hns => ?_
    exact (NodeSet.count_follows E E' hns).map fun _ _ => nofun
  | current => exact (Context.current_follows _).map fun _ _ => NodeSet.AtHand.value nofun
  | id =>
    refine (valueArg_follows hE h rfl).bind fun v hv => ?_
    exact (focus_follows _).bind fun n _ => byId_follows hE hv n
  | key => exact absurd rfl h.standsAlone.1
  | document => exact nomatch h.standsAlone.2 rfl
  | localName | namespaceUri | name | generateId =>
    exact (subject_follows hE h rfl).map fun _ _ => nofun
  | not | boolean => exact (booleanArg_follows hE h rfl).map fun _ _ => nofun
  | lang =>
    refine (stringArg_follows hE h rfl).bind fun wanted _ => ?_
    exact (focus_follows _).map fun _ _ => nofun
  | number =>
    cases args with
    | nil => exact (focus_follows _).map fun _ _ => nofun
    | cons e rest => exact (hE.number h.args.head hc).map fun _ _ => nofun
  | floor | ceiling | round => exact (numberArg_follows hE h rfl).map fun _ _ => nofun
  | sum =>
    refine (nodeSetArg_follows hE h rfl).bind fun ns hns => ?_
    exact (sum_follows hE hns).map fun _ _ => nofun
  | string | stringLength | normalizeSpace =>
    exact (subjectString_follows hE h rfl).map fun _ _ => nofun
  | startsWith | contains | substringBefore | substringAfter =>
    exact strings_follows hE h (fun _ => rfl) fun _ _ => nofun
  | substring =>
    refine (stringArg_follows hE h rfl).bind fun text _ => ?_
    refine (numberArg_follows hE h rfl).bind fun start _ => ?_
    exact (optionalArg_follows h 2 fun e he => hE.number he hc).map fun _ _ => nofun
  | translate =>
    refine (stringArg_follows hE h rfl).bind fun text _ => ?_
    refine (stringArg_follows hE h rfl).bind fun «from» _ => ?_
    exact (stringArg_follows hE h rfl).map fun _ _ => nofun
  | concat => exact (joinedArgs_follows hE hc h.args).map fun _ _ => nofun
  | formatNumber =>
    refine (numberArg_follows hE h rfl).bind fun n _ => ?_
    refine (stringArg_follows hE h rfl).bind fun picture _ => ?_
    refine (optionalArg_follows h 2 fun e he => hE.string he hc).bind fun format _ => ?_
    exact (Action.Follows.ofExcept_any _).map fun _ _ => nofun
  | systemProperty =>
    exact named_follows hE h rfl fun name ns hv => absurd hv (systemProperty_atHand name ns)
  | functionAvailable | elementAvailable => exact named_follows hE h rfl fun _ => nofun
  | unparsedEntityUri =>
    refine (focus_follows _).bind fun n _ => ?_
    exact (stringArg_follows hE h rfl).map fun _ _ => nofun
  | hasSameNode =>
    exact nodeSets_follows hE h (fun _ => rfl) fun a b ha hb =>
      (haveSameNode_follows hE ha hb).map fun _ _ => nofun
  | leading =>
    exact nodeSets_follows hE h (fun _ => rfl) fun a b ha hb =>
      (leading_follows hE ha hb).map fun _ hns => hns.value
  | trailing =>
    exact nodeSets_follows hE h (fun _ => rfl) fun a b ha hb =>
      (trailing_follows hE ha hb).map fun _ hns => hns.value

end Call

end Function

end PathLanguage
