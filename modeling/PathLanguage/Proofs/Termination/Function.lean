/- Node-sets are read to their end, and functions called to theirs, if the definitions of lazy
node-sets deliver what can be read and the arguments are evaluated. -/
import PathLanguage.Proofs.Termination.Reading

namespace PathLanguage

variable {T : Transformation} {G : Globals → Prop} {α : Type}

/-- A definition of nodes that can be read wherever a lazy node-set needs them. -/
def Expr.Delivers (T : Transformation) (d : Expr) : Prop :=
  ∀ G sort, Ends T G (fun E => E.cursor d T.globalContext sort) (Cursor.Readable T G)

/-- A node-set that can be read to its end. -/
def NodeSet.Readable (T : Transformation) : NodeSet → Prop
  | .intent _ d => d.Delivers T
  | .empty | .single .. | .extent _ => True

def Value.Readable (T : Transformation) : Value → Prop
  | .nodeSet ns => ns.Readable T
  | .string _ | .number _ | .boolean _ | .object _ => True

/-- A context whose local variables can be read. -/
def Context.Readable (T : Transformation) (c : Context) : Prop := ∀ p ∈ c.locals, p.2.Readable T

namespace NodeSet

variable {ns a b : NodeSet} {d : Expr}

theorem readable_ofOption (n : Option Node) : (ofOption n).Readable T := by
  cases n <;> trivial

theorem readable_ofNodes (nodes : List Node) (sorted : Bool) :
    (ofNodes nodes sorted).Readable T := by
  unfold ofNodes
  split <;> trivial

theorem cursorOfExtent_ends (e : Extent) (sort : Bool) :
    Ends T G (fun _ => cursorOfExtent e sort) (Cursor.Readable T G) :=
  .ite (fun _ => Ends.checked.map fun _ _ =>
    Cursor.readable_listed _ _ _) fun _ => .pure (Cursor.readable_listed _ _ _)

theorem materializeIntent_ends (h : d.Delivers T) (id : Nat) :
    Ends T G (fun E => materializeIntent T E id d) fun _ => True := by
  refine .get fun s => ?_
  cases (s.intent id).extent with
  | some e => exact .pure trivial
  | none =>
    refine (h G false).bind fun c hc => hc.exhaustible.extent.bind fun e _ => ?_
    exact .update fun s => ⟨rfl, trivial⟩

theorem enumerateIntent_ends (h : d.Delivers T) (id : Nat) (sort : Bool) :
    Ends T G (fun E => enumerateIntent T E id d sort) (Cursor.Readable T G) := by
  refine .get fun s => ?_
  cases (s.intent id).extent with
  | some e => exact cursorOfExtent_ends e sort
  | none =>
    refine (Ends.update (Q := fun _ => True) fun s => ⟨rfl, trivial⟩).bind fun kept _ => ?_
    exact .ite (fun _ => (materializeIntent_ends h id).bind fun e _ => cursorOfExtent_ends e sort)
      fun _ => h G sort

theorem scan_ends (h : ns.Readable T) :
    Ends T G (fun E => ns.scan T E) (Cursor.Readable T G) := by
  cases ns with
  | intent id d => exact enumerateIntent_ends h id false
  | _ => exact .pure (Cursor.readable_listed _ _ _)

theorem enumerate_ends (h : ns.Readable T) :
    Ends T G (fun E => ns.enumerate T E) (Cursor.Readable T G) :=
  .ite (fun _ => scan_ends h) fun _ => .fail

theorem enumerateSorted_ends (h : ns.Readable T) (sort : Bool) :
    Ends T G (fun E => ns.enumerateSorted T E sort) (Cursor.Readable T G) := by
  cases ns with
  | intent id d => exact enumerateIntent_ends h id sort
  | extent e => exact cursorOfExtent_ends e sort
  | empty | single => exact enumerate_ends h

theorem count_ends (h : ns.Readable T) : Ends T G (fun E => ns.count T E) fun _ => True := by
  have hsorted (e : Extent) :
      Ends T G (fun _ => do return (← Action.ofExcept e.sort).nodes.length) fun _ => True :=
    Ends.checked.map fun _ _ => trivial
  cases ns with
  | empty | single => exact .pure trivial
  | extent e => exact hsorted e
  | intent id d =>
    refine .get fun s => ?_
    cases (s.intent id).extent with
    | some e => exact hsorted e
    | none =>
      refine (h G false).bind fun c hc => ?_
      refine .ite (fun _ => (Ends.lift hc.sized).bind fun p _ =>
        Ends.checked.bind fun told _ => ?_)
        fun _ => (Ends.pure (Q := fun _ => True) trivial).bind fun told _ => ?_
      all_goals
        cases told with
        | some n => exact .pure trivial
        | none => exact (materializeIntent_ends h id).bind fun e _ => hsorted e

theorem first_ends (h : ns.Readable T) : Ends T G (fun E => ns.first T E) fun _ => True := by
  cases ns with
  | empty | single => exact .pure trivial
  | extent e => exact .checked
  | intent id d =>
    refine .get fun s => ?_
    cases (s.intent id).extent with
    | some e => exact .checked
    | none =>
      refine (h G false).bind fun c hc => .ite (fun _ => hc.exhaustible.head) fun _ => ?_
      exact hc.exhaustible.extent.bind fun e _ => .checked

theorem materialize_ends (h : ns.Readable T) :
    Ends T G (fun E => ns.materialize T E) fun _ => True := by
  cases ns with
  | empty | single => exact (scan_ends h).bind fun c hc => hc.exhaustible.extent
  | extent e => exact .checked
  | intent id d =>
    exact (materializeIntent_ends h id).bind fun e _ => .checked

theorem members_ends (h : ns.Readable T) : Ends T G (fun E => ns.members T E) fun _ => True :=
  (enumerate_ends h).bind fun _ hc => hc.exhaustible.drain

theorem asString_ends (h : ns.Readable T) : Ends T G (fun E => ns.asString T E) fun _ => True :=
  (first_ends h).map fun _ _ => trivial

theorem asBoolean_ends (h : ns.Readable T) :
    Ends T G (fun E => ns.asBoolean T E) fun _ => True := by
  cases ns with
  | intent id d =>
    exact (enumerateIntent_ends h id false).bind fun c hc =>
      hc.exhaustible.head.map fun _ _ => trivial
  | _ => exact .pure trivial

theorem ofDefinition_ends (h : d.dependencies = ∅ → d.Delivers T) :
    Ends T G (fun _ => ofDefinition d) (NodeSet.Readable T) := by
  refine .ite (fun hd => ?_) fun _ => .fail
  exact .update fun s => ⟨rfl, h (eq_of_beq hd)⟩

end NodeSet

namespace Value

variable {v w : Value}

theorem readable_toValue (k : Constant) : k.toValue.Readable T := by
  cases k <;> trivial

theorem asString_ends (h : v.Readable T) : Ends T G (fun E => v.asString T E) fun _ => True := by
  cases v with
  | nodeSet ns => exact NodeSet.asString_ends h
  | _ => exact .pure trivial

theorem asNumber_ends (h : v.Readable T) : Ends T G (fun E => v.asNumber T E) fun _ => True := by
  cases v with
  | nodeSet ns => exact (NodeSet.asString_ends h).map fun _ _ => trivial
  | _ => exact .pure trivial

theorem asBoolean_ends (h : v.Readable T) : Ends T G (fun E => v.asBoolean T E) fun _ => True := by
  cases v with
  | nodeSet ns => exact NodeSet.asBoolean_ends h
  | _ => exact .pure trivial

theorem compareMembers_ends {ns : NodeSet} (h : ns.Readable T) (op : Comparison) (v : Value) :
    Ends T G (fun E => compareMembers T E ns op v) fun _ => True := by
  cases v with
  | boolean b => exact (NodeSet.asBoolean_ends h).map fun _ _ => trivial
  | number x => exact (NodeSet.scan_ends h).bind fun c hc => hc.exhaustible.find _
  | string s => exact (NodeSet.scan_ends h).bind fun c hc => hc.exhaustible.find _
  | object | nodeSet => exact .pure trivial

theorem compareNodeSets_ends {a b : NodeSet} (ha : a.Readable T) (hb : b.Readable T)
    (op : Comparison) : Ends T G (fun E => compareNodeSets T E a op b) fun _ => True := by
  refine (NodeSet.scan_ends ha).bind fun c hc => hc.exhaustible.drain.bind fun left _ => ?_
  refine .ite (fun _ => .pure trivial) fun _ => (NodeSet.scan_ends hb).bind fun d hd => ?_
  exact hd.exhaustible.drain.map fun _ _ => trivial

theorem compareScalars_ends (hv : v.Readable T) (hw : w.Readable T) (op : Comparison) :
    Ends T G (fun E => compareScalars T E v op w) fun _ => True := by
  have hbooleans : Ends T G
      (fun E => do return op.booleans (← v.asBoolean T E) (← w.asBoolean T E)) fun _ => True :=
    (asBoolean_ends hv).bind fun _ _ => (asBoolean_ends hw).map fun _ _ => trivial
  have hnumbers : Ends T G
      (fun E => do return op.numbers (← v.asNumber T E) (← w.asNumber T E)) fun _ => True :=
    (asNumber_ends hv).bind fun _ _ => (asNumber_ends hw).map fun _ _ => trivial
  have hstrings : Ends T G
      (fun E => do return op.strings (← v.asString T E) (← w.asString T E)) fun _ => True :=
    (asString_ends hv).bind fun _ _ => (asString_ends hw).map fun _ _ => trivial
  refine .ite (fun _ => ?_) fun _ => hnumbers
  cases v <;> cases w <;> first | exact hbooleans | exact hnumbers | exact hstrings

theorem compare_ends (hv : v.Readable T) (hw : w.Readable T) (op : Comparison) :
    Ends T G (fun E => v.compare T E op w) fun _ => True := by
  unfold compare
  split
  · exact compareNodeSets_ends hv hw op
  · exact compareMembers_ends hv op _
  · exact compareMembers_ends hw _ _
  · exact compareScalars_ends hv hw op

end Value

namespace Context

variable {c : Context}

theorem Readable.withFocus (h : c.Readable T) (n : Node) (position last : Nat) :
    (c.withFocus n position last).Readable T := h

theorem Readable.withNode (h : c.Readable T) (n : Node) : (c.withNode n).Readable T := h

theorem Readable.withCurrent (h : c.Readable T) (n : Node) : (c.withCurrent n).Readable T := h

theorem Readable.ambient (h : c.Readable T) : c.ambient.Readable T := h

theorem readable_onNode (n : Option Node) : (onNode n).Readable T := nofun

theorem node_ends (c : Context) : Ends T G (fun _ => c.node) fun _ => True := by
  unfold node
  cases c.node? with
  | some n => exact .pure trivial
  | none => exact .fail

theorem current_ends (c : Context) : Ends T G (fun _ => c.current) fun _ => True := by
  unfold current
  cases c.current? with
  | some n => exact .pure trivial
  | none => exact .fail

end Context

/-- Every route of evaluation of an expression ends. -/
structure Expr.Answers (T : Transformation) (G : Globals → Prop) (e : Expr) : Prop where
  value : ∀ {c : Context}, c.Readable T → Ends T G (fun E => E.value e c) (Value.Readable T)
  boolean : ∀ {c : Context}, c.Readable T → Ends T G (fun E => E.boolean e c) fun _ => True
  number : ∀ {c : Context}, c.Readable T → Ends T G (fun E => E.number e c) fun _ => True
  string : ∀ {c : Context}, c.Readable T → Ends T G (fun E => E.string e c) fun _ => True
  nodeSet : ∀ {c : Context}, c.Readable T → Ends T G (fun E => E.nodeSet e c) (NodeSet.Readable T)
  cursor : ∀ {c : Context}, c.Readable T → ∀ sort,
    Ends T G (fun E => E.cursor e c sort) (Cursor.Readable T G)

namespace Sorting

variable {c : Context} {keys : List (Expr × SortRule)}

theorem keyValues_ends (hk : ∀ k ∈ keys, k.1.Answers T G) (hc : c.Readable T) :
    Ends T G (fun E => keyValues E c keys) fun _ => True := by
  induction keys with
  | nil => exact .pure trivial
  | cons k keys ih =>
    obtain ⟨hfirst, hrest⟩ := List.forall_mem_cons.mp hk
    obtain ⟨e, rule⟩ := k
    have hvalue : Ends T G (fun E => keyValue E rule e c) fun _ => True := by
      unfold keyValue
      cases rule.type with
      | number => exact (hfirst.number hc).map fun _ _ => trivial
      | text => exact (hfirst.string hc).map fun _ _ => trivial
    exact hvalue.bind fun _ _ => (ih hrest).map fun _ _ => trivial

theorem records_ends (hk : ∀ k ∈ keys, k.1.Answers T G) (hc : c.Readable T) (last position : Nat)
    (nodes : List Node) :
    Ends T G (fun E => records E keys c last position nodes) fun _ => True := by
  induction nodes generalizing position with
  | nil => exact .pure trivial
  | cons n nodes ih =>
    exact (keyValues_ends hk ((hc.withFocus n position last).withCurrent n)).bind fun _ _ =>
      (ih (position + 1)).map fun _ _ => trivial

theorem sortNodes_ends (hk : ∀ k ∈ keys, k.1.Answers T G) (hc : c.Readable T)
    (nodes : List Node) : Ends T G (fun E => sortNodes E nodes keys c) fun _ => True :=
  (records_ends hk hc _ 1 nodes).map fun _ _ => trivial

end Sorting

namespace Function

variable {v : Value}

theorem argumentStrings_ends (h : v.Readable T) :
    Ends T G (fun E => argumentStrings T E v) fun _ => True := by
  cases v with
  | nodeSet ns => exact (NodeSet.members_ends h).map fun _ _ => trivial
  | _ => exact (Value.asString_ends h).map fun _ _ => trivial

theorem sortedSet_ends (nodes : List Node) :
    Ends T G (fun _ => sortedSet nodes) (Value.Readable T) :=
  Ends.checked.map fun _ _ => NodeSet.readable_ofNodes _ _

theorem byId_ends (h : v.Readable T) (n : Node) :
    Ends T G (fun E => byId T E v n) (Value.Readable T) :=
  (argumentStrings_ends h).bind fun _ _ => sortedSet_ends _

theorem byKey_ends {scope : Option Scope} {text : String} {c : Context} (h : v.Readable T)
    (hs : ∀ name, resolveName scope text = .ok name → ∀ value root,
      Ends T G (fun E => E.search name value root c) fun _ => True) (n : Node) :
    Ends T G (fun E => byKey T E text v scope n c) (Value.Readable T) := by
  refine (Ends.ofExcept fun _ hname => hname).bind fun name hname => .ite (fun _ => .throw)
    fun _ => (argumentStrings_ends h).bind fun values _ => ?_
  have hall : Ends T G (fun E => searchAll E name n.top c values) fun _ => True := by
    induction values with
    | nil => exact .pure trivial
    | cons s values ih => exact (hs name hname s n.top).bind fun _ _ => ih.map fun _ _ => trivial
  exact hall.bind fun _ _ => sortedSet_ends _

theorem loadDocument_ends (uri : String) :
    Ends T G (fun _ => loadDocument T uri) fun _ => True := by
  refine .get fun s => ?_
  cases s.documents.lookup uri with
  | some root => exact .pure trivial
  | none =>
    dsimp only
    cases T.resolver with
    | none => exact .throw
    | some resolver =>
      refine .bind (.modify fun _ => rfl) fun _ _ => ?_
      refine Ends.checked.bind fun root _ => ?_
      cases root with
      | none => exact .pure trivial
      | some root => exact .bind (.modify fun _ => rfl) fun _ _ => .pure trivial

theorem loadAll_ends (requests : List (String × Option String)) :
    Ends T G (fun _ => loadAll T requests) fun _ => True := by
  induction requests with
  | nil => exact .pure trivial
  | cons request requests ih =>
    refine Ends.checked.bind fun uri _ => ?_
    exact (loadDocument_ends uri).bind fun _ _ => ih.map fun _ _ => trivial

theorem documents_ends (h : v.Readable T) {baseNodes : Option NodeSet}
    (hb : ∀ ns, baseNodes = some ns → ns.Readable T) (scope : Option Scope) :
    Ends T G (fun E => documents T E v baseNodes scope) (Value.Readable T) := by
  have hload (requests : List (String × Option String)) :
      Ends T G (fun _ => do sortedSet (← loadAll T requests)) (Value.Readable T) :=
    (loadAll_ends requests).bind fun _ _ => sortedSet_ends _
  have hnodes {ns : NodeSet} (h : ns.Readable T) (explicit : Option String) :
      Ends T G (fun E => do
        let nodes ← ns.members T E
        let requests ← pure (nodes.map fun n => (n.stringValue, explicit <|> n.baseUri))
        sortedSet (← loadAll T requests)) (Value.Readable T) :=
    (NodeSet.members_ends h).bind fun _ _ =>
      (Ends.pure (Q := fun _ => True) trivial).bind fun requests _ => hload requests
  have htext {v : Value} (h : v.Readable T) (explicit : Option String) :
      Ends T G (fun E => do
        let text ← v.asString T E
        let requests ← pure [(text, explicit <|> scope.bind (·.baseUri))]
        sortedSet (← loadAll T requests)) (Value.Readable T) :=
    (Value.asString_ends h).bind fun _ _ =>
      (Ends.pure (Q := fun _ => True) trivial).bind fun requests _ => hload requests
  cases baseNodes with
  | none =>
    cases v with
    | nodeSet ns => exact hnodes h none
    | _ => exact htext h none
  | some base =>
    refine (NodeSet.first_ends (hb base rfl)).bind fun n _ => ?_
    cases v with
    | nodeSet ns => exact hnodes h (n.bind Node.baseUri)
    | _ => exact htext h (n.bind Node.baseUri)

theorem haveSameNode_ends {a b : NodeSet} (ha : a.Readable T) (hb : b.Readable T) :
    Ends T G (fun E => haveSameNode T E a b) fun _ => True :=
  (NodeSet.members_ends hb).bind fun _ _ => (NodeSet.enumerate_ends ha).bind fun _ hc =>
    hc.exhaustible.find _

theorem besideFirst_ends {a b : NodeSet} (ha : a.Readable T) (hb : b.Readable T)
    (side : Ordering) : Ends T G (fun E => besideFirst T E a b side) fun r =>
      ∀ ns, r = some ns → ns.Readable T := by
  refine (NodeSet.first_ends hb).bind fun pivot _ => ?_
  cases pivot with
  | none => exact .pure nofun
  | some pivot =>
    refine (NodeSet.materialize_ends ha).bind fun e _ => .ite (fun _ => .pure ?_) fun _ =>
      .ite (fun _ => .throw) fun _ => .pure ?_
    · rintro ns ⟨⟩
      trivial
    · rintro ns ⟨⟩
      exact NodeSet.readable_ofNodes _ _

theorem leading_ends {a b : NodeSet} (ha : a.Readable T) (hb : b.Readable T) :
    Ends T G (fun E => leading T E a b) (NodeSet.Readable T) := by
  refine (besideFirst_ends ha hb .lt).map fun r hr => ?_
  cases r with
  | none => exact ha
  | some ns => exact hr ns rfl

theorem trailing_ends {a b : NodeSet} (ha : a.Readable T) (hb : b.Readable T) :
    Ends T G (fun E => trailing T E a b) (NodeSet.Readable T) := by
  refine (besideFirst_ends ha hb .gt).map fun r hr => ?_
  cases r with
  | none => trivial
  | some ns => exact hr ns rfl

theorem sum_ends {ns : NodeSet} (h : ns.Readable T) :
    Ends T G (fun E => sum T E ns) fun _ => True :=
  (NodeSet.members_ends h).map fun _ _ => trivial

/-- A call of a key may look up the one that a literal names, or else any. -/
def Denotes (args : List Expr) (scope : Option Scope) (name : ExpandedName) : Prop :=
  match args with
  | .value (.string text) :: _ => resolveName scope text = .ok name
  | _ => True

namespace Call

variable {c : Call}

theorem focus_ends (c : Call) : Ends T G (fun _ => c.focus) fun _ => True := by
  unfold focus
  cases c.bound with
  | some n => exact .pure trivial
  | none => exact c.context.node_ends

/-- What a call evaluates and looks up is settled. -/
structure Settled (T : Transformation) (G : Globals → Prop) (c : Call) : Prop where
  args : ∀ e ∈ c.args, e.Answers T G
  context : c.context.Readable T
  keys : c.function = .key → ∀ name, Denotes c.args c.scope name → ∀ value root,
    Ends T G (fun E => E.search name value root c.context) fun _ => True

namespace Settled

variable (h : c.Settled T G)
include h

theorem arg_bind {a : Engine → Expr → Action α} {Q : α → Prop} (i : Nat)
    (ha : ∀ e, e.Answers T G → Ends T G (fun E => a E e) Q) :
    Ends T G (fun E => do a E (← c.arg i)) Q := by
  unfold arg
  cases hi : c.args[i]? with
  | none => exact .bind (P := fun _ => False) .fail nofun
  | some e => exact ha e (h.args e (List.mem_of_getElem? hi))

theorem stringArg_ends (i : Nat) : Ends T G (fun E => c.stringArg E i) fun _ => True :=
  h.arg_bind i fun _ he => he.string h.context

theorem numberArg_ends (i : Nat) : Ends T G (fun E => c.numberArg E i) fun _ => True :=
  h.arg_bind i fun _ he => he.number h.context

theorem booleanArg_ends (i : Nat) : Ends T G (fun E => c.booleanArg E i) fun _ => True :=
  h.arg_bind i fun _ he => he.boolean h.context

theorem valueArg_ends (i : Nat) : Ends T G (fun E => c.valueArg E i) (Value.Readable T) :=
  h.arg_bind i fun _ he => he.value h.context

theorem nodeSetArg_ends (i : Nat) : Ends T G (fun E => c.nodeSetArg E i) (NodeSet.Readable T) :=
  h.arg_bind i fun _ he => he.nodeSet h.context

theorem optionalArg_ends {evaluate : Engine → Expr → Context → Action α} {Q : α → Prop} (i : Nat)
    (ha : ∀ e, e.Answers T G → Ends T G (fun E => evaluate E e c.context) Q) :
    Ends T G (fun E => c.optionalArg i (evaluate E)) fun r => ∀ x, r = some x → Q x := by
  unfold optionalArg
  cases hi : c.args[i]? with
  | none => exact .pure nofun
  | some e =>
    refine (ha e (h.args e (List.mem_of_getElem? hi))).map fun x hx y hy => ?_
    exact Option.some.inj hy ▸ hx

theorem subject_ends : Ends T G (fun E => c.subject T E) fun _ => True := by
  unfold subject
  cases ha : c.args with
  | nil => exact c.focus_ends.map fun _ _ => trivial
  | cons e rest =>
    have he := h.args e (by simp [ha])
    exact (he.nodeSet h.context).bind fun _ hns => NodeSet.first_ends hns

theorem subjectString_ends : Ends T G (fun E => c.subjectString E) fun _ => True := by
  unfold subjectString
  cases ha : c.args with
  | nil => exact c.focus_ends.map fun _ _ => trivial
  | cons e rest => exact (h.args e (by simp [ha])).string h.context

end Settled

theorem joinedArgs_ends {context : Context} {es : List Expr} (hc : context.Readable T)
    (he : ∀ e ∈ es, e.Answers T G) : Ends T G (fun E => joinedArgs E context es) fun _ => True := by
  induction es with
  | nil => exact .pure trivial
  | cons e es ih =>
    obtain ⟨hfirst, hrest⟩ := List.forall_mem_cons.mp he
    exact (hfirst.string hc).bind fun _ _ => (ih hrest).map fun _ _ => trivial

theorem literal_ends (v : Value) (context : Context) :
    Ends T G (fun E => E.value (.value v) context) (· = v) :=
  .deeper (a := fun _ => Pure.pure v) (.pure rfl) fun _ => rfl

/-- The name of the key that is looked up is one that the call denotes. -/
theorem keyName_ends (h : c.Settled T G) : Ends T G (fun E => c.stringArg E 0) fun text =>
    ∀ name, resolveName c.scope text = .ok name → Denotes c.args c.scope name := by
  obtain ⟨f, args, bound, scope, context⟩ := c
  have hany (hd : ∀ name, Denotes args scope name) :
      Ends T G (fun E => stringArg ⟨f, args, bound, scope, context⟩ E 0) fun text =>
        ∀ name, resolveName scope text = .ok name → Denotes args scope name :=
    (h.stringArg_ends 0).imp fun _ _ name _ => hd name
  cases args with
  | nil => exact hany fun _ => trivial
  | cons e rest =>
    cases e with
    | value v =>
      cases v with
      | string text =>
        have hliteral : Ends T G (fun E => E.string (.value (.string text)) context) (· = text) :=
          .deeper (a := fun E => do (← E.value (.value (.string text)) context).asString T E)
            ((literal_ends _ _).bind fun _ hv => hv ▸ .pure rfl) fun _ => rfl
        exact hliteral.imp fun _ ht _ hname => ht ▸ hname
      | _ => exact hany fun _ => trivial
    | _ => exact hany fun _ => trivial

/-- What applies to the name that the first argument denotes. -/
theorem named_ends (h : c.Settled T G) {f : ExpandedName → α} {Q : α → Prop} (hf : ∀ x, Q (f x)) :
    Ends T G (fun E => do return f (← .ofExcept (resolveName c.scope (← c.stringArg E 0)))) Q :=
  (h.stringArg_ends 0).bind fun _ _ =>
    Ends.checked.map fun name _ => hf name

/-- What combines the strings of the first two arguments. -/
theorem strings_ends (h : c.Settled T G) {f : String → String → α} {Q : α → Prop}
    (hf : ∀ x y, Q (f x y)) :
    Ends T G (fun E => do return f (← c.stringArg E 0) (← c.stringArg E 1)) Q :=
  (h.stringArg_ends 0).bind fun _ _ => (h.stringArg_ends 1).map fun _ _ => hf _ _

theorem nodeSets_ends (h : c.Settled T G) {f : Engine → NodeSet → NodeSet → Action Value}
    (hf : ∀ a b, a.Readable T → b.Readable T → Ends T G (fun E => f E a b) (Value.Readable T)) :
    Ends T G (fun E => do
      let a ← c.nodeSetArg E 0
      f E a (← c.nodeSetArg E 1)) (Value.Readable T) :=
  (h.nodeSetArg_ends 0).bind fun a ha => (h.nodeSetArg_ends 1).bind fun b hb => hf a b ha hb

theorem readable_systemProperty (name : ExpandedName) : (systemProperty name).Readable T := by
  unfold systemProperty
  split
  · split <;> trivial
  · trivial

theorem run_ends (h : c.Settled T G) : Ends T G (fun E => c.run T E) (Value.Readable T) := by
  obtain ⟨f, args, bound, scope, context⟩ := c
  cases f with
  | last | position | true | false => exact .pure trivial
  | count =>
    exact (h.nodeSetArg_ends 0).bind fun _ hns => (NodeSet.count_ends hns).map fun _ _ => trivial
  | current => exact context.current_ends.map fun n _ => NodeSet.readable_ofOption (T := T) (some n)
  | id =>
    exact (h.valueArg_ends 0).bind fun v hv => (focus_ends _).bind fun n _ => byId_ends hv n
  | key =>
    refine (keyName_ends h).bind fun text ht => (h.valueArg_ends 1).bind fun v hv => ?_
    exact (focus_ends _).bind fun n _ =>
      byKey_ends hv (fun name hname => h.keys rfl name (ht name hname)) n
  | document =>
    refine (h.valueArg_ends 0).bind fun v hv => ?_
    exact (h.optionalArg_ends 1 fun _ he => he.nodeSet h.context).bind fun _ hb =>
      documents_ends hv hb scope
  | localName | namespaceUri | name | generateId => exact h.subject_ends.map fun _ _ => trivial
  | not | boolean => exact (h.booleanArg_ends 0).map fun _ _ => trivial
  | lang => exact (h.stringArg_ends 0).bind fun _ _ => (focus_ends _).map fun _ _ => trivial
  | number =>
    cases args with
    | nil => exact (focus_ends _).map fun _ _ => trivial
    | cons e rest => exact ((h.args e (.head _)).number h.context).map fun _ _ => trivial
  | floor | ceiling | round => exact (h.numberArg_ends 0).map fun _ _ => trivial
  | sum =>
    exact (h.nodeSetArg_ends 0).bind fun _ hns => (sum_ends hns).map fun _ _ => trivial
  | string | stringLength | normalizeSpace => exact h.subjectString_ends.map fun _ _ => trivial
  | startsWith | contains | substringBefore | substringAfter =>
    exact strings_ends h fun _ _ => trivial
  | substring =>
    refine (h.stringArg_ends 0).bind fun _ _ => (h.numberArg_ends 1).bind fun _ _ => ?_
    exact (h.optionalArg_ends 2 fun _ he => he.number h.context).map fun _ _ => trivial
  | translate =>
    exact (h.stringArg_ends 0).bind fun _ _ => (h.stringArg_ends 1).bind fun _ _ =>
      (h.stringArg_ends 2).map fun _ _ => trivial
  | concat => exact (joinedArgs_ends h.context h.args).map fun _ _ => trivial
  | formatNumber =>
    refine (h.numberArg_ends 0).bind fun _ _ => (h.stringArg_ends 1).bind fun _ _ => ?_
    refine (h.optionalArg_ends 2 fun _ he => he.string h.context).bind fun _ _ => ?_
    exact Ends.checked.map fun _ _ => trivial
  | systemProperty => exact named_ends h readable_systemProperty
  | functionAvailable | elementAvailable => exact named_ends h fun _ => trivial
  | unparsedEntityUri =>
    exact (focus_ends _).bind fun _ _ => (h.stringArg_ends 0).map fun _ _ => trivial
  | hasSameNode =>
    exact nodeSets_ends h fun a b ha hb => (haveSameNode_ends ha hb).map fun _ _ => trivial
  | leading => exact nodeSets_ends h fun a b ha hb => (leading_ends ha hb).map fun _ hns => hns
  | trailing => exact nodeSets_ends h fun a b ha hb => (trailing_ends ha hb).map fun _ hns => hns

end Call

end Function

end PathLanguage
