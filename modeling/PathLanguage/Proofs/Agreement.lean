/- Dependencies tell all that an evaluation reads of its context: in two contexts that agree on them an
expression comes to the same result. -/
import PathLanguage.Proofs.Agreement.Pattern
import PathLanguage.Proofs.Agreement.Reduction
import PathLanguage.Proofs.Tree.Forest

namespace PathLanguage

open Dependencies

theorem engine_steady {T : Transformation} (hh : T.HostsReadFocus) (hk : T.KeysClosed)
    (depth : Nat) : (engine T depth).Steady T := by
  induction depth with
  | zero =>
    exact {
      value _ := .fail _
      boolean _ := .fail _
      number _ := .fail _
      string _ := .fail _
      nodeSet _ := .fail _
      cursor _ _ := .fail _
      reduce _ _ _ := .fail _
      next h := .pure ⟨rfl, h⟩
      size h := .pure ⟨rfl, h⟩
      drain _ := .fail _
      find _ _ := .fail _
      search _ _ _ _ := .fail _ }
  | succ n ih =>
    have hw := engine_reducesWithin T n
    exact {
      value h := Expr.evaluate_inStep hh ih h
      boolean h := Expr.evaluateBoolean_inStep ih h
      number h := Expr.evaluateNumber_inStep ih h
      string h := Expr.evaluateString_inStep ih h
      nodeSet h := Expr.evaluateNodeSet_inStep ih hw h
      cursor sort h := Expr.enumerate_inStep ih h sort
      reduce _ ha hc := Expr.reduce_inStep ih hw ha hc
      next h := Cursor.next_inStep ih h
      size h := Cursor.size_inStep ih h
      drain h := Cursor.drain_inStep ih h
      find test h := Cursor.find_inStep ih test h
      search name value root hc := Key.search_inStep hk ih hc name value root }

/-- Two contexts agree on the named parts. -/
structure Context.AgreeOn (d : Dependencies) (c c' : Context) : Prop where
  bindings : d.bindings = true → ∀ name, c.locals.lookup name = c'.locals.lookup name
  currentNode : d.currentNode = true → c.current? = c'.current?
  contextNode : d.contextNode = true → c.node? = c'.node?
  position : d.position = true → c.position = c'.position
  last : d.last = true → c.last = c'.last
  contextDocument : d.contextDocument = true → c.node?.map Node.top = c'.node?.map Node.top

/-- Key definitions as they are declared: their patterns are read from texts. -/
def Transformation.KeysRead (T : Transformation) : Prop :=
  ∀ d ∈ T.keys, ∃ scope text, Pattern.parse scope text = .ok d.pattern

/-- No variable that a key definition refers to is a local one of the context. -/
def Transformation.KeysReadNoLocals (T : Transformation) (c : Context) : Prop :=
  ∀ v ∈ T.keyVariables, c.locals.lookup v = .none

/-- All nodes of a node-set, also of one that may not be navigated. -/
def NodeSet.contents (T : Transformation) (E : Engine) (ns : NodeSet) : Action (List Node) := do
  E.drain (← ns.scan T E)

/-- What two sessions show of two values is the same: of node-sets, the nodes. -/
inductive Value.ShowSame (T : Transformation) (s s' : Session) : Value → Value → Prop
  | string (t : String) : Value.ShowSame T s s' (.string t) (.string t)
  | number (n : Number) : Value.ShowSame T s s' (.number n) (.number n)
  | boolean (b : Bool) : Value.ShowSame T s s' (.boolean b) (.boolean b)
  | object (t : String) : Value.ShowSame T s s' (.object t) (.object t)
  | nodeSet {ns ns' : NodeSet} : ns.isNavigable = ns'.isNavigable →
      (∀ depth, ((ns.contents T (engine T depth)).attempt.run s).1 =
        ((ns'.contents T (engine T depth)).attempt.run s').1) →
      Value.ShowSame T s s' (.nodeSet ns) (.nodeSet ns')

/-- All nodes that an expression enumerates, in document order if so asked. -/
def Expr.selected (E : Engine) (e : Expr) (c : Context) (sort : Bool) : Action (List Node) := do
  E.drain (← E.cursor e c sort)

/-- Started in one session with two contexts, an expression has the same value or fails with the same
fault, by each way of evaluation. -/
structure Expr.SameResults (T : Transformation) (E : Engine) (s : Session) (e : Expr)
    (c c' : Context) : Prop where
  value : Outcomes
    (Value.ShowSame T ((E.value e c).attempt.run s).2 ((E.value e c').attempt.run s).2)
    ((E.value e c).attempt.run s).1 ((E.value e c').attempt.run s).1
  string : ((E.string e c).attempt.run s).1 = ((E.string e c').attempt.run s).1
  number : ((E.number e c).attempt.run s).1 = ((E.number e c').attempt.run s).1
  boolean : ((E.boolean e c).attempt.run s).1 = ((E.boolean e c').attempt.run s).1
  nodes : ∀ sort, ((e.selected E c sort).attempt.run s).1 = ((e.selected E c' sort).attempt.run s).1

/-- What is in two parts without bindings is in neither of them. -/
theorem Dependencies.union_bindings {a b : Dependencies} (h : (a ∪ b).bindings = false) :
    a.bindings = false ∧ b.bindings = false :=
  Bool.or_eq_false_iff.mp h

theorem Dependencies.fixed_bindings {a b d : Dependencies} (hd : d.bindings = true)
    (h : (a ∪ (b ∩ d)).bindings = false) : a.bindings = false ∧ b.bindings = false := by
  obtain ⟨ha, hb⟩ := union_bindings h
  refine ⟨ha, ?_⟩
  rcases Bool.and_eq_false_iff.mp hb with hb | hb
  · exact hb
  · exact absurd hd (by simp [hb])

mutual

/-- What depends on no bindings looks up no variables. -/
theorem Expr.variables_eq_nil : ∀ {e : Expr}, e.dependencies.bindings = false → e.variables = []
  | .value _, _ => by rw [Expr.variables]
  | .root, _ | .contextNode, _ | .parentNode, _ | .currentNode, _ | .attribute _, _ | .axis .., _
  | .positionRange .., _ | .isLast _, _ | .failure _, _ => rfl
  | .path _ _ _ _, h => by
    obtain ⟨hs, hp⟩ := fixed_bindings rfl h
    rw [Expr.variables, Expr.variables_eq_nil hs, variablesOfAll_eq_nil hp]
    rfl
  | .filter _ _, h => by
    obtain ⟨hb, hp⟩ := fixed_bindings rfl h
    rw [Expr.variables, Expr.variables_eq_nil hb, Expr.variables_eq_nil hp]
    rfl
  | .distinctBy _ _, h => by
    obtain ⟨hb, hp⟩ := fixed_bindings rfl h
    rw [Expr.variables, Expr.variables_eq_nil hb, Expr.variables_eq_nil hp]
    rfl
  | .sorted _ _ _, h => by
    obtain ⟨hb, hk⟩ := fixed_bindings rfl h
    rw [Expr.variables, Expr.variables_eq_nil hb, variablesOfAll_eq_nil hk]
    rfl
  | .set _ _ _, h | .logical _ _ _, h | .compare _ _ _, h | .arithmetic _ _ _, h => by
    obtain ⟨hl, hr⟩ := union_bindings h
    rw [Expr.variables, Expr.variables_eq_nil hl, Expr.variables_eq_nil hr]
    rfl
  | .distinct _, h => by
    rw [Expr.variables]
    exact Expr.variables_eq_nil h
  | .compareNode _ _ _, h | .compareNodes _ _ _, h | .negate _, h => by
    rw [Expr.variables]
    exact Expr.variables_eq_nil h
  | .call _ _ _ _, h => by
    rw [Expr.variables]
    exact variablesOfAll_eq_nil (union_bindings h).2
  | .extension _ _, h => by
    rw [Expr.variables]
    exact variablesOfAll_eq_nil (union_bindings h).2
  | .template _, h => by
    rw [Expr.variables]
    exact variablesOfAll_eq_nil h
  | .reference b, h => by
    rw [Expr.dependencies] at h
    rw [Expr.variables]
    split at h
    · exact if_pos ‹_›
    · cases h

theorem variablesOfAll_eq_nil : ∀ {es : List Expr}, (dependenciesOfAll es).bindings = false →
    variablesOfAll es = []
  | [], _ => rfl
  | _ :: _, h => by
    obtain ⟨he, hes⟩ := union_bindings h
    rw [variablesOfAll, Expr.variables_eq_nil he, variablesOfAll_eq_nil hes]
    rfl

end

section

variable {T : Transformation} {E : Engine} {e : Expr} {c c' : Context} {s s' : Session}

theorem Context.AgreeOn.ask (h : c.AgreeOn e.dependencies c') (hc : T.KeysReadNoLocals c)
    (hc' : T.KeysReadNoLocals c') : AskAlike T e e c c' where
  alike := .refl e
  agrees := {
    locals v hv := by
      rcases hv with hv | hv
      · refine h.bindings ?_ v
        by_contra hb
        rw [Bool.not_eq_true] at hb
        rw [Expr.variables_eq_nil hb] at hv
        cases hv
      · rw [hc v hv, hc' v hv]
    current := h.currentNode
    node := h.contextNode
    position := h.position
    last := h.last
    document hd := by
      have ht := h.contextDocument hd
      generalize c.node? = n, c'.node? = n' at ht ⊢
      match n, n', ht with
      | .none, .none, _ => rfl
      | .some n, .some n', ht => exact congrArg some (Node.root.inj (Option.some.inj ht)) }

theorem Transformation.KeysRead.closed (h : T.KeysRead) : T.KeysClosed := by
  intro d hd
  obtain ⟨scope, text, hp⟩ := h d hd
  exact Pattern.parse_closed hp

theorem Value.Alike.showSame (hh : T.HostsReadFocus) (hk : T.KeysClosed) {v v' : Value}
    (h : v.Alike v') (hs : s.Alike s') : v.ShowSame T s s' v' := by
  cases h with
  | string t => exact .string t
  | number n => exact .number n
  | boolean b => exact .boolean b
  | object t => exact .object t
  | nodeSet h =>
    refine .nodeSet h.isNavigable fun depth => ?_
    have hE := engine_steady hh hk depth
    have hstep : Action.InStep Eq (NodeSet.contents T (engine T depth) _)
        (NodeSet.contents T (engine T depth) _) :=
      (NodeSet.scan_inStep hE h).bind fun _ _ hk => hE.drain hk
    exact (hstep s s' hs).1.eq

/-- Dependencies are sound: where two contexts agree on them, an expression has the same value in
both, or fails in both. -/
theorem Expr.dependencies_sound (hh : T.HostsReadFocus) (hk : T.KeysRead)
    (h : c.AgreeOn e.dependencies c') (hc : T.KeysReadNoLocals c) (hc' : T.KeysReadNoLocals c')
    (depth : Nat) (s : Session) : e.SameResults T (engine T depth) s c c' := by
  have hE := engine_steady hh hk.closed depth
  have ha := h.ask hc hc'
  have hs := Session.Alike.refl s
  exact {
    value := by
      obtain ⟨hv, ht⟩ := hE.value ha s s hs
      exact hv.imp fun _ _ hv => hv.showSame hh hk.closed ht
    string := (hE.string ha s s hs).1.eq
    number := (hE.number ha s s hs).1.eq
    boolean := (hE.boolean ha s s hs).1.eq
    nodes sort := by
      have hstep := (hE.cursor sort ha).bind fun _ _ hk => hE.drain hk
      exact (hstep s s hs).1.eq }

/-- What a key finds in a document stays the same when the focus moves within the document, whatever
host functions are called for the nodes found. -/
theorem Expr.dependencies_sound_key : ∃ (T : Transformation) (e : Expr) (c c' : Context),
    c.node? ≠ c'.node? ∧ c.position ≠ c'.position ∧ c.locals ≠ [] ∧ T.keyVariables ≠ [] ∧
    e.dependencies = { controller := true, contextDocument := true } ∧ T.HostsReadFocus ∧
    T.KeysRead ∧ c.AgreeOn e.dependencies c' ∧ T.KeysReadNoLocals c ∧ T.KeysReadNoLocals c' ∧
    ∀ depth s, e.SameResults T (engine T depth) s c c' := by
  let whereabouts : HostFunction := fun k _ => return .number (.ofNat k.context.position)
  let global : Binding := { name := .unqualified "g", isGlobal := true }
  let T : Transformation := {
    functions := FunctionLibrary.register {} (.unqualified "at") 0 (some 0) whereabouts
    keys := [⟨.unqualified "k", .test (.named .element (.unqualified "e")), .reference global⟩] }
  let e : Expr := .filter (.call .key [.value (.string "k"), .value (.string "v")] .none .none)
    (.compare .equal (.extension (.unqualified "at") []) (.value (.number 1)))
  let c : Context :=
    { Context.onNode (some (.child (.root .pair) 0 (.text "t"))) with
      locals := [(.unqualified "b", .boolean true)] }
  let c' : Context := { Context.onNode (some (.root .pair)) with position := 2, last := 3 }
  have hh : T.HostsReadFocus := by
    intro o ho
    obtain rfl := List.mem_singleton.mp ho
    intro k k' vs vs' hk _
    exact .pure (by rw [hk.position]; exact .refl _)
  have hk : T.KeysRead := by
    intro d hd
    obtain rfl := List.mem_singleton.mp hd
    exact ⟨.standalone, "e", rfl⟩
  have h : c.AgreeOn e.dependencies c' :=
    ⟨nofun, nofun, nofun, nofun, nofun, fun _ => rfl⟩
  have hc : T.KeysReadNoLocals c := by
    intro v hv
    obtain rfl := List.mem_singleton.mp hv
    rfl
  have hc' : T.KeysReadNoLocals c' := fun _ _ => rfl
  refine ⟨T, e, c, c', nofun, nofun, nofun, nofun, rfl, hh, hk, h, hc, hc', fun depth s => ?_⟩
  exact Expr.dependencies_sound hh hk h hc hc' depth s

end

end PathLanguage
