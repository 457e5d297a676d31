/- Evaluations end, by every route, if the variables, host functions and keys that are used are
settled: those of an expression by what its lighter parts and its reduced form come to. -/
import PathLanguage.Proofs.Reduction
import PathLanguage.Proofs.Simplification.CurrentNode
import PathLanguage.Proofs.Termination.Function

namespace PathLanguage

variable {T : Transformation} {G : Globals → Prop}

/-- What expressions may use beside their context: the variables and host functions or not, and
some of the keys. -/
structure Allowance where
  outside : Prop
  key : ExpandedName → Prop

def Allowance.nothing : Allowance := ⟨False, fun _ => False⟩

variable {A : Allowance}

/-- What is allowed is settled. -/
structure Provided (T : Transformation) (G : Globals → Prop) (A : Allowance) : Prop where
  global : A.outside → ∀ name, Ends T G (fun E => globalValue T E name) (Value.Readable T)
  host : A.outside → ∀ name args c, (∀ v ∈ args, v.Readable T) → Context.Readable T c →
    Ends T G (fun E => Expr.callHost T E name args c) (Value.Readable T)
  key : ∀ name, A.key name → ∀ value root c, Context.Readable T c →
    Ends T G (fun E => E.search name value root c) fun _ => True

theorem provided_nothing : Provided T G .nothing where
  global := False.elim
  host := False.elim
  key _ := False.elim

/-- What every engine returns holds of what an evaluation ends in. -/
theorem Ends.returns {α : Type} {a : Engine → Action α} {P Q : α → Prop} (h : Ends T G a P)
    (ha : ∀ n, Returns (a (engine T n)) Q) : Ends T G a fun x => P x ∧ Q x := by
  intro s hs
  obtain ⟨r, t, ⟨d, hd⟩, ht, hr⟩ := h s hs
  refine ⟨r, t, ⟨d, hd⟩, ht, fun x hx => ⟨hr x hx, ?_⟩⟩
  have hrun := hd .exhausted d (Nat.le_refl d)
  rw [engineOver_exhausted, hx] at hrun
  exact ha d s x (congrArg Prod.fst hrun)

namespace Expr

variable {e k l r : Expr} {c : Context} {w : Nat}

/-- What an expression uses by itself, its parts left out, is allowed. -/
def Admitted (T : Transformation) (A : Allowance) : Expr → Prop
  | .value v | .compareNode _ _ v | .compareNodes _ _ v => v.Readable T
  | .call f args _ scope => f = .key → ∀ name, Function.Denotes args scope name → A.key name
  | .extension .. => A.outside
  | .reference b => b.constant = none → b.isGlobal = true → A.outside
  | _ => True

/-- All that an expression uses is allowed. -/
inductive Within (T : Transformation) (A : Allowance) : Expr → Prop
  | intro {e : Expr} : e.Admitted T A → (∀ k ∈ e.children, k.Within T A) → e.Within T A

namespace Within

theorem admitted (h : e.Within T A) : e.Admitted T A := by
  obtain ⟨h, -⟩ := h
  exact h

theorem children (h : e.Within T A) : ∀ k ∈ e.children, k.Within T A := by
  obtain ⟨-, h⟩ := h
  exact h

end Within

theorem has_dependenciesOfAll {es : List Expr} {p : Dependencies.Part} (hk : k ∈ es)
    (h : k.dependencies.has p = true) : (dependenciesOfAll es).has p = true := by
  induction es with
  | nil => cases hk
  | cons e es ih =>
    rw [dependenciesOfAll, Dependencies.has_union, Bool.or_eq_true]
    obtain rfl | hk := List.mem_cons.mp hk
    · exact .inl h
    · exact .inr (ih hk)

/-- What stays fixed for all parts of an expression it depends on with them. -/
theorem has_of_child {p : Dependencies.Part} (hk : k ∈ e.children)
    (hp : Dependencies.fixedInSortKeys.has p = true) (h : k.dependencies.has p = true) :
    e.dependencies.has p = true := by
  have hfixed : Dependencies.fixedInPredicates.has p = true := by cases p <;> first | rfl | cases hp
  cases e with
  | path start along test predicates =>
    simp only [dependencies, Dependencies.has_union, Dependencies.has_inter, hfixed, Bool.and_true,
      Bool.or_eq_true]
    obtain rfl | hk := List.mem_cons.mp hk
    · exact .inl h
    · exact .inr (has_dependenciesOfAll hk h)
  | sorted base keys rules =>
    simp only [dependencies, Dependencies.has_union, Dependencies.has_inter, hp, Bool.and_true,
      Bool.or_eq_true]
    obtain rfl | hk := List.mem_cons.mp hk
    · exact .inl h
    · exact .inr (has_dependenciesOfAll hk h)
  | call f args bound scope =>
    simp only [dependencies, Dependencies.has_union, Bool.or_eq_true]
    exact .inr (has_dependenciesOfAll hk h)
  | extension name args =>
    simp only [dependencies, Dependencies.has_union, Bool.or_eq_true]
    exact .inr (has_dependenciesOfAll hk h)
  | template parts => exact has_dependenciesOfAll hk h
  | filter | set | distinct | distinctBy | logical | compare | arithmetic | compareNode
  | compareNodes | negate =>
    simp only [children, List.mem_cons, List.not_mem_nil, or_false] at hk
    simp only [dependencies, Dependencies.has_union, Dependencies.has_inter, hfixed, Bool.and_true,
      Bool.or_eq_true]
    grind
  | _ => cases hk

/-- An expression that depends on no variable and on nothing the host provides uses nothing. -/
theorem Within.nothing (h : e.Within T A) (hd : e.dependencies = ∅) : e.Within T .nothing := by
  have hfree (p : Dependencies.Part) (hp : Dependencies.fixedInSortKeys.has p = true) :
      e.dependencies.has p ≠ true := by
    rw [hd, Dependencies.has_empty]
    nofun
  clear hd
  induction h with
  | @intro e ha hk ih =>
    refine .intro ?_ fun k hk => ih k hk fun p hp h => hfree p hp (has_of_child hk hp h)
    have hbindings := hfree .bindings rfl
    have hcontroller := hfree .controller rfl
    cases e with
    | call f args bound scope =>
      rintro rfl
      refine absurd ?_ hcontroller
      cases bound <;> rfl
    | extension name args => exact absurd rfl hcontroller
    | reference b =>
      intro hc
      refine absurd ?_ hbindings
      rw [dependencies, hc]
      rfl
    | value | compareNode | compareNodes => exact ha
    | _ => trivial

theorem callSettled {f : SystemFunction} {args : List Expr} {bound : Option Node}
    {scope : Option Scope} (hP : Provided T G A) (ha : (Expr.call f args bound scope).Admitted T A)
    (hp : ∀ k ∈ args, k.Answers T G) (hc : c.Readable T) :
    Function.Call.Settled T G ⟨f, args, bound, scope, c⟩ :=
  ⟨hp, hc, fun hf name hn value root => hP.key name (ha hf name hn) value root c hc⟩

section routes

theorem boolean_literal_ends {v : Value} (hv : v.Readable T) (c : Context) :
    Ends T G (fun E => E.boolean (.value v) c) fun _ => True :=
  .deeper (a := fun E => do (← E.value (.value v) c).asBoolean T E)
    ((Function.Call.literal_ends v c).bind fun _ hw => hw ▸ Value.asBoolean_ends hv) fun _ => rfl

/-- A predicate whose evaluation ends decides on every node. -/
theorem Answers.decides (h : e.Answers T G) (hc : c.Readable T) (strategy : Strategy)
    (usesLast stops : Bool) : Cursor.Decides T G ⟨e, c.ambient, strategy, usesLast, stops⟩ := by
  intro n position last
  have hfocus := hc.ambient.withFocus n position last
  cases strategy with
  | positions least most => exact .pure trivial
  | numeric => exact (h.number hfocus).map fun _ _ => trivial
  | boolean => exact h.boolean hfocus
  | general =>
    refine (h.value hfocus).bind fun v hv => ?_
    cases v with
    | number x => exact .pure trivial
    | _ => exact boolean_literal_ends hv _

theorem Answers.tellsKey (h : e.Answers T G) (hc : c.Readable T) :
    Cursor.TellsKey T G (some (e, c.ambient)) := by
  intro n
  exact h.string (hc.ambient.withNode n)

theorem pathCursor_ends {start : Expr} {plan : StepPlan} (h : start.Answers T G)
    (hp : ∀ p ∈ plan.predicates, p.Answers T G) (hc : c.Readable T) :
    Ends T G (fun E => pathCursor E start plan c) (Cursor.Readable T G) := by
  refine (h.cursor hc true).bind fun starts hs => ?_
  have hsteps (sorted : Bool) :
      (Cursor.steps starts plan c.ambient .empty sorted).Exhaustible T G :=
    Cursor.exhaustible_steps (Cursor.exhaustible_ofStep fun p hm strategy usesLast =>
      (hp p hm).decides hc.ambient strategy usesLast false) hs.exhaustible
      (Cursor.exhaustible_listed _ _ _)
  refine .ite (fun _ => .pure ((hsteps true).readable rfl)) fun _ => ?_
  refine (hsteps false).extent.bind fun e _ => ?_
  exact Ends.checked.map fun _ _ => Cursor.readable_listed _ _ _

theorem cursorFrom_ends {x : Cursor} (h : x.Readable T G) (sort : Bool) :
    Ends T G (fun E => cursorFrom E sort x) (Cursor.Readable T G) :=
  .ite (fun _ => h.sortedCursor) fun _ => .pure h

/-- A node-set expression is enumerated if its parts are evaluated. -/
theorem enumerate_ends (he : e.isNodeSetExpr = true) (hp : ∀ k ∈ e.children, k.Answers T G)
    (hc : c.Readable T) (sort : Bool) :
    Ends T G (fun E => E.cursor e c sort) (Cursor.Readable T G) := by
  refine .deeper (a := fun E => e.enumerate T E c sort) ?_ fun _ => rfl
  have hnode (f : Node → Cursor) (hf : ∀ n, (f n).Readable T G) :
      Ends T G (fun _ => do return f (← c.node)) (Cursor.Readable T G) :=
    c.node_ends.map fun n _ => hf n
  cases e with
  | root => exact hnode _ fun _ => Cursor.readable_listed _ _ _
  | contextNode => exact hnode _ fun _ => Cursor.readable_listed _ _ _
  | parentNode => exact hnode _ fun _ => Cursor.readable_listed _ _ _
  | currentNode => exact c.current_ends.map fun _ _ => Cursor.readable_listed _ _ _
  | «attribute» name => exact hnode _ fun _ => Cursor.readable_listed _ _ _
  | axis along test origin =>
    have hfrom (n : Node) := cursorFrom_ends (T := T) (G := G)
      (x := .onAxis n along test) (Cursor.readable_listed _ _ _) sort
    cases origin with
    | some n => exact hfrom n
    | none => exact c.node_ends.bind fun n _ => hfrom n
  | path start along test predicates =>
    obtain ⟨hstart, hpredicates⟩ := List.forall_mem_cons.mp hp
    exact pathCursor_ends hstart hpredicates hc
  | filter base predicate =>
    obtain ⟨hbase, hpredicate⟩ := List.forall_mem_cons.mp hp
    refine (hbase.cursor hc _).map fun x hx => ?_
    exact (Cursor.exhaustible_select hx.exhaustible fun strategy usesLast =>
      (List.forall_mem_singleton.mp hpredicate).decides hc strategy usesLast false).readable rfl
  | set op l r =>
    obtain ⟨hl, hr⟩ := List.forall_mem_cons.mp hp
    refine (hl.cursor hc true).bind fun x hx => ?_
    exact ((List.forall_mem_singleton.mp hr).cursor hc true).bind fun y hy =>
      Cursor.startMerge_ends op hx hy
  | distinct base =>
    refine ((List.forall_mem_singleton.mp hp).cursor hc true).bind fun x hx => ?_
    exact Cursor.startDistinct_ends hx fun n => .pure trivial
  | distinctBy base key =>
    obtain ⟨hbase, hkey⟩ := List.forall_mem_cons.mp hp
    refine (hbase.cursor hc true).bind fun x hx => ?_
    exact Cursor.startDistinct_ends hx ((List.forall_mem_singleton.mp hkey).tellsKey hc)
  | sorted base keys rules =>
    obtain ⟨hbase, hkeys⟩ := List.forall_mem_cons.mp hp
    refine (hbase.cursor hc true).bind fun x hx => hx.exhaustible.drain.bind fun nodes _ => ?_
    refine (Sorting.sortNodes_ends (fun k hk => hkeys _ (List.of_mem_zip hk).1) hc nodes).bind
      fun nodes _ => .ite (fun _ => ?_) fun _ => .pure (Cursor.readable_listed _ _ _)
    exact Ends.checked.map fun _ _ => Cursor.readable_listed _ _ _
  | _ => cases he

/-- The operations that come to a truth value at once. -/
def isTest : Expr → Bool
  | .logical .. | .compare .. | .compareNode .. | .compareNodes .. | .positionRange ..
  | .isLast _ => true
  | _ => false

theorem test_ends (he : e.isTest = true) (ha : e.Admitted T A)
    (hp : ∀ k ∈ e.children, k.Answers T G) (hc : c.Readable T) :
    Ends T G (fun E => E.boolean e c) fun _ => True := by
  refine .deeper (a := fun E => e.evaluateBoolean T E c) ?_ fun _ => rfl
  cases e with
  | logical op l r =>
    obtain ⟨hl, hr⟩ := List.forall_mem_cons.mp hp
    have hr := (List.forall_mem_singleton.mp hr).boolean hc
    cases op with
    | and => exact (hl.boolean hc).bind fun _ _ => .ite (fun _ => hr) fun _ => .pure trivial
    | or => exact (hl.boolean hc).bind fun _ _ => .ite (fun _ => .pure trivial) fun _ => hr
  | compare op l r =>
    obtain ⟨hl, hr⟩ := List.forall_mem_cons.mp hp
    refine (hl.value hc).bind fun x hx => ?_
    exact ((List.forall_mem_singleton.mp hr).value hc).bind fun y hy => Value.compare_ends hx hy op
  | compareNode op node scalar =>
    refine ((List.forall_mem_singleton.mp hp).nodeSet hc).bind fun ns hns => ?_
    refine (NodeSet.first_ends hns).bind fun n _ => ?_
    cases n with
    | none => exact .pure trivial
    | some n => exact Value.compare_ends (v := .string _) trivial ha op
  | compareNodes op nodes scalar =>
    exact ((List.forall_mem_singleton.mp hp).nodeSet hc).bind fun ns hns =>
      Value.compare_ends (v := .nodeSet ns) hns ha op
  | positionRange | isLast => exact .pure trivial
  | _ => cases he

/-- The operations that come to a number at once. -/
def isSum : Expr → Bool
  | .arithmetic .. | .negate _ => true
  | _ => false

theorem sum_ends (he : e.isSum = true) (hp : ∀ k ∈ e.children, k.Answers T G)
    (hc : c.Readable T) : Ends T G (fun E => E.number e c) fun _ => True := by
  refine .deeper (a := fun E => e.evaluateNumber T E c) ?_ fun _ => rfl
  cases e with
  | arithmetic op l r =>
    obtain ⟨hl, hr⟩ := List.forall_mem_cons.mp hp
    exact (hl.number hc).bind fun _ _ =>
      ((List.forall_mem_singleton.mp hr).number hc).map fun _ _ => trivial
  | negate operand => exact ((List.forall_mem_singleton.mp hp).number hc).map fun _ _ => trivial
  | _ => cases he

theorem template_ends {parts : List Expr} (hp : ∀ k ∈ parts, k.Answers T G) (hc : c.Readable T) :
    Ends T G (fun E => E.string (.template parts) c) fun _ => True :=
  .deeper (a := fun E => Function.Call.joinedArgs E c parts)
    (Function.Call.joinedArgs_ends hc hp) fun _ => rfl

theorem values_ends {es : List Expr} (hp : ∀ k ∈ es, k.Answers T G) (hc : c.Readable T) :
    Ends T G (fun E => values E c es) fun vs => ∀ v ∈ vs, v.Readable T := by
  induction es with
  | nil => exact .pure (List.forall_mem_nil _)
  | cons e es ih =>
    obtain ⟨he, hes⟩ := List.forall_mem_cons.mp hp
    exact (he.value hc).bind fun v hv => (ih hes).map fun vs hvs =>
      List.forall_mem_cons.mpr ⟨hv, hvs⟩

theorem valueOf_ends {b : Binding} (hP : Provided T G A)
    (hb : b.isGlobal = true → A.outside) (hc : c.Readable T) :
    Ends T G (fun E => c.valueOf T E b) (Value.Readable T) := by
  unfold Context.valueOf
  cases hl : c.locals.lookup b.name with
  | some v =>
    obtain ⟨before, after, he, -⟩ := List.lookup_eq_some_iff.mp hl
    exact .pure (hc (b.name, v) (by simp [he]))
  | none => exact .ite (fun hg => hP.global (hb hg) b.name) fun _ => .fail

/-- The value of an expression that delivers no nodes one by one. -/
theorem value_ends (hP : Provided T G A) (he : e.isNodeSetExpr = false) (ha : e.Admitted T A)
    (hp : ∀ k ∈ e.children, k.Answers T G) (hc : c.Readable T) :
    Ends T G (fun E => E.value e c) (Value.Readable T) := by
  refine .deeper (a := fun E => e.evaluate T E c) ?_ fun _ => rfl
  cases e with
  | value v => exact .pure ha
  | logical | compare | compareNode | compareNodes | positionRange | isLast =>
    exact (test_ends rfl ha hp hc).map fun _ _ => trivial
  | arithmetic | negate => exact (sum_ends rfl hp hc).map fun _ _ => trivial
  | call f args bound scope => exact Function.Call.run_ends (callSettled hP ha hp hc)
  | extension name args =>
    exact (values_ends hp hc).bind fun vs hvs => hP.host ha name vs c hvs hc
  | reference b =>
    dsimp only [evaluate]
    cases hb : b.constant with
    | some k => exact .pure (Value.readable_toValue k)
    | none => exact valueOf_ends hP (ha hb) hc
  | template parts => exact (template_ends hp hc).map fun _ _ => trivial
  | failure f => exact .throw
  | _ => cases he

/-- Every route of evaluation of such an expression. -/
theorem answers (hP : Provided T G A) (he : e.isNodeSetExpr = false) (ha : e.Admitted T A)
    (hp : ∀ k ∈ e.children, k.Answers T G) : e.Answers T G := by
  have hvalue {c : Context} (hc : c.Readable T) := value_ends hP he ha hp hc
  have hnodeSet {c : Context} (hc : c.Readable T) :
      Ends T G (fun E => E.nodeSet e c) (NodeSet.Readable T) := by
    have hof (v : Value) (hv : v.Readable T) :
        Ends T G (fun _ => nodeSetOf v) (NodeSet.Readable T) := by
      cases v with
      | nodeSet ns => exact .pure hv
      | _ => exact .fail
    refine .deeper (a := fun E => e.evaluateNodeSet E c) ?_ fun _ => rfl
    cases e with
    | value v => exact hof v ha
    | logical | compare | compareNode | compareNodes | positionRange | isLast | arithmetic | negate
    | call | extension | reference | template | failure => exact (hvalue hc).bind hof
    | _ => cases he
  refine ⟨hvalue, fun hc => ?_, fun hc => ?_, fun hc => ?_, hnodeSet, fun hc sort => ?_⟩
  · cases e with
    | logical | compare | compareNode | compareNodes | positionRange | isLast =>
      exact test_ends rfl ha hp hc
    | value | arithmetic | negate | call | extension | reference | template | failure =>
      exact .deeper (a := fun E => do (← E.value _ _).asBoolean T E)
        ((hvalue hc).bind fun v hv => Value.asBoolean_ends hv) fun _ => rfl
    | _ => cases he
  · cases e with
    | arithmetic | negate => exact sum_ends rfl hp hc
    | value | logical | compare | compareNode | compareNodes | positionRange | isLast | call
    | extension | reference | template | failure =>
      exact .deeper (a := fun E => do (← E.value _ _).asNumber T E)
        ((hvalue hc).bind fun v hv => Value.asNumber_ends hv) fun _ => rfl
    | _ => cases he
  · cases e with
    | template parts => exact template_ends hp hc
    | value | logical | compare | compareNode | compareNodes | positionRange | isLast | arithmetic
    | negate | call | extension | reference | failure =>
      exact .deeper (a := fun E => do (← E.value _ _).asString T E)
        ((hvalue hc).bind fun v hv => Value.asString_ends hv) fun _ => rfl
    | _ => cases he
  · have henumerated : Ends T G (fun E => do (← E.nodeSet e _).enumerateSorted T E sort)
        (Cursor.Readable T G) :=
      (hnodeSet hc).bind fun ns hns => NodeSet.enumerateSorted_ends hns sort
    cases e with
    | value v =>
      cases v with
      | nodeSet ns =>
        exact .deeper (a := fun E => ns.enumerateSorted T E sort)
          (NodeSet.enumerateSorted_ends ha sort) fun _ => rfl
      | _ => exact henumerated.deeper fun _ => rfl
    | logical | compare | compareNode | compareNodes | positionRange | isLast | arithmetic | negate
    | call | extension | reference | template | failure => exact henumerated.deeper fun _ => rfl
    | _ => cases he

end routes

section reduction

variable {es rs : List Expr} {mask : Dependencies}

/-- What an expression may be reduced to. -/
structure Reduced (T : Transformation) (A : Allowance) (e r : Expr) : Prop where
  within : r.Within T A
  weight : r.weight ≤ e.weight
  constant : ∀ v, e = .value v → r = e

/-- Reduction of an expression ends. -/
def Reduces (T : Transformation) (G : Globals → Prop) (A : Allowance) (e : Expr) : Prop :=
  ∀ mask c, Context.Readable T c →
    Ends T G (fun E => E.reduce mask e c) fun r => e.Reduced T A r.1

theorem reduceAll_ends (h : ∀ k ∈ es, k.Reduces T G A) (mask : Dependencies) (hc : c.Readable T) :
    Ends T G (fun E => reduceAll E mask c es) fun r => List.Forall₂ (Reduced T A) es r.1 := by
  induction es with
  | nil => exact .pure .nil
  | cons e es ih =>
    obtain ⟨he, hes⟩ := List.forall_mem_cons.mp h
    exact (he mask c hc).bind fun r hr => (ih hes).map fun rs hrs => .cons hr hrs

theorem within_of_reduced (h : List.Forall₂ (Reduced T A) es rs) : ∀ r ∈ rs, r.Within T A := by
  induction h with
  | nil => exact List.forall_mem_nil _
  | cons hr _ ih => exact List.forall_mem_cons.mpr ⟨hr.within, ih⟩

theorem weights_of_reduced (h : List.Forall₂ (Reduced T A) es rs) : weights rs ≤ weights es := by
  induction h with
  | nil => exact Nat.le_refl _
  | cons hr _ ih => exact Nat.add_le_add hr.weight ih

/-- A literal name of a key stays when the arguments are reduced. -/
theorem denotes_of_reduced {scope : Option Scope} {name : ExpandedName}
    (h : List.Forall₂ (Reduced T A) es rs) (hr : Function.Denotes rs scope name) :
    Function.Denotes es scope name := by
  cases h with
  | nil => trivial
  | @cons e r es rs he _ =>
    cases e with
    | value v =>
      obtain rfl := he.constant v rfl
      cases v with
      | string text => exact hr
      | _ => trivial
    | _ => trivial

theorem boundNode_ends (mask : Dependencies) (f : SystemFunction) (arity : Nat)
    (bound : Option Node) (c : Context) :
    Ends T G (fun _ => boundNode mask f arity bound c) fun _ => True := by
  unfold boundNode
  cases bound with
  | some n => exact .pure trivial
  | none => exact .ite (fun _ => c.node_ends.map fun _ _ => trivial) fun _ => .pure trivial

theorem reduceToValue_ends {rebuilt : Expr} (hx : rebuilt.Within T A)
    (hv : rebuilt.isNodeSetExpr = false → rebuilt.Answers T G) (mask : Dependencies)
    (changed : Bool) (hc : c.Readable T) :
    Ends T G (fun E => reduceToValue E mask c rebuilt changed) fun r => r.1.Within T A := by
  refine .ite (fun _ => .pure hx) fun hm => ?_
  rw [Bool.or_eq_true, not_or, Bool.not_eq_true] at hm
  refine ((hv hm.1).value hc).outcome.bind fun r hr => ?_
  cases r with
  | ok v => exact .pure (.intro (hr v rfl) (List.forall_mem_nil _))
  | error f => cases f <;> first | exact .throw | exact .pure hx

/-- The parts of an expression are reduced, and what is rebuilt of them is evaluated as long as it
weighs no more. -/
theorem within_reduce_ends (he : e.Within T A) (hp : ∀ k ∈ e.children, k.Reduces T G A)
    (hx : ∀ x : Expr, x.weight ≤ e.weight → x.Within T A → x.isNodeSetExpr = false →
      x.Answers T G)
    (hn : e.isNodeSetExpr = true → ∀ sort,
      Ends T G (fun E => E.cursor e c sort) (Cursor.Readable T G))
    (mask : Dependencies) (hc : c.Readable T) :
    Ends T G (fun E => e.reduce E mask c) fun r => r.1.Within T A := by
  refine .ite (fun _ => .pure he) fun _ => ?_
  have hrebuilt (x : Expr) (hw : x.weight ≤ e.weight) (hxw : x.Within T A) (changed : Bool) :
      Ends T G (fun E => reduceToValue E mask c x changed) fun r => r.1.Within T A :=
    reduceToValue_ends hxw (hx x hw hxw) mask changed hc
  have hnode (hn : ∀ sort, Ends T G (fun E => E.cursor e c sort) (Cursor.Readable T G)) :
      Ends T G (fun E => do
        return (Expr.value (.nodeSet (.ofOption (← E.head (← E.cursor e c false)))), true))
        fun r => r.1.Within T A :=
    (hn false).bind fun x hx => hx.exhaustible.head.map fun n _ =>
      .intro (NodeSet.readable_ofOption n) (List.forall_mem_nil _)
  have hadmitted := he.admitted
  cases e with
  | root | contextNode | parentNode | currentNode | «attribute» => exact hnode (hn rfl)
  | axis along test origin =>
    exact c.node_ends.map fun n _ => .intro trivial (List.forall_mem_nil _)
  | path start along test predicates =>
    obtain ⟨hstart, hpredicates⟩ := List.forall_mem_cons.mp hp
    refine (hstart mask c hc).bind fun r hr => .ite (fun _ => .pure ?_) fun _ => ?_
    · exact .intro trivial (List.forall_mem_nil _)
    · exact (reduceAll_ends hpredicates _ hc).map fun ps hps =>
        .intro trivial (List.forall_mem_cons.mpr ⟨hr.within, within_of_reduced hps⟩)
  | filter base predicate =>
    obtain ⟨hbase, hpredicate⟩ := List.forall_mem_cons.mp hp
    refine (hbase mask c hc).bind fun r hr => .ite (fun _ => .pure hr.within) fun _ => ?_
    exact (List.forall_mem_singleton.mp hpredicate _ c hc).map fun p hp =>
      .intro trivial (List.forall_mem_cons.mpr ⟨hr.within, List.forall_mem_singleton.mpr hp.within⟩)
  | distinct base =>
    exact (List.forall_mem_singleton.mp hp mask c hc).map fun r hr =>
      .intro trivial (List.forall_mem_singleton.mpr hr.within)
  | distinctBy base key =>
    obtain ⟨hbase, hkey⟩ := List.forall_mem_cons.mp hp
    refine (hbase mask c hc).bind fun r hr => ?_
    exact (List.forall_mem_singleton.mp hkey _ c hc).map fun k hk =>
      .intro trivial (List.forall_mem_cons.mpr ⟨hr.within, List.forall_mem_singleton.mpr hk.within⟩)
  | sorted base keys rules =>
    obtain ⟨hbase, hkeys⟩ := List.forall_mem_cons.mp hp
    refine (hbase mask c hc).bind fun r hr => ?_
    exact (reduceAll_ends hkeys _ hc).map fun ks hks =>
      .intro trivial (List.forall_mem_cons.mpr ⟨hr.within, within_of_reduced hks⟩)
  | call f args bound scope =>
    refine (reduceAll_ends hp mask hc).bind fun rs hrs => ?_
    refine (boundNode_ends mask f _ bound c).bind fun b _ => hrebuilt _ ?_ (.intro ?_ ?_) true
    · exact Nat.add_le_add_left (weights_of_reduced hrs) 3
    · exact fun hf name hname => hadmitted hf name (denotes_of_reduced hrs hname)
    · exact within_of_reduced hrs
  | extension name args =>
    refine (reduceAll_ends hp mask hc).bind fun rs hrs => hrebuilt _ ?_ (.intro ?_ ?_) _
    · exact Nat.add_le_add_left (weights_of_reduced hrs) 2
    · exact hadmitted
    · exact within_of_reduced hrs
  | template parts =>
    refine (reduceAll_ends hp mask hc).bind fun rs hrs => hrebuilt _ ?_ (.intro ?_ ?_) _
    · exact Nat.add_le_add_left (weights_of_reduced hrs) 4
    · trivial
    · exact within_of_reduced hrs
  | set op l r | logical op l r | compare op l r | arithmetic op l r =>
    obtain ⟨hl, hr⟩ := List.forall_mem_cons.mp hp
    refine (hl mask c hc).bind fun x hx => ?_
    refine (List.forall_mem_singleton.mp hr mask c hc).bind fun y hy => ?_
    refine hrebuilt _ ?_ (.intro ?_ ?_) _
    · have hxw := hx.weight
      have hyw := hy.weight
      simp only [weight]
      omega
    · trivial
    · exact List.forall_mem_cons.mpr ⟨hx.within, List.forall_mem_singleton.mpr hy.within⟩
  | compareNode op k v | compareNodes op k v | negate k =>
    refine (List.forall_mem_singleton.mp hp mask c hc).bind fun x hx =>
      hrebuilt _ ?_ (.intro ?_ ?_) _
    · exact Nat.add_le_add_left hx.weight 2
    · exact hadmitted
    · exact List.forall_mem_singleton.mpr hx.within
  | reference | positionRange | isLast | value | failure =>
    exact hrebuilt _ (Nat.le_refl _) he false

theorem reduces (he : e.Within T A) (hp : ∀ k ∈ e.children, k.Reduces T G A)
    (hx : ∀ x : Expr, x.weight ≤ e.weight → x.Within T A → x.isNodeSetExpr = false →
      x.Answers T G)
    (hn : e.isNodeSetExpr = true → ∀ c, Context.Readable T c → ∀ sort,
      Ends T G (fun E => E.cursor e c sort) (Cursor.Readable T G)) : e.Reduces T G A := by
  intro mask c hc
  have hwithin : Ends T G (fun E => E.reduce mask e c) fun r => r.1.Within T A :=
    .deeper (within_reduce_ends he hp hx (fun h => hn h c hc) mask hc) fun _ => rfl
  have hweighed := hwithin.returns fun n => engine_reducesWeight T n mask e c
  cases e with
  | value v =>
    exact .deeper (a := fun _ => Pure.pure (Expr.value v, false))
      (.pure ⟨he, Nat.le_refl _, fun _ _ => rfl⟩) fun _ => rfl
  | _ => exact hweighed.imp fun r hr => ⟨hr.1, hr.2, nofun⟩

end reduction

/-- Evaluation and reduction of an expression end. -/
structure Terminates (T : Transformation) (G : Globals → Prop) (A : Allowance) (e : Expr) : Prop
    extends e.Answers T G where
  reduces : e.Reduces T G A

/-- The lighter parts of an expression that is within an allowance. -/
theorem Within.parts {P : Expr → Prop} (h : e.Within T A)
    (hP : ∀ k, k.weight < e.weight → k.Within T A → P k) : ∀ k ∈ e.children, P k := by
  intro k hk
  have hle := weight_le_of_mem k hk
  have hlt := e.weights_children_lt
  exact hP k (by omega) (h.children k hk)

theorem nodeSetOf_ends {v : Value} (hv : v.Readable T) :
    Ends T G (fun _ => nodeSetOf v) (NodeSet.Readable T) := by
  cases v with
  | nodeSet ns => exact .pure hv
  | _ => exact .fail

/-- Nodes are read as long as the parts of an expression are evaluated. -/
theorem cursor_ends (hP : Provided T G A) (he : e.Within T A)
    (hp : ∀ k ∈ e.children, k.Answers T G) (hc : c.Readable T) (sort : Bool) :
    Ends T G (fun E => E.cursor e c sort) (Cursor.Readable T G) := by
  cases hn : e.isNodeSetExpr with
  | true => exact enumerate_ends hn hp hc sort
  | false => exact (answers hP hn he.admitted hp).cursor hc sort

/-- An expression terminates if all lighter ones do, and the lazy node-sets it may come to can be
read. -/
theorem terminates_of_lighter (hP : Provided T G A)
    (hlazy : ∀ x : Expr, x.weight ≤ e.weight → x.Within T .nothing → x.Delivers T)
    (ih : ∀ k : Expr, k.weight < e.weight → k.Within T A → k.Terminates T G A)
    (he : e.Within T A) :
    e.Terminates T G A := by
  have hparts (x : Expr) (hw : x.weight ≤ e.weight) (hx : x.Within T A) :
      ∀ k ∈ x.children, k.Answers T G :=
    hx.parts fun k hk hk' => (ih k (Nat.lt_of_lt_of_le hk hw) hk').toAnswers
  have hcursor (x : Expr) (hw : x.weight ≤ e.weight) (hx : x.Within T A) {c : Context}
      (hc : c.Readable T) (sort : Bool) :
      Ends T G (fun E => E.cursor x c sort) (Cursor.Readable T G) :=
    cursor_ends hP hx (hparts x hw hx) hc sort
  have hself := hparts e (Nat.le_refl _) he
  have hreduces : e.Reduces T G A :=
    reduces he (he.parts fun k hk hk' => (ih k hk hk').reduces)
      (fun x hw hx hn => answers hP hn hx.admitted (hparts x hw hx))
      fun _ _ hc => hcursor e (Nat.le_refl _) he hc
  cases hn : e.isNodeSetExpr with
  | false => exact ⟨answers hP hn he.admitted hself, hreduces⟩
  | true =>
    have hnodeSet {c : Context} (hc : c.Readable T) :
        Ends T G (fun E => E.nodeSet e c) (NodeSet.Readable T) := by
      refine .deeper (a := fun E => e.evaluateNodeSet E c) ?_ fun _ => rfl
      have hreduced := hreduces .all c hc
      cases e with
      | root | contextNode | parentNode | currentNode | «attribute» | path | axis | filter | set
      | distinct | distinctBy | sorted =>
        refine hreduced.bind fun r hr => ?_
        obtain ⟨r, changed⟩ := r
        have hkept : Ends T G (fun E => if r.dependencies.isEmpty then NodeSet.ofDefinition r
            else do return .extent (← E.extent (← E.cursor r c false))) (NodeSet.Readable T) :=
          .ite (fun _ => NodeSet.ofDefinition_ends fun hd =>
              hlazy r hr.weight (hr.within.nothing hd))
            fun _ => (hcursor r hr.weight hr.within hc false).bind fun x hx =>
              hx.exhaustible.extent.map fun _ _ => trivial
        cases r with
        | value v => exact nodeSetOf_ends hr.within.admitted
        | _ => exact hkept
      | _ => cases hn
    have hvalue {c : Context} (hc : c.Readable T) :
        Ends T G (fun E => E.value e c) (Value.Readable T) := by
      refine .deeper (a := fun E => do return .nodeSet (← E.nodeSet e c))
        ((hnodeSet hc).map (g := Value.nodeSet) fun _ hns => hns) fun _ => ?_
      cases e <;> first | rfl | cases hn
    refine ⟨⟨hvalue, fun hc => ?_, fun hc => ?_, fun hc => ?_, hnodeSet,
      hcursor e (Nat.le_refl _) he⟩, hreduces⟩
    · refine .deeper (a := fun E => do return (← E.head (← E.cursor e _ false)).isSome)
        ((hcursor e (Nat.le_refl _) he hc false).bind fun x hx =>
          hx.exhaustible.head.map fun _ _ => trivial) fun _ => ?_
      cases e <;> first | rfl | cases hn
    · refine .deeper (a := fun E => do (← E.value e _).asNumber T E)
        ((hvalue hc).bind fun v hv => Value.asNumber_ends hv) fun _ => ?_
      cases e <;> first | rfl | cases hn
    · refine .deeper
        (a := fun E => do return ((← E.head (← E.cursor e _ true)).map Node.stringValue).getD "")
        ((hcursor e (Nat.le_refl _) he hc true).bind fun x hx =>
          hx.exhaustible.head.map fun _ _ => trivial) fun _ => ?_
      cases e <;> first | rfl | cases hn

/-- What uses nothing beside its context terminates in every session. -/
theorem terminates_nothing (he : e.Within T .nothing) : ∀ G, e.Terminates T G .nothing := by
  induction hw : e.weight using Nat.strongRecOn generalizing e with
  | ind w ih =>
    subst hw
    intro G
    have hlighter (G : Globals → Prop) (k : Expr) (hk : k.weight < e.weight)
        (hk' : k.Within T .nothing) : k.Terminates T G .nothing := ih _ hk hk' rfl G
    refine terminates_of_lighter provided_nothing (fun x hx hx' G sort => ?_) (hlighter G) he
    refine cursor_ends provided_nothing hx' (hx'.parts fun k hk hk' => ?_)
      (Context.readable_onNode _) sort
    exact (hlighter G k (Nat.lt_of_lt_of_le hk hx) hk').toAnswers

theorem delivers (he : e.Within T .nothing) : e.Delivers T := fun G sort =>
  (terminates_nothing he G).cursor (Context.readable_onNode _) sort

/-- An expression terminates if all that it uses is settled. -/
theorem terminates (hP : Provided T G A) (he : e.Within T A) : e.Terminates T G A := by
  induction hw : e.weight using Nat.strongRecOn generalizing e with
  | ind w ih =>
    subst hw
    exact terminates_of_lighter hP (fun _ _ => delivers) (fun k hk hk' => ih _ hk hk' rfl) he

end Expr

end PathLanguage
