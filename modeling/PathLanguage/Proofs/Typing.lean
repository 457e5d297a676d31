/- Static types: a value has the type of its expression, and so has what the expression is
simplified or reduced to. Only when a lazy node-set is read is it known to have nodes. -/
import PathLanguage.Proofs.Bindings.Evaluation
import PathLanguage.Proofs.Fragment
import PathLanguage.Proofs.Reduction
import PathLanguage.Proofs.Simplification.Typing

namespace PathLanguage

/-- The members of a value, read out. -/
def Value.readOut (T : Transformation) (E : Engine) : Value → Action (List Node)
  | .nodeSet ns => ns.readOut T E
  | _ => return []

theorem engine_typed (T : Transformation) (depth : Nat) : (engine T depth).Typed :=
  engine_value_has T depth

namespace Expr

variable {T T' : Transformation} {E : Engine} {e : Expr} {c : Context} {n m k : Nat}
  {s t u w w' : Session} {v : Value} {mask : Dependencies} {changed : Bool}

section reduction

/-- What an expression is rebuilt to is kept, or its value takes its place. -/
theorem reduceToValue_keeps {P : Expr → Prop} {rebuilt : Expr} (h : P rebuilt)
    (hv : Returns (E.value rebuilt c) fun v => P (.value v)) :
    Returns (reduceToValue E mask c rebuilt changed) (P ·.1) := by
  refine .ite (fun _ => .pure h) fun _ => ?_
  have hout : Returns (E.value rebuilt c).outcome fun r => ∀ v, r = .ok v → P (.value v) :=
    .lift hv
  refine hout.bind fun r hr => ?_
  split
  · next v => exact .pure (hr v rfl)
  · exact .throw
  · exact .pure h

theorem reduceToValue_type (hE : E.Typed) {rebuilt : Expr} (ha : rebuilt.type ≠ .any) :
    Returns (reduceToValue E mask c rebuilt changed) (·.1.type = rebuilt.type) :=
  reduceToValue_keeps (P := (·.type = rebuilt.type)) rfl ((hE rebuilt c).imp fun _ hv => hv ha)

/-- A reduced expression has the type of the expression, if that is known. -/
theorem reduce_type (hE : E.Typed) (ha : e.type ≠ .any) :
    Returns (e.reduce E mask c) (·.1.type = e.type) := by
  refine .ite (fun _ => .pure rfl) fun _ => ?_
  extract_lets inner
  cases e with
  | root | contextNode | parentNode | currentNode | «attribute» =>
    exact .bind_any fun _ => .bind_any fun _ => .pure rfl
  | axis => exact .bind_any fun _ => .pure rfl
  | path => exact .bind_any fun _ => .ite (fun _ => .pure rfl) fun _ => .bind_any fun _ => .pure rfl
  | filter =>
    refine .bind_any fun _ => .ite (fun h => .pure ?_) fun _ => .bind_any fun _ => .pure rfl
    rw [eq_emptySet h]
    rfl
  | distinct => exact .bind_any fun _ => .pure rfl
  | distinctBy | sorted => exact .bind_any fun _ => .bind_any fun _ => .pure rfl
  | call => exact .bind_any fun _ => .bind_any fun _ => reduceToValue_type hE ha
  | set | logical | compare | arithmetic =>
    exact .bind_any fun _ => .bind_any fun _ => reduceToValue_type hE ha
  | compareNode | compareNodes | negate | extension | template =>
    exact .bind_any fun _ => reduceToValue_type hE ha
  | value | reference | positionRange | isLast | failure => exact reduceToValue_type hE ha

end reduction

end Expr

/-- Reduction leaves a nodeless expression nodeless. -/
theorem engine_reduce_nodeless (T : Transformation) (n : Nat) {e : Expr} (h : e.Nodeless)
    (mask : Dependencies) (c : Context) :
    Returns ((engine T n).reduce mask e c) (·.1.Nodeless) := by
  induction n generalizing e mask with
  | zero => exact .fail
  | succ n ih =>
    cases h with
    | plain hn ha =>
      exact (Expr.reduce_type (engine_typed T n) ha).imp fun r hr => .plain (hr ▸ hn) (hr ▸ ha)
    | property h =>
      obtain ⟨args, bound, scope, rfl⟩ := Expr.asksProperty_iff.mp h
      refine .ite (fun _ => .pure (.property h)) fun _ => .bind_any fun _ => .bind_any fun _ => ?_
      refine Expr.reduceToValue_keeps (.property rfl) ?_
      exact (Expr.Nodeless.value_type (.property rfl) rfl).imp fun _ => Expr.nodeless_value_iff.mpr
    | filter predicate h =>
      refine .ite (fun _ => .pure (.filter predicate h)) fun _ => (ih h mask).bind fun r hr => ?_
      exact .ite (fun _ => .pure hr) fun _ => .bind_any fun p => .pure (.filter p.1 hr)
    | path along test predicates h =>
      refine .ite (fun _ => .pure (.path along test predicates h)) fun _ =>
        (ih h mask).bind fun r hr => .ite (fun hempty => ?_) fun _ =>
          .bind_any fun ps => .pure (.path along test ps.1 hr)
      exact absurd (Expr.eq_emptySet hempty ▸ hr) (Expr.not_nodeless rfl rfl)
    | left op r h =>
      refine .ite (fun _ => .pure (.left op r h)) fun _ => (ih h mask).bind fun l hl => ?_
      exact .bind_any fun _ => .ite (fun _ => .pure (.left op _ hl)) nofun
    | right op l h =>
      refine .ite (fun _ => .pure (.right op l h)) fun _ => .bind_any fun _ => ?_
      exact (ih h mask).bind fun r hr => .ite (fun _ => .pure (.right op _ hr)) nofun

section reading

variable {T : Transformation} {e d : Expr} {c : Context} {n m id : Nat} {s t : Session}

/-- A nodeless expression in the form of one for nodes becomes a lazy node-set that nobody has read
yet, if it becomes a node-set at all. -/
theorem Expr.Nodeless.nodeSet_lazy (h : e.Nodeless) (he : e.isNodeSetExpr = true) {ns : NodeSet}
    (hr : ((engine T n).nodeSet e c).attempt.run s = (.ok ns, t)) :
    ∃ id d, ns = .intent id d ∧ d.Nodeless ∧ (t.intent id).extent = none := by
  cases n with
  | zero => cases hr
  | succ n =>
    change (e.evaluateNodeSet (engine T n) c).attempt.run s = _ at hr
    unfold evaluateNodeSet at hr
    split at hr
    · cases he
    · rw [he] at hr
      obtain ⟨r, u, hreduce, hr⟩ := Action.bind_ok.mp hr
      have hnode : r.1.Nodeless :=
        engine_reduce_nodeless T n h .all c s r (congrArg Prod.fst hreduce)
      dsimp only at hr
      split at hr
      · next w hw =>
        rw [hw] at hnode
        have hfails := nodeSetOf_fails (nodeless_value_iff.mp hnode)
        exact (hfails u ns (congrArg Prod.fst hr)).elim
      · split at hr
        · next hempty =>
          rw [NodeSet.ofDefinition, hempty] at hr
          cases hr
          refine ⟨_, r.1, rfl, hnode, ?_⟩
          simp [Session.intent]
        · obtain ⟨k, w, hk, -⟩ := Action.bind_ok.mp hr
          exact (hnode.cursor_fails false u k (congrArg Prod.fst hk)).elim

/-- A lazy node-set that a nodeless expression defines cannot be read. -/
theorem Expr.Nodeless.readOut_fails (h : d.Nodeless) (hfresh : (t.intent id).extent = none)
    {ns : List Node} :
    ((NodeSet.intent id d).readOut T (engine T m)).attempt.run t ≠ (.ok ns, s) := by
  intro hread
  obtain ⟨k, u, hscan, -⟩ := Action.bind_ok.mp hread
  rw [NodeSet.scan_run hfresh] at hscan
  split at hscan
  · obtain ⟨extent, w, hkept, -⟩ := Action.bind_ok.mp hscan
    rw [NodeSet.materializeIntent, Action.run_get, Session.extent_countUse hfresh] at hkept
    obtain ⟨k, x, hk, -⟩ := Action.bind_ok.mp hkept
    exact h.cursor_fails false _ k (congrArg Prod.fst hk)
  · exact h.cursor_fails false _ k (congrArg Prod.fst hscan)

/-- An expression of nodes whose value can be read stands for nodes. -/
theorem Expr.not_nodeless_of_read (hn : e.type = .nodeSet) {v : Value} {ns : List Node}
    {u : Session} (hv : ((engine T n).value e c).attempt.run s = (.ok v, t))
    (hread : (v.readOut T (engine T m)).attempt.run t = (.ok ns, u)) : ¬ e.Nodeless := by
  intro h
  obtain ⟨hform, hnodes⟩ : e.isNodeSetExpr = true ∧ ∀ k, (engine T (k + 1)).value e c =
      do return Value.nodeSet (← (engine T k).nodeSet e c) := by
    cases h with
    | plain h => exact absurd hn h
    | property h => cases (type_of_asksProperty h).symm.trans hn
    | filter | path | left | right => exact ⟨rfl, fun _ => rfl⟩
  cases n with
  | zero => cases hv
  | succ n =>
    rw [hnodes] at hv
    obtain ⟨x, w, hx, hv⟩ := Action.bind_ok.mp hv
    obtain ⟨rfl, rfl⟩ := Action.pure_ok.mp hv
    obtain ⟨id, d, rfl, hd, hfresh⟩ := h.nodeSet_lazy hform hx
    exact hd.readOut_fails hfresh hread

end reading

section bindings

variable {T : Transformation} {E E' : Engine} {name : ExpandedName} {s t w w' : Session}
  {v x : Value}

/-- A variable that was asked for is computed. -/
theorem globalValue_ok (h : (globalValue T E name).attempt.run s = (.ok v, t)) :
    t.slot? name = some (.evaluated v) := by
  cases hs : s.slot? name with
  | none =>
    rw [globalValue_undefined hs] at h
    cases h
  | some slot =>
    cases slot with
    | pending d =>
      rw [globalValue_pending hs] at h
      exact guarded_ok h
    | evaluating =>
      rw [globalValue_evaluating hs] at h
      cases h
    | evaluated y =>
      rw [globalValue_evaluated hs] at h
      cases h
      exact hs

/-- A variable has one value from then on. -/
theorem globalValue_again (h : (globalValue T E name).attempt.run s = (.ok v, t))
    (h' : (globalValue T E' name).attempt.run w = (.ok x, w')) (hlater : t.Settles w) : x = v := by
  rw [globalValue_evaluated (hlater.evaluated (globalValue_ok h))] at h'
  cases h'
  rfl

theorem Context.valueOf_again {c : Context} {b : Binding}
    (h : (c.valueOf T E b).attempt.run s = (.ok v, t))
    (h' : (c.valueOf T E' b).attempt.run w = (.ok x, w')) (hlater : t.Settles w ∨ w'.Settles s) :
    x = v := by
  unfold Context.valueOf at h h'
  cases hlocal : c.locals.lookup b.name with
  | some y =>
    rw [hlocal] at h h'
    cases h
    cases h'
    rfl
  | none =>
    rw [hlocal] at h h'
    dsimp only at h h'
    split at h
    · next hglobal =>
      rw [if_pos hglobal] at h'
      rcases hlater with hlater | hlater
      · exact globalValue_again h h' hlater
      · exact (globalValue_again h' h hlater).symm
    · cases h

end bindings

namespace Expr

variable {T T' : Transformation} {E : Engine} {e : Expr} {c : Context} {n m k : Nat}
  {s t u w w' : Session} {v : Value} {scope : Option Scope} {bound : Option Node} {text : String}

/-- An expression whose values are all of one type: if it asks for a property of the processor, a
literal says for which; if it calls a host function, that gives values of one type only. -/
structure OneTyped (T : Transformation) (e : Expr) : Prop where
  property : ∀ args bound scope, e = .call .systemProperty args bound scope →
    ∃ text, args = [.value (.string text)]
  host : ∀ name args, e = .extension name args → ∃ type : DataType,
    ∀ o, T.functions.resolve name args.length = .ok o →
      ∀ call values, Returns (o.run call values) (·.type = type)

section properties

/-- The property that a literal names. -/
def NamesProperty (scope : Option Scope) (text : String) (v : Value) : Prop :=
  ∃ name, Function.resolveName scope text = .ok name ∧ v = Function.systemProperty name

theorem NamesProperty.unique {x : Value} (h : NamesProperty scope text v)
    (h' : NamesProperty scope text x) : x = v := by
  obtain ⟨name, hname, rfl⟩ := h
  obtain ⟨name', hname', rfl⟩ := h'
  cases hname.symm.trans hname'
  rfl

theorem engine_string_literal (T : Transformation) (n : Nat) (text : String) (c : Context) :
    Returns ((engine T n).string (.value (.string text)) c) (· = text) := by
  match n with
  | 0 => exact .fail
  | 1 => exact .fail
  | n + 2 => exact .pure rfl

theorem engine_value_property (T : Transformation) (n : Nat) (bound : Option Node)
    (scope : Option Scope) (text : String) (c : Context) :
    Returns ((engine T n).value (.call .systemProperty [.value (.string text)] bound scope) c)
      (NamesProperty scope text) := by
  cases n with
  | zero => exact .fail
  | succ n =>
    refine .bind (engine_string_literal T n text c) fun read hread => ?_
    rw [hread]
    have hname : Returns (.ofExcept (Function.resolveName scope text))
        (Function.resolveName scope text = .ok ·) := .ofExcept fun _ h => h
    exact hname.bind fun name hname => .pure ⟨name, hname, rfl⟩

/-- Simplified, a property that a literal names is its value, or stays as it is. -/
theorem simplify_property (T : Transformation) (n : Nat) (bound : Option Node)
    (scope : Option Scope) (text : String) :
    Always (simplify T (engine T n) (.call .systemProperty [.value (.string text)] bound scope))
      fun r => r.1.type = .any ∨ ∃ v, r.1 = .value v ∧ NamesProperty scope text v := by
  let call : Expr := .call .systemProperty [.value (.string text)] bound scope
  have hargs : Always (simplifyAll T (engine T n) [.value (.string text)])
      (·.1 = [.value (.string text)]) :=
    (simplifyAll_inert (List.forall_mem_singleton.mpr (inert_value _))).imp fun _ h => h ▸ rfl
  have hrules (changed : Bool) : Always (applyRules T (engine T n) call changed)
      fun r => r.1 = call ∨ ∃ v, r.1 = .value v ∧ NamesProperty scope text v := by
    refine applyRulesUpTo_keeps
      (Q := fun x => x = call ∨ ∃ v, x = .value v ∧ NamesProperty scope text v) ?_ (.inl rfl) _ _
    rintro x (rfl | ⟨v, rfl, -⟩)
    · exact (fold?_value (engine_value_property T n bound scope text .blank)).imp
        fun o ho x hx => .inr (ho x hx).2
    · exact (inert_value v).rule.imp fun o ho x hx => by
        rw [ho] at hx
        cases hx
  refine hargs.bind fun args hargs => ?_
  obtain ⟨args, changed⟩ := args
  obtain rfl : args = _ := hargs
  exact (hrules changed).imp fun r hr => hr.imp_left fun h => by rw [h]; rfl

end properties

section hosts

variable {name : ExpandedName} {args : List Expr} {type : DataType}

theorem values_length (E : Engine) (c : Context) (es : List Expr) :
    Returns (values E c es) (·.length = es.length) := by
  induction es with
  | nil => exact .pure rfl
  | cons e es ih => exact .bind_any fun v => ih.bind fun vs hvs => .pure (congrArg (· + 1) hvs)

theorem engine_value_host (n : Nat) (c : Context)
    (h : ∀ o, T.functions.resolve name args.length = .ok o →
      ∀ call values, Returns (o.run call values) (·.type = type)) :
    Returns ((engine T n).value (.extension name args) c) (·.type = type) := by
  cases n with
  | zero => exact .fail
  | succ n =>
    refine (values_length (engine T n) c args).bind fun vs hvs => ?_
    rw [callHost, hvs]
    have hresolved : Returns
        (.ofExcept ((T.functions.resolve name args.length).mapError .unresolvedFunction))
        (T.functions.resolve name args.length = .ok ·) := by
      refine .ofExcept fun o ho => ?_
      cases hr : T.functions.resolve name args.length with
      | ok p =>
        rw [hr] at ho
        cases ho
        rfl
      | error f =>
        rw [hr] at ho
        cases ho
    exact hresolved.bind fun o ho => .bind_any fun number => h o ho _ vs

/-- A reduced call of a host function is such a call or a value that the function gives. -/
theorem engine_reduce_host (n : Nat) (mask : Dependencies) (c : Context)
    (h : ∀ o, T.functions.resolve name args.length = .ok o →
      ∀ call values, Returns (o.run call values) (·.type = type)) :
    Returns ((engine T n).reduce mask (.extension name args) c)
      fun r => r.1.type = .any ∨ r.1.type = type := by
  cases n with
  | zero => exact .fail
  | succ n =>
    refine .ite (fun _ => .pure (.inl rfl)) fun _ => ?_
    refine (reduceAll_weight (engine_reducesWeight T n) args).bind fun rs hrs => ?_
    refine reduceToValue_keeps (P := fun x => x.type = .any ∨ x.type = type) (.inl rfl) ?_
    rw [← hrs.1] at h
    exact (engine_value_host n c h).imp fun _ hv => .inr hv

end hosts

/-- What an expression is rebuilt to is kept, or is evaluated in the same session. -/
theorem reduceToValue_ok {rebuilt : Expr} {changed : Bool} {mask : Dependencies} {r : Expr × Bool}
    (h : (reduceToValue E mask c rebuilt changed).attempt.run w = (.ok r, w')) :
    r.1 = rebuilt ∨ ∃ x, r.1 = .value x ∧ (E.value rebuilt c).attempt.run w = (.ok x, w') := by
  unfold reduceToValue at h
  split at h
  · cases h
    exact .inl rfl
  · obtain ⟨result, u, hresult, h⟩ := Action.bind_ok.mp h
    have hrun : (E.value rebuilt c).attempt.run w = (result, u) := by
      cases hresult
      rfl
    split at h
    · next x =>
      cases h
      exact .inr ⟨x, rfl, hrun⟩
    · cases h
    · cases h
      exact .inl rfl

/-- A reduced variable is the variable, or the value that it has. -/
theorem engine_reduce_reference {b : Binding} (hb : b.constant = none)
    (hv : ((engine T n).value (.reference b) c).attempt.run s = (.ok v, t)) {mask : Dependencies}
    {r : Expr × Bool}
    (hr : ((engine T k).reduce mask (.reference b) c).attempt.run w = (.ok r, w'))
    (hlater : t.Settles w ∨ w'.Settles s) : r.1 = .reference b ∨ r.1 = .value v := by
  have hvalue (n : Nat) : (engine T (n + 1)).value (.reference b) c =
      c.valueOf T (engine T n) b := by
    change Expr.evaluate T (engine T n) (.reference b) c = _
    rw [evaluate, hb]
  cases k with
  | zero => cases hr
  | succ k =>
    change ((Expr.reference b).reduce (engine T k) mask c).attempt.run w = _ at hr
    unfold reduce at hr
    split at hr
    · cases hr
      exact .inl rfl
    · refine (reduceToValue_ok hr).imp_right ?_
      rintro ⟨x, hx, hrun⟩
      cases n with
      | zero => cases hv
      | succ n =>
        cases k with
        | zero => cases hrun
        | succ k =>
          rw [hvalue] at hv hrun
          rw [hx, Context.valueOf_again hv hrun hlater]

section types

variable {ns : List Node}

/-- The type of what an expression is simplified to. -/
theorem simplify_has (hv : ((engine T n).value e c).attempt.run s = (.ok v, t))
    (hread : (v.readOut T (engine T m)).attempt.run t = (.ok ns, u)) (hone : e.OneTyped T)
    (T' : Transformation) (k : Nat) (w : Session) :
    v.Has ((e.simplify T' (engine T' k)).run w).1.1.type := by
  have hhas : v.Has e.type := engine_value_has T n e c s v (congrArg Prod.fst hv)
  cases hp : e.asksProperty with
  | true =>
    obtain ⟨args, bound, scope, rfl⟩ := asksProperty_iff.mp hp
    obtain ⟨text, rfl⟩ := hone.property args bound scope rfl
    have hnamed := engine_value_property T n bound scope text c s v (congrArg Prod.fst hv)
    rcases simplify_property T' k bound scope text w with h | ⟨x, hx, hxnamed⟩
    · rw [h]
      exact v.has_any
    · rw [hx, hnamed.unique hxnamed]
      exact v.has_type
  | false =>
    have hretypes : e.Retypes ((e.simplify T' (engine T' k)).run w).1.1 :=
      simplify_retypes (engine_typed T' k) e w
    generalize ((e.simplify T' (engine T' k)).run w).1.1 = x at hretypes
    intro ha
    by_cases hn : e.type = .nodeSet
    · have hx : x.type = .nodeSet := by
        by_contra hx
        exact not_nodeless_of_read hn hv hread (hretypes.nodeless (.plain hx ha))
      rw [hx, hhas (hn ▸ nofun), hn]
    · have htype := hretypes.type hn hp
      rw [htype] at ha ⊢
      exact hhas ha

/-- The type of what an expression of no certain type is reduced to. -/
theorem reduce_has (hv : ((engine T n).value e c).attempt.run s = (.ok v, t))
    (hone : e.OneTyped T) (ha : e.type = .any) {mask : Dependencies} {r : Expr × Bool}
    (hr : ((engine T k).reduce mask e c).attempt.run w = (.ok r, w'))
    (hlater : t.Settles w ∨ w'.Settles s) : v.Has r.1.type := by
  cases e with
  | reference b =>
    have hb : b.constant = none := by
      cases hb : b.constant with
      | none => rfl
      | some k =>
        rw [type, hb] at ha
        cases k <;> cases ha
    rcases engine_reduce_reference hb hv hr hlater with h | h
    · rw [h, ha]
      exact v.has_any
    · rw [h]
      exact v.has_type
  | extension name args =>
    obtain ⟨type, htype⟩ := hone.host name args rfl
    have hvtype := engine_value_host n c htype s v (congrArg Prod.fst hv)
    rcases engine_reduce_host k mask c htype w r (congrArg Prod.fst hr) with h | h
    · rw [h]
      exact v.has_any
    · rw [h, ← hvtype]
      exact v.has_type
  | call f args bound scope =>
    obtain rfl : f = .systemProperty := by
      cases f with
      | systemProperty => rfl
      | _ => cases ha
    obtain ⟨text, rfl⟩ := hone.property args bound scope rfl
    cases k with
    | zero => cases hr
    | succ k =>
      -- The call reads nothing of the context, so that no mask covers any of it.
      cases bound <;> (cases hr; exact v.has_any)
  | failure f =>
    cases n with
    | zero => cases hv
    | succ n => cases hv
  | value v => cases v <;> cases ha
  | _ => cases ha

end types

/-- A value has the static type of its expression, if that is known, so that a condition that is not
positional never comes to a number. If the value can be read, its type is also that of whatever the
expression is simplified to, in any engine, and of whatever it is reduced to in the context by any
mask, before or after; unless the new type is not known. -/
theorem type_sound {ns : List Node}
    (hv : ((engine T n).value e c).attempt.run s = (.ok v, t))
    (hread : (v.readOut T (engine T m)).attempt.run t = (.ok ns, u)) :
    v.Has e.type ∧ (e.isPositional = false → v.type ≠ .number) ∧
      (e.OneTyped T →
        (∀ T' k w, v.Has ((e.simplify T' (engine T' k)).run w).1.1.type) ∧
        ∀ k mask w r w', ((engine T k).reduce mask e c).attempt.run w = (.ok r, w') →
          t.Settles w ∨ w'.Settles s → v.Has r.1.type) := by
  have hhas : v.Has e.type := engine_value_has T n e c s v (congrArg Prod.fst hv)
  refine ⟨hhas, fun hpos => ?_, fun hone => ⟨fun T' k w => ?_, fun k mask w r w' hr hlater => ?_⟩⟩
  · intro hnumber
    have htype : e.type = .number := by
      by_cases ha : e.type = .any
      · rw [isPositional, ha] at hpos
        cases hpos
      · exact (hhas ha).symm.trans hnumber
    rw [isPositional, htype] at hpos
    cases hpos
  · exact simplify_has hv hread hone T' k w
  · by_cases ha : e.type = .any
    · exact reduce_has hv hone ha hr hlater
    · cases k with
      | zero => cases hr
      | succ k =>
        have htype : r.1.type = e.type :=
          reduce_type (engine_typed T k) ha w r (congrArg Prod.fst hr)
        exact htype ▸ hhas

/-- A property of the processor is of no certain type before it is simplified to a number. -/
theorem type_sound_of_property : ∃ (e : Expr) (v : Value) (t u : Session),
    e.type = .any ∧ e.OneTyped .bare ∧
      ((engine .bare 3).value e .blank).attempt.run {} = (.ok v, t) ∧
      (v.readOut .bare (engine .bare 3)).attempt.run t = (.ok [], u) ∧
      ((e.simplify .bare (engine .bare 3)).run {}).1.1.type = .number ∧ v.type = .number := by
  let e : Expr :=
    .call .systemProperty [.value (.string "xsl:version")] none (some .standalone)
  have hone : e.OneTyped .bare :=
    ⟨fun _ _ _ h => ⟨"xsl:version", (call.inj h).2.1.symm⟩, nofun⟩
  have hv : ((engine .bare 3).value e .blank).attempt.run {} = (.ok (.number 1), {}) := by rfl
  have hread : (Value.readOut .bare (engine .bare 3) (.number 1)).attempt.run {} = (.ok [], {}) :=
    rfl
  have hsimplified : ((e.simplify .bare (engine .bare 3)).run {}).1.1.type = .number := by rfl
  have hhas := (type_sound hv hread).2.2 hone |>.1 .bare 3 {}
  rw [hsimplified] at hhas
  exact ⟨e, _, _, _, rfl, hone, hv, hread, hsimplified, hhas nofun⟩

end Expr

end PathLanguage
