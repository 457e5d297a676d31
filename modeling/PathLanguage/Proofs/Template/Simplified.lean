/- What templates are simplified to: a constant if all parts are constant, the only part as a string,
or the template as it is. Its string is in each case that of the parts, joined. -/
import PathLanguage.Proofs.Grammar.Rendering
import PathLanguage.Proofs.Simplification.Idempotence

namespace PathLanguage.Expr

open Function.Call (joinedArgs)

mutual

/-- A text holds nothing but names. -/
theorem fresh_of_grammatical {S : Scope} {w : Spelling} :
    ∀ {e : Expr}, e.Grammatical S w → e.Fresh
  | .value (.string _), _ | .value (.number _), _ | .root, _ | .contextNode, _ | .parentNode, _
  | .currentNode, _ | .failure _, _ => only_of_leaves rfl
  | .path _ _ _ _, h => List.forall_mem_append.mpr
    ⟨fresh_of_grammatical h.1, only_leavesOfAll_iff.mpr (freshAll_of_grammatical h.2.2.2)⟩
  | .filter _ _, h => List.forall_mem_append.mpr
    ⟨fresh_of_grammatical h.1, fresh_of_grammatical h.2.2⟩
  | .set _ _ _, h => List.forall_mem_append.mpr
    ⟨fresh_of_grammatical h.2.1.1, fresh_of_grammatical h.2.2.1⟩
  | .distinct base, h => fresh_of_grammatical (e := base) h.2.1
  | .distinctBy _ _, h => List.forall_mem_append.mpr
    ⟨fresh_of_grammatical h.2.1.1, fresh_of_grammatical h.2.2⟩
  | .logical _ _ _, h | .compare _ _ _, h | .arithmetic _ _ _, h => List.forall_mem_append.mpr
    ⟨fresh_of_grammatical h.1, fresh_of_grammatical h.2⟩
  | .negate e, h => fresh_of_grammatical (e := e) h
  | .call _ _ _ _, h => by
    obtain ⟨rfl, -, -, -, -, -, hargs⟩ := h
    exact only_call trivial (freshAll_of_grammatical hargs) nofun
  | .extension _ _, h => List.forall_mem_cons.mpr
    ⟨trivial, only_leavesOfAll_iff.mpr (freshAll_of_grammatical h.2)⟩
  | .reference _, _ => List.forall_mem_singleton.mpr trivial

theorem freshAll_of_grammatical {S : Scope} {w : Spelling} :
    ∀ {es : List Expr}, GrammaticalAll S w es → ∀ e ∈ es, e.Fresh
  | [], _ => nofun
  | _ :: _, h => List.forall_mem_cons.mpr
    ⟨fresh_of_grammatical h.1, freshAll_of_grammatical h.2⟩

end

variable {T : Transformation} {E : Engine} {e r x : Expr} {es : List Expr} {limit : Nat}
  {changed : Bool} {v : Value}

section rules

theorem applyRulesUpTo_of_some (h : Always (e.applyRule? T E) (· = some x))
    (hr : Always (applyRulesUpTo T E limit x true) (·.1 = r)) :
    Always (applyRulesUpTo T E (limit + 1) e changed) (·.1 = r) := by
  refine h.bind ?_
  rintro _ rfl
  exact hr

/-- A template with simplified parts is simplified by the rules for templates alone. -/
theorem simplified_template (hi : ∀ e ∈ es, Inert .bare Transformation.bare.run e)
    (h : Always (applyRulesUpTo .bare Transformation.bare.run (weights es + 3 + 1)
      (.template es) false) (·.1 = r)) :
    (Expr.template es).simplified = r := by
  have hweight : (Expr.template es).weight = weights es + 3 + 1 := by
    rw [weight]
    omega
  have hall : Always ((Expr.template es).simplify .bare Transformation.bare.run) (·.1 = r) := by
    refine (simplifyAll_inert hi).bind ?_
    rintro _ rfl
    rw [← hweight] at h
    exact h
  exact hall {}

theorem dependenciesOfAll_values (h : es.all isValue = true) : dependenciesOfAll es = ∅ := by
  induction es with
  | nil => rfl
  | cons e es ih =>
    rw [List.all_cons, Bool.and_eq_true] at h
    rw [dependenciesOfAll, ih h.2]
    cases e with
    | value v => rfl
    | _ => cases h.1

theorem isFoldable_template (h : es.all isValue = true) :
    (Expr.template es).isFoldable = true := by
  simp only [isFoldable, isValue, isNodeSetExpr, dependencies, children, h,
    dependenciesOfAll_values h]
  rfl

theorem fold?_some (h : e.isFoldable = true) (hv : E.value e .blank = pure v) :
    Always (fold? E e) (· = some (.value v)) := by
  rw [fold?, h, hv]
  exact .pure rfl

end rules

section constants

theorem exists_constant (hf : e.Fresh) (h : e.isValue = true) :
    ∃ v : Value, e = .value v ∧ v.IsConstant := by
  cases e with
  | value v => exact ⟨v, rfl, hf.constant⟩
  | _ => cases h

/-- Constant parts come to a text that is the same everywhere. -/
theorem joinedArgs_constants (hf : ∀ e ∈ es, e.Fresh) (h : es.all isValue = true) :
    ∃ text, ∀ T n c, joinedArgs (engine T (n + 2)) c es = pure text := by
  induction es with
  | nil => exact ⟨"", fun _ _ _ => rfl⟩
  | cons e es ih =>
    rw [List.all_cons, Bool.and_eq_true] at h
    obtain ⟨he, hes⟩ := List.forall_mem_cons.mp hf
    obtain ⟨v, rfl, hv⟩ := exists_constant he h.1
    obtain ⟨text, htext⟩ := ih hes h.2
    refine ⟨v.constantText ++ text, fun T n c => ?_⟩
    rw [joinedArgs, string_value hv, htext]
    rfl

theorem string_of_constant (hv : v.IsConstant) (n : Nat) (scope : Option Scope) (c : Context) :
    (engine T (n + 3)).value (.call .string [.value v] none scope) c =
      pure (.string v.constantText) := by
  change ((engine T (n + 2)).string (.value v) c >>= fun s => pure (.string s) :
    Action Value) = _
  rw [string_value hv]
  rfl

theorem joinedArgs_one (E : Engine) (c : Context) (e : Expr) :
    joinedArgs E c [e] = E.string e c := by
  simp [joinedArgs]

/-- A template with constant parts is simplified to a constant. -/
theorem simplified_constants (hf : ∀ e ∈ es, e.Fresh)
    (hi : ∀ e ∈ es, Inert .bare Transformation.bare.run e) (h : es.all isValue = true) :
    ∃ v : Value, (Expr.template es).simplified = .value v ∧ v.IsConstant ∧
      ∀ T n c, joinedArgs (engine T (n + 2)) c es = pure v.constantText := by
  match es with
  | [] =>
    refine ⟨.string "", simplified_template hi ?_, rfl, fun _ _ _ => rfl⟩
    exact applyRulesUpTo_of_some (.pure rfl) (applyRulesUpTo_inert (inert_value _) _ _)
  | [only] =>
    obtain ⟨v, rfl, hv⟩ := exists_constant (hf only (.head _)) (List.all_eq_true.mp h only (.head _))
    have hjoined T n c : joinedArgs (engine T (n + 2)) c [.value v] = pure v.constantText := by
      rw [joinedArgs_one, string_value hv]
    by_cases hstring : v.type = .string
    · refine ⟨v, simplified_template hi ?_, hv, hjoined⟩
      apply applyRulesUpTo_of_some (x := .value v)
      · exact .pure (congrArg some (if_pos hstring))
      · exact applyRulesUpTo_inert (inert_value v) _ _
    · refine ⟨.string v.constantText, simplified_template hi ?_, rfl, hjoined⟩
      apply applyRulesUpTo_of_some (x := callOf .string [.value v])
      · exact .pure (congrArg some (if_neg hstring))
      · apply applyRulesUpTo_of_some (x := .value (.string v.constantText))
        · exact fold?_some rfl (string_of_constant hv 999997 none .blank)
        · exact applyRulesUpTo_inert (inert_value _) _ _
  | a :: b :: more =>
    obtain ⟨text, htext⟩ := joinedArgs_constants hf h
    refine ⟨.string text, simplified_template hi ?_, rfl, htext⟩
    apply applyRulesUpTo_of_some (x := .value (.string text))
    · refine fold?_some (isFoldable_template h) ?_
      change (joinedArgs (engine .bare (999996 + 2)) .blank (a :: b :: more) >>= fun s =>
        pure (.string s) : Action Value) = _
      rw [htext]
      rfl
    · exact applyRulesUpTo_inert (inert_value _) _ _

end constants

/-- Any other template is simplified to an expression whose string is that of the parts, joined, if
it is evaluated up to two levels deeper. -/
theorem simplified_parts (hf : ∀ e ∈ es, e.Fresh)
    (hi : ∀ e ∈ es, Inert .bare Transformation.bare.run e) (h : es.all isValue = false) :
    ∃ k ≤ 2, ∀ T n c, (engine T (n + k)).string (Expr.template es).simplified c =
      joinedArgs (engine T n) c es := by
  match es with
  | [] => cases h
  | [only] =>
    have honly := hi only (.head _)
    by_cases hstring : only.type = .string
    · have hsame : (Expr.template [only]).simplified = only :=
        simplified_template hi <|
          applyRulesUpTo_of_some (.pure (congrArg some (if_pos hstring)))
            (applyRulesUpTo_inert honly _ _)
      refine ⟨0, Nat.zero_le 2, fun T n c => ?_⟩
      rw [hsame, joinedArgs_one]
      rfl
    · have hvalue : only.isValue = false := by simpa using h
      have hnone : (callOf .string [only]).isFoldable = false := by
        simp [isFoldable, callOf, children, hvalue]
      have hinert : Inert .bare Transformation.bare.run (callOf .string [only]) :=
        ⟨always_fold?_none hnone, hi⟩
      have hcall : (Expr.template [only]).simplified = callOf .string [only] :=
        simplified_template hi <|
          applyRulesUpTo_of_some (.pure (congrArg some (if_neg hstring)))
            (applyRulesUpTo_inert hinert _ _)
      refine ⟨2, Nat.le_refl 2, fun T n c => ?_⟩
      rw [hcall, joinedArgs_one]
      change (((engine T n).string only c >>= fun s => pure (Value.string s)) >>=
        Value.asString T (engine T (n + 1)) : Action String) = _
      simp [Value.asString]
  | a :: b :: more =>
    have hnone : (Expr.template (a :: b :: more)).isFoldable = false := by
      simp only [isFoldable, children, h, Bool.and_false, Bool.false_and]
    have hinert : Inert .bare Transformation.bare.run (.template (a :: b :: more)) :=
      ⟨always_fold?_none hnone, hi⟩
    have hsame : (Expr.template (a :: b :: more)).simplified = .template (a :: b :: more) :=
      simplified_template hi <| applyRulesUpTo_inert hinert _ _
    refine ⟨1, by decide, fun T n c => ?_⟩
    rw [hsame]
    rfl

end PathLanguage.Expr
