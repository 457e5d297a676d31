/- The static type of an expression is the type of the values that it evaluates to. -/
import PathLanguage.Evaluation
import PathLanguage.Proofs.Session.Returns

namespace PathLanguage

variable {T : Transformation} {E : Engine}

/-- A value of a type, if the type is known. -/
def Value.Has (v : Value) (type : DataType) : Prop := type ≠ .any → v.type = type

theorem Value.has_type (v : Value) : v.Has v.type := fun _ => rfl

theorem Value.has_any (v : Value) : v.Has .any := fun h => absurd rfl h

theorem Value.Has.number {v : Value} (h : v.Has .number) : ∃ x, v = .number x := by
  cases v with
  | number x => exact ⟨x, rfl⟩
  | _ => exact absurd (h nofun) nofun

theorem Value.Has.boolean {v : Value} (h : v.Has .boolean) : ∃ b, v = .boolean b := by
  cases v with
  | boolean b => exact ⟨b, rfl⟩
  | _ => exact absurd (h nofun) nofun

theorem Value.Has.string {v : Value} (h : v.Has .string) : ∃ s, v = .string s := by
  cases v with
  | string s => exact ⟨s, rfl⟩
  | _ => exact absurd (h nofun) nofun

namespace Function

theorem sortedSet_has (ns : List Node) : Returns (sortedSet ns) (·.Has .nodeSet) :=
  .bind_any fun _ => .pure (Value.has_type _)

theorem byId_has (v : Value) (n : Node) : Returns (byId T E v n) (·.Has .nodeSet) :=
  .bind_any fun _ => sortedSet_has _

theorem byKey_has (name : String) (v : Value) (scope : Option Scope) (n : Node) (c : Context) :
    Returns (byKey T E name v scope n c) (·.Has .nodeSet) := by
  refine .bind_any fun keyName => .ite (fun _ => ?_) fun _ => ?_
  · exact .bind_any fun _ => .bind_any fun _ => .bind_any fun _ => sortedSet_has _
  · exact .bind_any fun _ => .bind_any fun _ => sortedSet_has _

theorem documents_has (v : Value) (base : Option NodeSet) (scope : Option Scope) :
    Returns (documents T E v base scope) (·.Has .nodeSet) := by
  unfold documents
  extract_lets load finish
  have hload : ∀ requests, Returns (load requests) (·.Has .nodeSet) :=
    fun _ => .bind_any fun _ => sortedSet_has _
  have hfinish : ∀ explicit, Returns (finish explicit) (·.Has .nodeSet) := by
    intro explicit
    simp only [finish]
    split
    · exact .bind_any fun _ => hload _
    · exact .bind_any fun _ => .bind_any fun _ => hload _
  split
  · exact .bind_any fun _ => hfinish _
  · exact hfinish _

/-- A call gives a value of the type in the signature of its function. -/
theorem Call.run_has (c : Call) : Returns (c.run T E) (·.Has c.function.result) := by
  obtain ⟨f, args, bound, scope, context⟩ := c
  cases f with
  | last | position | true | false => exact .pure (Value.has_type _)
  | current | localName | namespaceUri | name | generateId | not | boolean | floor | ceiling
  | round | string | stringLength | normalizeSpace | concat =>
    exact .bind_any fun _ => .pure (Value.has_type _)
  | count | lang | sum | startsWith | contains | substringBefore | substringAfter
  | functionAvailable | elementAvailable | unparsedEntityUri =>
    exact .bind_any fun _ => .bind_any fun _ => .pure (Value.has_type _)
  | substring | translate | hasSameNode | leading | trailing =>
    exact .bind_any fun _ => .bind_any fun _ => .bind_any fun _ => .pure (Value.has_type _)
  | formatNumber =>
    exact .bind_any fun _ => .bind_any fun _ => .bind_any fun _ => .bind_any fun _ =>
      .pure (Value.has_type _)
  | id => exact .bind_any fun v => .bind_any fun n => byId_has v n
  | key => exact .bind_any fun _ => .bind_any fun v => .bind_any fun n => byKey_has _ v _ n _
  | document => exact .bind_any fun v => .bind_any fun base => documents_has v base _
  | number =>
    cases args with
    | nil => exact .bind_any fun _ => .pure (Value.has_type _)
    | cons e es => exact .bind_any fun _ => .pure (Value.has_type _)
  | systemProperty => exact .bind_any fun _ => .bind_any fun _ => .pure (Value.has_any _)

end Function

namespace Expr

theorem type_of_isNodeSetExpr {e : Expr} (h : e.isNodeSetExpr = true) : e.type = .nodeSet := by
  cases e with
  | root | contextNode | parentNode | currentNode | «attribute» | path | axis | filter | set
  | distinct | distinctBy | sorted => rfl
  | _ => cases h

theorem evaluate_has (e : Expr) (c : Context) : Returns (e.evaluate T E c) (·.Has e.type) := by
  cases e with
  | value v => exact .pure (Value.has_type v)
  | call f args bound scope => exact Function.Call.run_has ⟨f, args, bound, scope, c⟩
  | reference b =>
    simp only [evaluate, type]
    cases b.constant with
    | some k => exact .pure k.toValue.has_type
    | none => exact fun _ _ _ => Value.has_any _
  | extension name args => exact fun _ _ _ => Value.has_any _
  | failure f => exact .throw
  | _ => exact .bind_any fun _ => .pure (Value.has_type _)

end Expr

/-- At every depth values have the static types of their expressions. -/
theorem engine_value_has (T : Transformation) (depth : Nat) (e : Expr) (c : Context) :
    Returns ((engine T depth).value e c) (·.Has e.type) := by
  cases depth with
  | zero => exact .fail
  | succ n => exact e.evaluate_has c

end PathLanguage
