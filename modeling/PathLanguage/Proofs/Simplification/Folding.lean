/- Folding: what is computed of constants comes to the same in every session, unless they are lazy
node-sets. Expressions may be confined to some kind of leaves; what is folded of them is confined to
it again, whether the kind is that of names or of all that is no lazy node-set. -/
import PathLanguage.Proofs.Selection.Definite
import PathLanguage.Proofs.Simplification.Constant

namespace PathLanguage

variable {T : Transformation} {E : Engine}

/-- Results may be known to be those of the first action. -/
theorem Outcomes.imp_mem {α β : Type} {R R' : α → β → Prop} {r : Except Fault α}
    {r' : Except Fault β} (h : Outcomes R r r') (hi : ∀ x y, r = .ok x → R x y → R' x y) :
    Outcomes R' r r' := by
  cases h with
  | ok h => exact .ok (hi _ _ rfl h)
  | error f => exact .error f

/-- What is no lazy node-set. -/
def Leaf.IsEager : Leaf → Prop
  | .lazy .. => False
  | .node _ | .extent _ | .call _ | .host _ | .variable _ => True

/-- An expression that holds no lazy node-set. -/
def Expr.Eager (e : Expr) : Prop := ∀ l ∈ e.leaves, l.IsEager

namespace Value

/-- The truth of a value at hand. -/
def heldTruth : Value → Bool
  | .string s | .object s => s != ""
  | .number n => n.truth
  | .boolean b => b
  | .nodeSet (.single n _) => n.isSome
  | .nodeSet (.extent e) => !e.nodes.isEmpty
  | .nodeSet .empty | .nodeSet (.intent ..) => false

/-- The string of a value at hand, which is that of the first node, if nodes have a first one. -/
def heldText : Value → Except Fault String
  | .string s | .object s => .ok s
  | .number n => .ok n.stringValue
  | .boolean b => .ok (if b then "true" else "false")
  | .nodeSet (.single n _) => .ok ((n.map Node.stringValue).getD "")
  | .nodeSet (.extent e) => e.first.map fun n => (n.map Node.stringValue).getD ""
  | .nodeSet .empty | .nodeSet (.intent ..) => .ok ""

variable {v : Value}

theorem AtHand.asBoolean (h : v.AtHand) (T : Transformation) (E : Engine) :
    v.asBoolean T E = pure v.heldTruth := by
  cases v with
  | nodeSet ns =>
    cases ns with
    | intent id definition => exact absurd rfl (h _ rfl id definition)
    | _ => rfl
  | _ => rfl

theorem AtHand.asString (h : v.AtHand) (T : Transformation) (E : Engine) :
    v.asString T E = .ofExcept v.heldText := by
  cases v with
  | nodeSet ns =>
    cases ns with
    | intent id definition => exact absurd rfl (h _ rfl id definition)
    | extent e =>
      rw [heldText, Value.asString, NodeSet.asString, NodeSet.first]
      cases e.first <;> rfl
    | _ => rfl
  | _ => rfl

theorem atHand_iff_eager : v.AtHand ↔ (Expr.value v).Eager := by
  constructor
  · intro h l hl
    cases v with
    | nodeSet ns =>
      cases ns with
      | single n navigable =>
        obtain ⟨m, -, rfl⟩ := List.mem_map.mp hl
        trivial
      | extent e =>
        obtain rfl := List.mem_singleton.mp hl
        trivial
      | intent id definition => exact absurd rfl (h _ rfl id definition)
      | empty => cases hl
    | _ => cases hl
  · rintro h _ rfl id definition rfl
    exact h (.lazy id definition) (.head _)

/-- Values that echo one another are the same if they are at hand. -/
theorem Echo.eq_of_atHand {h : Pasts} {v' : Value} (he : v.Echo h v') (hv : v.AtHand) : v = v' := by
  cases he with
  | nodeSet hns =>
    have hne : ∀ id definition, _ ≠ NodeSet.intent id definition := hv _ rfl
    cases hns with
    | intent id definition => exact absurd rfl (hne _ _)
    | _ => rfl
  | _ => rfl

end Value

namespace Expr

theorem Eager.value {v : Value} (h : (Expr.value v).Eager) : v.AtHand :=
  Value.atHand_iff_eager.mpr h

theorem standsAlone_of_eager {v : Value} {loads : Bool} (h : (Expr.value v).Eager) :
    ∀ l ∈ v.leaves, l.StandsAlone loads := by
  intro l hl
  have heager := h l hl
  cases v with
  | nodeSet ns =>
    cases ns with
    | single n navigable =>
      obtain ⟨m, -, rfl⟩ := List.mem_map.mp hl
      trivial
    | extent e =>
      obtain rfl := List.mem_singleton.mp hl
      trivial
    | intent id definition => exact absurd rfl (h.value _ rfl id definition)
    | empty => cases hl
  | _ => cases hl

/-- Constants that are no lazy node-sets stand alone. -/
theorem standsAlone_of_values {es : List Expr} {loads : Bool} (hes : es.all isValue = true)
    (h : ∀ e ∈ es, e.Eager) : ∀ l ∈ leavesOfAll es, l.StandsAlone loads := by
  rw [leavesOfAll_eq]
  intro l hl
  obtain ⟨e, he, hl⟩ := List.mem_flatMap.mp hl
  have hvalue := List.all_eq_true.mp hes e he
  cases e with
  | value v => exact standsAlone_of_eager (h _ he) l hl
  | _ => cases hvalue

/-- The evaluation of what can be folded depends on no session. -/
theorem standsAlone_of_folds {e : Expr} (h : e.Folds) (heager : e.Eager) :
    e.StandsAlone false := by
  have hparts : ∀ l ∈ leavesOfAll e.children, l.StandsAlone false :=
    standsAlone_of_values h.constants fun c hc => Only.children (P := Leaf.IsEager) heager hc
  cases e with
  | call f args bound scope =>
    refine List.forall_mem_cons.mpr ⟨⟨?_, ?_⟩, List.forall_mem_append.mpr ⟨hparts, ?_⟩⟩
    · rintro rfl
      cases h.named _ args bound scope rfl
    · rintro rfl
      cases h.named _ args bound scope rfl
    · intro l hl
      obtain ⟨n, -, rfl⟩ := List.mem_map.mp hl
      trivial
  | compareNode op n v | compareNodes op n v =>
    have hn : ∀ l ∈ n.leaves ++ [], l.StandsAlone false := hparts
    rw [List.append_nil] at hn
    refine List.forall_mem_append.mpr ⟨hn, standsAlone_of_eager fun l hl => ?_⟩
    exact heager l (List.mem_append_right _ hl)
  | logical op a b | compare op a b | arithmetic op a b =>
    have hab : ∀ l ∈ a.leaves ++ (b.leaves ++ []), l.StandsAlone false := hparts
    rwa [List.append_nil] at hab
  | negate a =>
    have ha : ∀ l ∈ a.leaves ++ [], l.StandsAlone false := hparts
    rwa [List.append_nil] at ha
  | template parts => exact hparts
  | extension name args => exact absurd rfl (h.inner.2.2 name args)
  | reference b => exact absurd rfl (h.inner.2.1 b)
  | value v => cases h.form.1
  | positionRange | isLast | failure => exact List.forall_mem_nil _
  | _ => cases h.form.2

/-- An argument of a call with constant ones is read as a node-set that is at hand. -/
theorem nodeSetArg_atHand {c : Function.Call} (n i : Nat) (hvalues : c.args.all isValue = true)
    (h : ∀ e ∈ c.args, e.Eager) : Returns (c.nodeSetArg (engine T n) i) NodeSet.AtHand := by
  rw [Function.Call.nodeSetArg, Function.Call.arg]
  cases hi : c.args[i]? with
  | none => exact Returns.bind (P := fun _ => False) .fail fun _ h => h.elim
  | some e =>
    have hmem := List.mem_of_getElem? hi
    have hvalue := List.all_eq_true.mp hvalues e hmem
    cases e with
    | value v =>
      have hv : v.AtHand := Eager.value (h _ hmem)
      cases n with
      | zero => exact .fail
      | succ n => exact nodeSetOf_atHand hv
    | _ => cases hvalue

/-- A call that can be folded gives no lazy node-set: nodes of its own are found at once, and others
are those of an argument. -/
theorem call_atHand {f : SystemFunction} {args : List Expr} {bound : Option Node}
    {scope : Option Scope} (h : (Expr.call f args bound scope).Folds)
    (heager : (Expr.call f args bound scope).Eager) (n : Nat) (c : Context) :
    Returns (Function.Call.run T (engine T n) ⟨f, args, bound, scope, c⟩) Value.AtHand := by
  have hf : f.StandsAlone false := standsAlone_of_folds h heager (.call f) (.head _)
  by_cases hleading : f = .leading
  · subst hleading
    have hset (i : Nat) := nodeSetArg_atHand (T := T) (c := ⟨.leading, args, bound, scope, c⟩) n i
      h.constants fun e he => Only.children (P := Leaf.IsEager) heager he
    refine Returns.bind (hset 0) fun a ha => Returns.bind_any fun b => ?_
    refine Returns.bind (P := NodeSet.AtHand) ?_ fun ms hms => .pure ?_
    · refine (Function.besideFirst_atHand a b .lt).bind fun r hr => .pure ?_
      cases r with
      | none => exact ha
      | some ms => exact hr ms rfl
    · rintro _ ⟨⟩
      exact hms
  · exact Function.Call.run_atHand ⟨f, args, bound, scope, c⟩ hf hleading

/-- What can be folded comes to no lazy node-set. -/
theorem returns_atHand {e : Expr} (h : e.Folds) (heager : e.Eager) (n : Nat) :
    Returns ((engine T n).value e .blank) Value.AtHand := by
  have htyped (he : e.type ≠ .nodeSet) (hany : e.type ≠ .any) :
      Returns ((engine T n).value e .blank) Value.AtHand := by
    refine Returns.imp (engine_value_has T n e .blank) ?_
    rintro _ hv ns rfl
    exact absurd (hv hany).symm he
  cases e with
  | call f args bound scope =>
    cases n with
    | zero => exact .fail
    | succ n => exact call_atHand h heager n .blank
  | value v => cases h.form.1
  | reference b => exact absurd rfl (h.inner.2.1 b)
  | extension name args => exact absurd rfl (h.inner.2.2 name args)
  | failure f => exact absurd rfl (h.inner.1 f)
  | logical | compare | compareNode | compareNodes | arithmetic | negate | positionRange | isLast
  | template => exact htyped nofun nofun
  | _ => cases h.form.2

end Expr

/-- A kind of leaves that simplification keeps to: names are of it, lazy node-sets are not, and what
is folded of expressions with such leaves has such leaves again. -/
structure Leaf.Kind (P : Leaf → Prop) : Prop where
  named : ∀ l, l.IsNamed → P l
  eager : ∀ l, P l → l.IsEager
  folded : ∀ {e : Expr}, e.Folds → e.Only P → ∀ T n,
    Returns ((engine T n).value e .blank) fun v => (Expr.value v).Only P

theorem Leaf.kind_named : Kind IsNamed where
  named _ h := h
  eager l h := by
    cases l with
    | call | host | «variable» => trivial
    | node | extent | lazy => exact h.elim
  folded h hfresh T n := (Expr.returns_constant h hfresh n).imp fun _ => Expr.fresh_value

theorem Leaf.kind_eager : Kind IsEager where
  named l h := by
    cases l with
    | call | host | «variable» => trivial
    | node | extent | lazy => exact h.elim
  eager _ h := h
  folded h heager T n := (Expr.returns_atHand h heager n).imp fun _ => Value.atHand_iff_eager.mp

namespace Expr

variable {P : Leaf → Prop} {e : Expr}

theorem Only.isEager (h : e.Only P) (hP : Leaf.Kind P) : e.Eager := fun l hl => hP.eager l (h l hl)

/-- What can be folded comes to the same in every session: to a value or to a fault. -/
theorem folded_steady (hP : Leaf.Kind P) (h : e.Folds) (he : e.Only P) (n : Nat) :
    ∃ r : Except Fault Value, Always ((engine T n).value e .blank).attempt (· = r) ∧
      ∀ v, r = .ok v → (Expr.value v).Only P := by
  have hreturns := hP.folded h he T n
  have hsame : Action.Sessionless T false ((engine T n).value e .blank) := by
    intro past hloads s s' hs
    have hecho := e.echo_self past (by rw [hloads]; exact standsAlone_of_folds h (he.isEager hP))
    rcases (engine_echoes T past (Nat.le_refl n)).value .blank hecho s s' hs with hg | ⟨hr, ht⟩
    · exact .inl hg
    · refine .inr ⟨hr.imp_mem fun x y hx hxy => hxy.eq_of_atHand ?_, ht⟩
      exact ((hreturns s x hx).isEager hP).value
  refine ⟨(((engine T n).value e .blank).attempt.run {}).1, fun s => ?_, hreturns {}⟩
  exact hsame.same nofun nofun

end Expr

end PathLanguage
