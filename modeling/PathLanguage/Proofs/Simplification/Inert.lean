/- Inert expressions: no rule applies to them or to any of their parts. What a rule makes of an
expression with inert parts has inert parts again, so that simplification comes to an inert
expression, the same one in every session. -/
import PathLanguage.Proofs.Simplification.Folding
import PathLanguage.Proofs.Simplification.Weight

namespace PathLanguage.Expr

variable {T : Transformation} {E : Engine} {P : Leaf → Prop} {e : Expr} {α : Type} {d : Nat}

/-- No rule applies to the expression or to any part of it, whatever the session. -/
inductive Inert (T : Transformation) (E : Engine) : Expr → Prop
  | intro {e : Expr} : Always (e.applyRule? T E) (· = none) → (∀ c ∈ e.children, Inert T E c) →
    Inert T E e

theorem Inert.rule (h : Inert T E e) : Always (e.applyRule? T E) (· = none) := by
  cases h
  assumption

theorem Inert.children (h : Inert T E e) : ∀ c ∈ e.children, Inert T E c := by
  cases h
  assumption

/-- What a rule may make of an expression: one with inert parts and with leaves of the same kind. -/
structure Improves (P : Leaf → Prop) (T : Transformation) (E : Engine) (r : Expr) : Prop where
  only : r.Only P
  inert : ∀ c ∈ r.children, Inert T E c

/-- A rule comes to the same in every session, and to something improved if it applies. -/
def Decides (P : Leaf → Prop) (T : Transformation) (E : Engine)
    (m : StateM Session (Option Expr)) : Prop :=
  ∃ r, Always m (· = r) ∧ ∀ x, r = some x → Improves P T E x

namespace Decides

theorem option {o : Option Expr} (h : ∀ x, o = some x → Improves P T E x) :
    Decides P T E (pure o) := ⟨o, .pure rfl, h⟩

theorem none : Decides P T E (pure none) := option nofun

theorem some {x : Expr} (h : Improves P T E x) : Decides P T E (pure (some x)) :=
  option (by rintro _ ⟨⟩; exact h)

/-- Goes on from what is the same in every session. -/
theorem bind {m : StateM Session α} {f : α → StateM Session (Option Expr)} {a : α}
    (h : Always m (· = a)) (hf : Decides P T E (f a)) : Decides P T E (m >>= f) := by
  obtain ⟨r, hr, hx⟩ := hf
  refine ⟨r, h.bind ?_, hx⟩
  rintro _ rfl
  exact hr

/-- A second rule where the first one does not apply. -/
theorem or {m : StateM Session (Option Expr)} {o : Option Expr} (h : Decides P T E m)
    (ho : ∀ x, o = Option.some x → Improves P T E x) :
    Decides P T E (do return (← m).or o) := by
  obtain ⟨r, hr, hx⟩ := h
  refine ⟨r.or o, hr.bind ?_, ?_⟩
  · rintro _ rfl
    exact .pure rfl
  · intro x hor
    rcases Option.or_eq_some_iff.mp hor with h | ⟨-, h⟩
    · exact hx x h
    · exact ho x h

end Decides

section improvements

variable {x : Expr}

theorem improves_value {v : Value} (hv : (Expr.value v).Only P) : Improves P T E (.value v) :=
  ⟨hv, nofun⟩

theorem Atom.improves (h : Atom x) : Improves P T E x where
  only := only_of_leaves h.leaves
  inert := by
    rw [h.parts]
    exact List.forall_mem_nil _

theorem improves_ofBool (b : Bool) : Improves P T E (ofBool b) := (atom_ofBool b).improves

theorem improves_emptySet : Improves P T E emptySet := improves_value (only_of_leaves rfl)

/-- An inert part in the place of the whole. -/
theorem improves_part (hx : x.Only P) (hi : Inert T E x) : Improves P T E x := ⟨hx, hi.children⟩

theorem only_call {f : SystemFunction} {args : List Expr} {bound : Option Node}
    {scope : Option Scope} (hf : P (.call f)) (hargs : ∀ a ∈ args, a.Only P)
    (hbound : ∀ n ∈ bound, P (.node n)) : (Expr.call f args bound scope).Only P := by
  refine List.forall_mem_cons.mpr ⟨hf, List.forall_mem_append.mpr ⟨?_, ?_⟩⟩
  · exact only_leavesOfAll_iff.mpr hargs
  · intro l hl
    obtain ⟨n, hn, rfl⟩ := List.mem_map.mp hl
    exact hbound n (Option.mem_toList.mp hn)

theorem only_callOf {f : SystemFunction} {args : List Expr} (hP : Leaf.Kind P)
    (hargs : ∀ a ∈ args, a.Only P) : (callOf f args).Only P :=
  only_call (hP.named _ trivial) hargs nofun

/-- A call of an inert part in the place of the whole. -/
theorem improves_callOf {f : SystemFunction} (hP : Leaf.Kind P) (hx : x.Only P)
    (hi : Inert T E x) : Improves P T E (callOf f [x]) where
  only := only_callOf hP (List.forall_mem_singleton.mpr hx)
  inert := List.forall_mem_singleton.mpr hi

theorem improves_truthOf (hP : Leaf.Kind P) (hx : x.Only P) (hi : Inert T E x) :
    Improves P T E (truthOf x) := by
  rw [truthOf]
  split
  · exact improves_part hx hi
  · exact improves_callOf hP hx hi

theorem improves_stringOf (hP : Leaf.Kind P) (hx : x.Only P) (hi : Inert T E x) :
    Improves P T E (stringOf x) := by
  rw [stringOf]
  split
  · exact improves_part hx hi
  · exact improves_callOf hP hx hi

end improvements

section leaves

/-- What cannot be folded, and has no rule of its own, is left as it is. -/
theorem always_fold?_none (h : e.isFoldable = false) : Always (fold? E e) (· = none) := by
  rw [fold?, h]
  exact .pure rfl

theorem inert_value (v : Value) : Inert T E (.value v) :=
  ⟨always_fold?_none rfl, nofun⟩

theorem inert_contextNode : Inert T E .contextNode := ⟨always_fold?_none rfl, nofun⟩

theorem inert_isLast (wanted : Bool) : Inert T E (.isLast wanted) :=
  ⟨always_fold?_none rfl, nofun⟩

theorem inert_positionRange (least most : Nat) : Inert T E (.positionRange least most) :=
  ⟨always_fold?_none rfl, nofun⟩

theorem inert_plainString : Inert T E (callOf .string []) := ⟨always_fold?_none rfl, nofun⟩

/-- Folding comes to a value, or to nothing. -/
theorem fold?_decides (hP : Leaf.Kind P) (h : e.Only P) (n : Nat) :
    Decides P T (engine T n) (fold? (engine T n) e) := by
  rw [fold?]
  cases hfold : e.isFoldable with
  | false => exact .none
  | true =>
    obtain ⟨r, hr, hvalue⟩ := folded_steady (T := T) hP (folds_of_isFoldable hfold) h n
    apply Decides.bind hr
    apply Decides.option
    intro x hx
    cases r with
    | error f => cases hx
    | ok v =>
      obtain rfl := Option.some.inj hx
      exact improves_value (hvalue v rfl)

/-- What a value at hand says as a condition; a number stands for a position. -/
def knownTruth : Expr → Option Bool
  | .value (.number _) => none
  | .value v => some v.heldTruth
  | _ => none

theorem constantTruth_known (h : e.Eager) : Always (constantTruth T E e) (· = e.knownTruth) := by
  cases e with
  | value v =>
    have hv : v.AtHand := h.value
    cases v with
    | number x => exact .pure rfl
    | _ =>
      change Always ((Value.asBoolean T E _).attempt >>= fun r => pure r.toOption) _
      rw [hv.asBoolean]
      exact .pure rfl
  | _ => exact .pure rfl

end leaves

end PathLanguage.Expr
