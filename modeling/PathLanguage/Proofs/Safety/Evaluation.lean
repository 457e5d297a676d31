/- The engine is safe at every depth. -/
import PathLanguage.Proofs.Safety.Expr

namespace PathLanguage

open Setting (Ensures Steps)

variable {S : Setting} {s : Session} {E : Engine}

namespace Expr

theorem reduceAll_safe (hE : E.Safe S) (mask : Dependencies) {c : Context}
    (hc : c.Fits S.forest s) {es : List Expr} (he : ∀ e ∈ es, e.Fits S.forest s) :
    S.Ensures s (reduceAll E mask c es) fun r t => ∀ e ∈ r.1, e.Fits S.forest t := by
  induction es generalizing s with
  | nil => exact .pure (by simp)
  | cons e es ih =>
    refine (hE.reduce (he e (by simp)) hc).bind fun ⟨r, a⟩ t _ hst hr => ?_
    refine (ih (hc.mono hst.toKeeps) fun e' he' => (he e' (by simp [he'])).mono hst.toKeeps).bind
      fun ⟨rs, b⟩ u _ htu hrs => .pure ?_
    intro x hx
    rcases List.mem_cons.mp hx with rfl | hx
    · exact hr.mono htu.toKeeps
    · exact hrs x hx

theorem reduceToValue_safe (hE : E.Safe S) (mask : Dependencies) {c : Context}
    (hc : c.Fits S.forest s) {e : Expr} (he : e.Fits S.forest s) (changed : Bool) :
    S.Ensures s (reduceToValue E mask c e changed) fun r t => r.1.Fits S.forest t := by
  refine .ite (fun _ => .pure he) fun _ => ?_
  refine (Ensures.outcome (hE.value he hc)).bind fun r t _ hst hr => ?_
  split
  · next v => exact .pure (hr v rfl)
  · exact .throw
  · exact .pure (he.mono hst.toKeeps)

theorem reduceOne_safe (hE : E.Safe S) (mask : Dependencies) {c : Context}
    (hc : c.Fits S.forest s) {make : Expr → Expr} {e : Expr} (he : e.Fits S.forest s)
    (hm : ∀ t e, s.Keeps t → e.Fits S.forest t → (make e).Fits S.forest t) :
    S.Ensures s (reduceOne E mask c make e) fun r t => r.1.Fits S.forest t :=
  (hE.reduce he hc).bind fun _ t _ hst hr =>
    reduceToValue_safe hE mask (hc.mono hst.toKeeps) (hm t _ hst.toKeeps hr) _

theorem reduceTwo_safe (hE : E.Safe S) (mask : Dependencies) {c : Context}
    (hc : c.Fits S.forest s) {make : Expr → Expr → Expr} {l r : Expr} (hl : l.Fits S.forest s)
    (hr : r.Fits S.forest s)
    (hm : ∀ t l r, l.Fits S.forest t → r.Fits S.forest t → (make l r).Fits S.forest t) :
    S.Ensures s (reduceTwo E mask c make l r) fun r t => r.1.Fits S.forest t := by
  refine (hE.reduce hl hc).bind fun ⟨l, a⟩ t _ hst hl => ?_
  refine (hE.reduce (hr.mono hst.toKeeps) (hc.mono hst.toKeeps)).bind fun ⟨r, b⟩ u _ htu hr => ?_
  exact reduceToValue_safe hE mask (hc.mono (hst.trans htu).toKeeps)
    (hm u l r (hl.mono htu.toKeeps) hr) _

theorem reduceMany_safe (hE : E.Safe S) (mask : Dependencies) {c : Context}
    (hc : c.Fits S.forest s) {make : List Expr → Expr} {es : List Expr}
    (he : ∀ e ∈ es, e.Fits S.forest s)
    (hm : ∀ t es, (∀ e ∈ es, e.Fits S.forest t) → (make es).Fits S.forest t) :
    S.Ensures s (reduceMany E mask c make es) fun r t => r.1.Fits S.forest t :=
  (reduceAll_safe hE mask hc he).bind fun _ t _ hst hr =>
    reduceToValue_safe hE mask (hc.mono hst.toKeeps) (hm t _ hr) _

theorem boundNode_safe (mask : Dependencies) (f : SystemFunction) (arity : Nat)
    {bound : Option Node} (hb : ∀ n ∈ bound, S.forest.Holds n) {c : Context}
    (hc : c.Fits S.forest s) :
    S.Ensures s (boundNode mask f arity bound c) fun r _ => ∀ n ∈ r, S.forest.Holds n := by
  unfold boundNode
  extract_lets own
  split
  · next n => exact .pure hb
  · exact .ite (fun _ => (Function.Call.node_safe hc).map fun n _ hn => by simpa using hn)
      fun _ => .pure (by simp)

theorem reduce_safe (hE : E.Safe S) (mask : Dependencies) {e : Expr} (he : e.Fits S.forest s)
    {c : Context} (hc : c.Fits S.forest s) :
    S.Ensures s (e.reduce E mask c) fun r t => r.1.Fits S.forest t := by
  refine .ite (fun _ => .pure he) fun _ => ?_
  extract_lets inner
  have hone : S.Ensures s (do
      return (Expr.value (.nodeSet (.ofOption (← E.head (← E.cursor e c false)))), true))
      fun r t => r.1.Fits S.forest t :=
    (hE.cursor he hc).bind fun r t _ _ hr =>
      (hE.head hr.1).map fun n _ hn => NodeSet.fits_ofOption.mpr hn
  cases e with
  | root => exact hone
  | contextNode => exact hone
  | parentNode => exact hone
  | currentNode => exact hone
  | «attribute» => exact hone
  | axis along test origin =>
    refine (Function.Call.node_safe hc).bind fun n t _ _ hn => .pure ?_
    rw [Expr.Fits, leaves, fits_nodes]
    simpa using hn
  | path start along test predicates =>
    rw [Expr.Fits, leaves, fits_append, fits_leavesOfAll] at he
    refine (hE.reduce he.1 hc).bind fun r t _ hst hs => ?_
    refine .ite (fun _ => .pure fits_nil) fun _ => ?_
    refine (reduceAll_safe hE inner (hc.mono hst.toKeeps) fun p hp =>
      (he.2 p hp).mono hst.toKeeps).bind fun q u _ htu hps => .pure ?_
    rw [Expr.Fits, leaves, fits_append, fits_leavesOfAll]
    exact ⟨hs.mono htu.toKeeps, hps⟩
  | filter base predicate =>
    rw [Expr.Fits, leaves, fits_append] at he
    refine (hE.reduce he.1 hc).bind fun r t _ hst hb => ?_
    refine .ite (fun _ => .pure hb) fun _ => ?_
    refine (hE.reduce (he.2.mono hst.toKeeps) (hc.mono hst.toKeeps)).bind
      fun q u _ htu hp => .pure ?_
    exact fits_append.mpr ⟨hb.mono htu.toKeeps, hp⟩
  | distinct base =>
    have hbase : base.Fits S.forest s := he
    exact (hE.reduce hbase hc).bind fun _ _ _ _ hb => .pure hb
  | distinctBy base key =>
    rw [Expr.Fits, leaves, fits_append] at he
    refine (hE.reduce he.1 hc).bind fun r t _ hst hb => ?_
    refine (hE.reduce (he.2.mono hst.toKeeps) (hc.mono hst.toKeeps)).bind
      fun q u _ htu hk => .pure ?_
    exact fits_append.mpr ⟨hb.mono htu.toKeeps, hk⟩
  | sorted base keys rules =>
    rw [Expr.Fits, leaves, fits_append, fits_leavesOfAll] at he
    refine (hE.reduce he.1 hc).bind fun r t _ hst hb => ?_
    refine (reduceAll_safe hE _ (hc.mono hst.toKeeps) fun k hk =>
      (he.2 k hk).mono hst.toKeeps).bind fun q u _ htu hks => .pure ?_
    rw [Expr.Fits, leaves, fits_append, fits_leavesOfAll]
    exact ⟨hb.mono htu.toKeeps, hks⟩
  | call f args bound scope =>
    rw [Expr.Fits, leaves, fits_cons, fits_append, fits_leavesOfAll, fits_nodes] at he
    refine (reduceAll_safe hE mask hc he.2.1).bind fun r t _ hst ha => ?_
    refine (boundNode_safe mask f _ (fun n hn => he.2.2 n (by simpa using hn))
      (hc.mono hst.toKeeps)).bind fun b u _ htu hb => ?_
    refine reduceToValue_safe hE mask (hc.mono (hst.trans htu).toKeeps) ?_ true
    rw [Expr.Fits, leaves, fits_cons, fits_append, fits_leavesOfAll, fits_nodes]
    exact ⟨trivial, fun x hx => (ha x hx).mono htu.toKeeps, fun n hn => hb n (by simpa using hn)⟩
  | set op l r =>
    rw [Expr.Fits, leaves, fits_append] at he
    exact reduceTwo_safe hE mask hc he.1 he.2 fun _ _ _ hl hr => fits_append.mpr ⟨hl, hr⟩
  | logical op l r =>
    rw [Expr.Fits, leaves, fits_append] at he
    exact reduceTwo_safe hE mask hc he.1 he.2 fun _ _ _ hl hr => fits_append.mpr ⟨hl, hr⟩
  | compare op l r =>
    rw [Expr.Fits, leaves, fits_append] at he
    exact reduceTwo_safe hE mask hc he.1 he.2 fun _ _ _ hl hr => fits_append.mpr ⟨hl, hr⟩
  | arithmetic op l r =>
    rw [Expr.Fits, leaves, fits_append] at he
    exact reduceTwo_safe hE mask hc he.1 he.2 fun _ _ _ hl hr => fits_append.mpr ⟨hl, hr⟩
  | compareNode op n v =>
    rw [Expr.Fits, leaves, fits_append] at he
    exact reduceOne_safe hE mask hc he.1 fun _ _ hk hn => fits_append.mpr ⟨hn, he.2.mono hk⟩
  | compareNodes op n v =>
    rw [Expr.Fits, leaves, fits_append] at he
    exact reduceOne_safe hE mask hc he.1 fun _ _ hk hn => fits_append.mpr ⟨hn, he.2.mono hk⟩
  | negate operand =>
    have hoperand : operand.Fits S.forest s := he
    exact reduceOne_safe hE mask hc hoperand fun _ _ _ hn => hn
  | extension name args =>
    rw [Expr.Fits, leaves, fits_cons, fits_leavesOfAll] at he
    exact reduceMany_safe hE mask hc he.2 fun _ _ h =>
      fits_cons.mpr ⟨trivial, fits_leavesOfAll.mpr h⟩
  | template parts =>
    rw [Expr.Fits, leaves, fits_leavesOfAll] at he
    exact reduceMany_safe hE mask hc he fun _ _ h => fits_leavesOfAll.mpr h
  | reference => exact reduceToValue_safe hE mask hc he false
  | positionRange => exact reduceToValue_safe hE mask hc he false
  | isLast => exact reduceToValue_safe hE mask hc he false
  | value => exact reduceToValue_safe hE mask hc he false
  | failure => exact reduceToValue_safe hE mask hc he false

end Expr

theorem exhausted_safe (S : Setting) : Engine.exhausted.Safe S where
  toOrderly := engine_orderly S.forest S.transformation 0
  value _ _ := .fail
  boolean _ _ := .fail
  number _ _ := .fail
  string _ _ := .fail
  nodeSet _ _ := .fail
  cursor _ _ := .fail
  reduce _ _ := .fail
  advance hc := .pure hc.fits
  measure hc := .pure hc.fits
  drain _ := .fail
  find _ := .fail
  search _ _ := .fail

/-- At every depth evaluation keeps sessions sound, remembers what was known, and gives fitting
results. -/
theorem engine_safe {S : Setting} (hS : S.Safe) (n : Nat) :
    (engine S.transformation n).Safe S := by
  induction n with
  | zero => exact exhausted_safe S
  | succ n ih =>
    exact {
      toOrderly := engine_orderly S.forest S.transformation (n + 1)
      value := fun he hc => Expr.evaluate_safe hS ih he hc
      boolean := fun he hc => Expr.evaluateBoolean_safe hS ih he hc
      number := fun he hc => Expr.evaluateNumber_safe hS ih he hc
      string := fun he hc => Expr.evaluateString_safe hS ih he hc
      nodeSet := fun he hc => Expr.evaluateNodeSet_safe ih he hc
      cursor := fun he hc => Expr.enumerate_safe hS ih he hc _
      reduce := fun he hc => Expr.reduce_safe ih _ he hc
      advance := fun hc => Cursor.next_fits ih hc
      measure := fun hc => Cursor.size_fits ih hc
      drain := fun hc => Cursor.drain_safe ih hc
      find := fun hc => Cursor.find_safe ih hc
      search := fun hr hc => Key.search_safe hS ih _ _ hr hc }

end PathLanguage
