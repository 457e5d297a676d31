/- The rules for numeric comparisons: tests for emptiness stand in for comparisons of a length with
zero, and the rules hold in either order of the operands. -/
import PathLanguage.Proofs.Expr.Type
import PathLanguage.Proofs.Simplification.Position

namespace PathLanguage

open PathLanguage.Action (Within)
open Number (unit unit_pos signedTicks)

section zero

variable {x : Number}

theorem Number.eq_zero (h : x.eq 0 = true) : ∃ s t g, t = 0 ∧ x = .finite s t g := by
  obtain ⟨g0, h0⟩ := Expr.zero_eq
  rw [h0] at h
  cases x with
  | nan => cases h
  | infinite b => cases b <;> cases h
  | finite s t g =>
    rw [eq_finite_iff] at h
    refine ⟨s, t, g, ?_, rfl⟩
    simp only [signedTicks, Bool.false_eq_true, if_false, Nat.zero_mul] at h
    split at h <;> omega

theorem Number.ofNat_cases (n : Nat) : n ≠ 0 ∧ ofNat n = .infinite false ∨
    ∃ r g, (r = 0 ↔ n = 0) ∧ ofNat n = .finite false r g := by
  rcases Nat.eq_zero_or_pos n with rfl | hn
  · obtain ⟨g, hg⟩ := ofNat_eq (show 0 < 1 <<< 53 by decide)
    exact .inr ⟨_, g, by rw [Nat.zero_mul], hg⟩
  · obtain h | ⟨r, g, hr, h⟩ := ofTicks_rounded false (n * unit)
    · exact .inl ⟨Nat.ne_of_gt hn, h⟩
    · have := hr (Nat.ne_of_gt (Nat.mul_pos hn unit_pos))
      have := one_shift_pos (n * unit).log2
      exact .inr ⟨r, g, by omega, h⟩

theorem Number.zero_le_ofNat (h : x.eq 0 = true) (n : Nat) : x.le (ofNat n) = true := by
  obtain ⟨s, t, g, ht, rfl⟩ := eq_zero h
  obtain ⟨-, h⟩ | ⟨r, g', -, h⟩ := ofNat_cases n
  · rw [h]
    rfl
  · rw [h, le_finite]
    simp only [signedTicks, Bool.false_eq_true, if_false]
    split <;> omega

theorem Number.ofNat_le_zero (h : x.eq 0 = true) (n : Nat) : (ofNat n).le x = (n == 0) := by
  obtain ⟨s, t, g, ht, rfl⟩ := eq_zero h
  obtain ⟨hn, h⟩ | ⟨r, g', hr, h⟩ := ofNat_cases n
  · rw [h, beq_false_of_ne hn]
    rfl
  · rw [h, Bool.eq_iff_iff, le_finite, beq_iff_eq, ← hr]
    simp only [signedTicks, Bool.false_eq_true, if_false]
    split <;> omega

theorem Number.ofNat_eq_zero (h : x.eq 0 = true) (n : Nat) : (ofNat n).eq x = (n == 0) := by
  obtain ⟨s, t, g, ht, rfl⟩ := eq_zero h
  obtain ⟨hn, h⟩ | ⟨r, g', hr, h⟩ := ofNat_cases n
  · rw [h, beq_false_of_ne hn]
    rfl
  · rw [h, Bool.eq_iff_iff, eq_finite_iff, beq_iff_eq, ← hr]
    simp only [signedTicks, Bool.false_eq_true, if_false]
    split <;> omega

/-- How a count compares with zero. -/
theorem Comparison.numbers_zero (op : Comparison) (h : x.eq 0 = true) (n : Nat) :
    op.numbers (.ofNat n) x = match op with
      | .equal | .atMost => n == 0
      | .unequal | .greater => !(n == 0)
      | .atLeast => true
      | .less => false := by
  have hx : x.isNaN = false := by
    obtain ⟨s, t, g, -, rfl⟩ := Number.eq_zero h
    rfl
  have hle := Number.ofNat_le_zero h n
  cases op with
  | equal => exact Number.ofNat_eq_zero h n
  | unequal => exact congrArg not (Number.ofNat_eq_zero h n)
  | less =>
    exact (Number.lt_eq_not_le (Number.isNaN_ofNat n) hx).trans
      (congrArg not (Number.zero_le_ofNat h n))
  | atMost => exact hle
  | greater => exact (Number.lt_eq_not_le hx (Number.isNaN_ofNat n)).trans (congrArg not hle)
  | atLeast => exact Number.zero_le_ofNat h n

end zero

theorem Node.insertInOrder_ne_nil (n : Node) (ns : List Node) : n.insertInOrder ns ≠ [] := by
  cases ns with
  | nil => exact nofun
  | cons m rest =>
    rw [insertInOrder]
    split <;> exact nofun

theorem Extent.isEmpty_of_sort {e e' : Extent} (h : e.sort = .ok e') :
    e'.nodes.isEmpty = e.nodes.isEmpty := by
  unfold sort at h
  split at h
  · cases h
    rfl
  · split at h
    · cases h
      simp [ofNodes]
    · unfold Node.sortDistinct at h
      split at h
      · cases h
        cases hn : e.nodes with
        | nil => rfl
        | cons n ns => simp [ofNodes, Node.insertInOrder_ne_nil]
      · cases h

namespace NodeSet

/-- Whether the nodes are at hand and not only defined. -/
def isKnown : NodeSet → Bool
  | .intent .. => false
  | _ => true

/-- A set of known nodes is true just if their count is not zero. -/
theorem count_within {T : Transformation} (E E' : Engine) {ns : NodeSet} (h : ns.isKnown = true) :
    Within (do return !((← ns.count T E) == 0)) (ns.asBoolean T E') := by
  cases ns with
  | empty => exact .refl _
  | single n navigable => cases n <;> exact .refl _
  | intent => cases h
  | extent e =>
    rw [count]
    cases hs : e.sort with
    | error f => exact .fail
    | ok e' =>
      have hlength : (e'.nodes.length == 0) = e.nodes.isEmpty := by
        rw [← Extent.isEmpty_of_sort hs]
        cases e'.nodes <;> rfl
      exact .of_eq (congrArg (fun b => (pure !b : Action Bool)) hlength)

end NodeSet

/-- In a session an expression comes out true or false, at some depth of evaluation. -/
def Expr.Says (T : Transformation) (s : Session) (c : Context) (e : Expr) (b : Bool) : Prop :=
  ∃ depth t, ((engine T depth).boolean e c).attempt.run s = (.ok b, t)

namespace Expr

variable {T : Transformation} {s : Session} {c : Context}

theorem Settles.says_iff {e : Expr} {a b : Bool} (h : Settles T c e b) :
    Says T s c e a ↔ a = b := by
  refine ⟨?_, ?_⟩
  · rintro ⟨depth, t, hr⟩
    exact h.only depth s a (congrArg Prod.fst hr)
  · rintro rfl
    exact ⟨2, s, by rw [h.reached 0]; rfl⟩

/-- An expression whose nodes are known once it is evaluated: no selection, and no definition of
nodes to be read. -/
structure Known (T : Transformation) (c : Context) (e : Expr) : Prop where
  form : e.isNodeSetExpr = false
  value : ∀ d, Returns ((engine T d).value e c) fun v => ∀ ns, v = .nodeSet ns → ns.isKnown = true

theorem boolean_callOf (f : SystemFunction) (args : List Expr) (n : Nat) :
    (engine T (n + 1)).boolean (callOf f args) c =
      (engine T n).value (callOf f args) c >>= (·.asBoolean T (engine T n)) := rfl

theorem value_not (e : Expr) (n : Nat) : (engine T (n + 1)).value (callOf .not [e]) c =
    do return .boolean (!(← (engine T n).boolean e c)) := rfl

theorem value_boolean (e : Expr) (n : Nat) : (engine T (n + 1)).value (callOf .boolean [e]) c =
    do return .boolean (← (engine T n).boolean e c) := rfl

theorem value_string (e : Expr) (n : Nat) : (engine T (n + 1)).value (callOf .string [e]) c =
    do return .string (← (engine T n).string e c) := rfl

theorem value_plainString (n : Nat) : (engine T (n + 1)).value (callOf .string []) c =
    do return .string (← (do return (← c.node).stringValue : Action String)) := rfl

/-- Whether a text is not empty is its truth. -/
theorem text_truth (k : String) : (!(k.length == 0)) = (k != "") := by
  rw [bne, Bool.not_inj_iff, Bool.eq_iff_iff, beq_iff_eq, beq_iff_eq, String.length_eq_zero_iff]

/-- A text is true as a boolean just if its length is not zero. -/
theorem boolean_of_string {e : Expr} (h : e.type = .string) (n : Nat) :
    ∃ d, Within (do return !((← (engine T n).string e c).length == 0))
      ((engine T d).boolean e c) := by
  simp only [text_truth]
  cases n with
  | zero => exact ⟨0, .fail⟩
  | succ m =>
    have hvalue : Within (((engine T m).value e c >>= (·.asString T (engine T m))) >>=
        fun text => return text != "")
        ((engine T m).value e c >>= (·.asBoolean T (engine T m))) := by
      rw [bind_assoc]
      refine .bind_of (h ▸ engine_value_has T m e c) fun v hv => ?_
      obtain ⟨text, rfl⟩ := hv.string
      exact .refl _
    cases e with
    | template parts =>
      refine ⟨m + 3, .of_eq ?_⟩
      rw [show (engine T (m + 3)).boolean (.template parts) c =
        (do return .string (← (engine T (m + 1)).string (.template parts) c)) >>=
          (Value.asBoolean T (engine T (m + 2)) ·) from rfl, bind_assoc]
      rfl
    | value | call | reference => exact ⟨m + 1, hvalue⟩
    | _ => cases h

/-- What takes the place of a text is true just if the length of the text is not zero. -/
theorem boolean_stringOf (e : Expr) (n : Nat) :
    ∃ d, Within (do return !((← (engine T n).string e c).length == 0))
      ((engine T d).boolean (stringOf e) c) := by
  unfold stringOf
  split
  · exact boolean_of_string ‹_› n
  · refine ⟨n + 2, .of_eq ?_⟩
    simp only [boolean_callOf, value_string, bind_assoc, pure_bind, Value.asBoolean, text_truth]

/-- Known nodes are true as a boolean just if their count is not zero. -/
theorem boolean_of_known {e : Expr} (h : e.Known T c) (n : Nat) :
    ∃ d, Within (do return !((← (← (engine T n).nodeSet e c).count T (engine T n)) == 0))
      ((engine T d).boolean e c) := by
  cases n with
  | zero => exact ⟨0, .fail⟩
  | succ m =>
    have hvalue (k : Nat) : Within (((engine T k).value e c >>= nodeSetOf) >>= fun ns => do
        return !((← ns.count T (engine T (m + 1))) == 0))
        ((engine T k).value e c >>= (·.asBoolean T (engine T k))) := by
      rw [bind_assoc]
      refine .bind_of (h.value k) fun v hv => ?_
      cases v with
      | nodeSet ns => exact NodeSet.count_within _ _ (hv ns rfl)
      | _ => exact .fail
    have hscalar (ht : e.type ≠ .any ∧ e.type ≠ .nodeSet) (a : Action Bool) :
        Within (((engine T m).value e c >>= nodeSetOf) >>= fun ns => do
          return !((← ns.count T (engine T (m + 1))) == 0)) a := by
      intro s b t hr
      rw [bind_assoc] at hr
      obtain ⟨v, u, hv, hr⟩ := Action.bind_ok.mp hr
      have htype := engine_value_has T m e c s v (congrArg Prod.fst hv) ht.1
      cases v with
      | nodeSet ns => exact absurd htype.symm ht.2
      | _ => cases hr
    cases e with
    | value v => exact ⟨m + 2, hvalue (m + 1)⟩
    | call | extension | reference | template | failure => exact ⟨m + 1, hvalue m⟩
    | logical | compare | compareNode | compareNodes | positionRange | isLast | arithmetic
    | negate => exact ⟨0, hscalar (by simp [type]) _⟩
    | _ => cases h.form

theorem operand?_eq_some {f : SystemFunction} {e a : Expr} :
    e.operand? f = some a ↔ ∃ scope, e = .call f [a] none scope := by
  unfold operand?
  split
  · next g b scope =>
    split
    · next hg => simp [hg]
    · next hg => simp [hg]
  · next h =>
    refine iff_of_false nofun ?_
    rintro ⟨scope, rfl⟩
    exact h f a scope rfl

/-- What takes the place of a count is true just if the count is not zero. -/
theorem boolean_counted {l thing : Expr} (h : l.counted? = some thing)
    (hcount : ∀ e, l.operand? .count = some e → e.Known T c) (n : Nat) : ∃ a : Action Nat,
      (engine T (n + 1)).value l c = (do return .number (.ofNat (← a))) ∧
      ∃ d, Within (do return !((← a) == 0)) ((engine T d).boolean thing c) := by
  unfold counted? at h
  split at h
  · next nodes hnodes =>
    obtain rfl := Option.some.inj h
    have hthing := boolean_of_known (hcount nodes hnodes) n
    obtain ⟨scope, rfl⟩ := operand?_eq_some.mp hnodes
    refine ⟨do (← (engine T n).nodeSet nodes c).count T (engine T n), ?_, ?_⟩
    · rw [bind_assoc]
      rfl
    · simpa only [bind_assoc] using hthing
  · next text _ htext =>
    obtain rfl := Option.some.inj h
    obtain ⟨scope, rfl⟩ := operand?_eq_some.mp htext
    refine ⟨do return (← (engine T n).string text c).length, ?_, ?_⟩
    · rw [bind_assoc]
      rfl
    · simpa only [bind_assoc, pure_bind] using boolean_stringOf text n
  · split at h
    · next hplain =>
      obtain rfl := Option.some.inj h
      obtain ⟨scope, rfl⟩ := isPlainCall_iff.mp hplain
      refine ⟨do return (← (do return (← c.node).stringValue : Action String)).length, ?_, n + 2,
        .of_eq ?_⟩
      · rw [bind_assoc]
        rfl
      · simp only [boolean_callOf, value_plainString, bind_assoc, pure_bind, Value.asBoolean,
          text_truth]
    · cases h

theorem says_not {e : Expr} {b : Bool} (h : Says T s c e b) :
    Says T s c (callOf .not [e]) !b := by
  obtain ⟨d, t, h⟩ := h
  refine ⟨d + 2, t, ?_⟩
  have : (engine T (d + 2)).boolean (callOf .not [e]) c =
      (engine T d).boolean e c >>= fun b => pure !b := by
    simp only [boolean_callOf, value_not, bind_assoc, pure_bind, Value.asBoolean]
  rw [this]
  exact Action.bind_ok.mpr ⟨b, t, h, rfl⟩

theorem says_truthOf {e : Expr} {b : Bool} (h : Says T s c e b) : Says T s c (truthOf e) b := by
  unfold truthOf
  split
  · exact h
  · obtain ⟨d, t, h⟩ := h
    refine ⟨d + 2, t, ?_⟩
    have : (engine T (d + 2)).boolean (callOf .boolean [e]) c = (engine T d).boolean e c := by
      simp only [boolean_callOf, value_boolean, bind_assoc, pure_bind, Value.asBoolean, bind_pure]
    rw [this]
    exact h

/-- A comparison of a length with zero says what the test that takes its place says. -/
theorem compareWithZero?_says {op : Comparison} {l r e : Expr} {b : Bool}
    (h : compareWithZero? op l r = some e) (hcount : ∀ e, l.operand? .count = some e → e.Known T c)
    (hb : Says T s c (.compare op l r) b) : Says T s c e b := by
  unfold compareWithZero? at h
  split at h
  · next x thing hr hl =>
    obtain rfl := number?_eq_some.mp hr
    split at h
    · cases h
    · next hx =>
      rw [Bool.not_eq_true', Bool.not_eq_false] at hx
      obtain ⟨depth, t, hrun⟩ := hb
      match depth with
      | 0 | 1 => cases hrun
      | n + 2 =>
        obtain ⟨a, hvalue, d, hd⟩ := boolean_counted (T := T) (c := c) hl hcount n
        have hcompare : (engine T (n + 2)).boolean (.compare op l (.value (.number x))) c =
            a >>= fun k => pure (op.numbers (.ofNat k) x) := by
          change (engine T (n + 1)).value l c >>= (fun a => pure (.number x) >>=
            a.compare T (engine T (n + 1)) op) = _
          rw [hvalue, bind_assoc]
          simp only [pure_bind, compare_numbers]
        rw [hcompare] at hrun
        obtain ⟨k, u, hk, hrun⟩ := Action.bind_ok.mp hrun
        obtain ⟨rfl, rfl⟩ : op.numbers (.ofNat k) x = b ∧ u = t := by
          injection hrun with hb ht
          injection hb with hb
          exact ⟨hb, ht⟩
        have hthing : Says T s c thing !(k == 0) :=
          ⟨d, u, hd s _ u (Action.bind_ok.mpr ⟨k, u, hk, rfl⟩)⟩
        obtain rfl := Option.some.inj h
        rw [op.numbers_zero hx]
        cases op with
        | equal | atMost => simpa only [Bool.not_not] using says_not hthing
        | unequal | greater => exact says_truthOf hthing
        | less => exact (Settles.ofBool false).says_iff.mpr rfl
        | atLeast => exact (Settles.ofBool true).says_iff.mpr rfl
  · cases h

theorem type_of_counted {e thing : Expr} (h : e.counted? = some thing) : e.type = .number := by
  unfold counted? at h
  split at h
  · next hcount =>
    obtain ⟨scope, rfl⟩ := operand?_eq_some.mp hcount
    rfl
  · next hlength =>
    obtain ⟨scope, rfl⟩ := operand?_eq_some.mp hlength
    rfl
  · split at h
    · next hplain =>
      obtain ⟨scope, rfl⟩ := isPlainCall_iff.mp hplain
      rfl
    · cases h

/-- A comparison with a number says the same with its sides exchanged. -/
theorem says_exchanged {op : Comparison} {x : Number} {e : Expr} {b : Bool}
    (he : e.type = .number) (h : Says T s c (.compare op (.value (.number x)) e) b) :
    Says T s c (.compare op.inverse e (.value (.number x))) b := by
  obtain ⟨depth, t, hrun⟩ := h
  match depth with
  | 0 | 1 => cases hrun
  | n + 2 =>
    refine ⟨n + 2, t, ?_⟩
    have hsame : (engine T (n + 1)).value e c >>= (fun a => pure (Value.number x) >>=
          a.compare T (engine T (n + 1)) op.inverse) = pure (Value.number x) >>= fun a =>
            (engine T (n + 1)).value e c >>= a.compare T (engine T (n + 1)) op := by
      simp only [pure_bind]
      refine (he ▸ engine_value_has T (n + 1) e c).bind_congr fun v hv => ?_
      obtain ⟨y, rfl⟩ := hv.number
      rw [compare_numbers, compare_numbers, op.inverse_numbers]
    exact (congrArg (fun a : Action Bool => a.attempt.run s) hsame).trans hrun

/-- What takes the place of a numeric comparison says what the comparison says, if nodes that are
counted are known. -/
theorem compareNumeric?_says {op : Comparison} {l r e : Expr} {b : Bool}
    (h : compareNumeric? op l r = some e) (hl : ∀ e, l.operand? .count = some e → e.Known T c)
    (hr : ∀ e, r.operand? .count = some e → e.Known T c) (hc : c.Focused) (hb : Says T s c (.compare op l r) b) : Says T s c e b := by
  have hposition {op : Comparison} {l r : Expr} (h : comparePosition? op l r = some e)
      (hb : Says T s c (.compare op l r) b ∨ Says T s c (.compare op.inverse r l) b) :
      Says T s c e b := by
    obtain ⟨a, hdirect, hexchanged, he⟩ := comparePosition?_settles (T := T) h hc
    exact he.says_iff.mpr (hb.elim hdirect.says_iff.mp hexchanged.says_iff.mp)
  simp only [compareNumeric?, Option.or_eq_some_iff] at h
  obtain ((h | ⟨-, h⟩) | ⟨-, h⟩) | ⟨-, h⟩ := h
  · exact compareWithZero?_says h hl hb
  · exact hposition h (.inl hb)
  · split at h
    · next hnumber =>
      obtain ⟨x, hx⟩ := Option.isSome_iff_exists.mp hnumber
      obtain rfl := number?_eq_some.mp hx
      rw [Option.or_eq_some_iff] at h
      obtain h | ⟨-, h⟩ := h
      · have htype : r.type = .number := by
          unfold compareWithZero? at h
          split at h
          · next hcounted => exact type_of_counted hcounted
          · cases h
        exact compareWithZero?_says h hr (says_exchanged htype hb)
      · exact hposition h (.inr (by rwa [op.inverse_inverse]))
    · cases h
  · split at h
    · exact hposition h (.inr (by rwa [op.inverse_inverse]))
    · cases h

end Expr

end PathLanguage
