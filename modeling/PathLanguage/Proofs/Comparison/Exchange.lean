/- Comparisons with their operands exchanged: under the inverse operator they say the same, for
values of any types, in any two sessions of a run. -/
import PathLanguage.Proofs.NodeSet.Observation
import PathLanguage.Proofs.Simplification.Position

namespace PathLanguage

namespace Comparison

variable {members : NodeSet → List Node}

@[simp] theorem isEquality_inverse (op : Comparison) : op.inverse.isEquality = op.isEquality := by
  cases op <;> rfl

theorem inverse_strings (op : Comparison) (a b : String) :
    op.inverse.strings b a = op.strings a b := by
  cases op with
  | equal => exact BEq.comm
  | unequal => exact congrArg not BEq.comm
  | less | atMost | greater | atLeast => rfl

theorem inverse_booleans (op : Comparison) (a b : Bool) :
    op.inverse.booleans b a = op.booleans a b := by
  cases op with
  | equal => exact BEq.comm
  | unequal => exact congrArg not BEq.comm
  | less | atMost | greater | atLeast => rfl

/-- Whether some members stand in a relation does not depend on the side they are found on. -/
theorem holds_inverse (op : Comparison) (a b : NodeSet) :
    op.inverse.Holds members (members b) (.nodeSet a) ↔
      op.Holds members (members a) (.nodeSet b) := by
  simp only [Holds, inverse_strings]
  constructor
  · rintro ⟨n, hn, m, hm, h⟩
    exact ⟨m, hm, n, hn, h⟩
  · rintro ⟨m, hm, n, hn, h⟩
    exact ⟨n, hn, m, hm, h⟩

end Comparison

namespace Value

variable {S : Setting} {members : NodeSet → List Node} {s₀ s t : Session} {a b : Value} {x y : Bool}

/-- A value that is no node-set. -/
def IsScalar (v : Value) : Prop := ∀ ns, v ≠ .nodeSet ns

theorem isScalar_or (v : Value) : v.IsScalar ∨ ∃ ns, v = .nodeSet ns := by
  cases v with
  | nodeSet ns => exact .inr ⟨ns, rfl⟩
  | string | number | boolean | object => exact .inl nofun

theorem asNumber_settled (ha : a.IsScalar) : ∃ n, ∀ T E, a.asNumber T E = pure n := by
  cases a with
  | nodeSet ns => exact absurd rfl (ha ns)
  | string | number | boolean | object => exact ⟨_, fun _ _ => rfl⟩

/-- Scalars are compared without regard to the session, and in either order with one result. -/
theorem compareScalars_settled (op : Comparison) (ha : a.IsScalar) (hb : b.IsScalar) :
    ∃ x, ∀ T E, a.compareScalars T E op b = pure x ∧
      b.compareScalars T E op.inverse a = pure x := by
  simp only [compareScalars, op.isEquality_inverse]
  cases op.isEquality with
  | false =>
    obtain ⟨m, hm⟩ := asNumber_settled ha
    obtain ⟨n, hn⟩ := asNumber_settled hb
    refine ⟨op.numbers m n, fun T E => ?_⟩
    simp only [hm, hn, pure_bind, op.inverse_numbers, Bool.false_eq_true, if_false, and_self]
  | true =>
    -- The types of the two sides decide together what both are converted to.
    cases a with
    | nodeSet ns => exact absurd rfl (ha ns)
    | string | number | boolean | object =>
      cases b with
      | nodeSet ns => exact absurd rfl (hb ns)
      | string | number | boolean | object =>
        refine ⟨_, fun T E => ⟨rfl, ?_⟩⟩
        simp only [if_true, asString, asNumber, asBoolean, pure_bind, op.inverse_strings,
          op.inverse_numbers, op.inverse_booleans]

theorem compare_scalars (T : Transformation) (E : Engine) (op : Comparison) (ha : a.IsScalar)
    (hb : b.IsScalar) : a.compare T E op b = a.compareScalars T E op b := by
  cases a with
  | nodeSet ns => exact absurd rfl (ha ns)
  | string | number | boolean | object =>
    cases b with
    | nodeSet ns => exact absurd rfl (hb ns)
    | string | number | boolean | object => rfl

/-- With a node-set on one side only, the exchanged comparison is the same action. -/
theorem compare_nodeSet_exchanged (T : Transformation) (E : Engine) (op : Comparison)
    (ns : NodeSet) (hb : b.IsScalar) :
    b.compare T E op.inverse (.nodeSet ns) = (Value.nodeSet ns).compare T E op b := by
  cases b with
  | nodeSet ms => exact absurd rfl (hb ms)
  | string | number | boolean | object => simp only [compare, op.inverse_inverse]

/-- In any two sessions of a run two values compare alike in either order, under an operator and
its inverse, if both comparisons succeed. The values may be scalars, nodes at hand, fragments, and
lazy node-sets whose definitions hold no lazy node-set in turn. -/
theorem compare_exchanged (hS : S.Safe) (hm : NodeSet.Denotes S.transformation members)
    (hs : S.Keeping members s₀ s) (ht : S.Keeping members s₀ t) (ha : a.Known S s₀)
    (hb : b.Known S s₀) (op : Comparison) {m n : Nat}
    (hx : ((a.compare S.transformation (engine S.transformation m) op b).attempt.run s).1 = .ok x)
    (hy : ((b.compare S.transformation (engine S.transformation n) op.inverse a).attempt.run t).1 =
      .ok y) : x = y := by
  rcases a.isScalar_or with has | ⟨p, rfl⟩
  · rcases b.isScalar_or with hbs | ⟨q, rfl⟩
    · obtain ⟨z, hz⟩ := compareScalars_settled op has hbs
      rw [compare_scalars _ _ _ has hbs, (hz _ _).1] at hx
      rw [compare_scalars _ _ _ hbs has, (hz _ _).2] at hy
      exact (Except.ok.inj hx).symm.trans (Except.ok.inj hy)
    · rw [← op.inverse_inverse, compare_nodeSet_exchanged _ _ _ _ has] at hx
      have hfirst := (compare_observes hS hm hb op.inverse ha m hs).2.2 x hx
      have hsecond := (compare_observes hS hm hb op.inverse ha n ht).2.2 y hy
      exact Bool.eq_iff_iff.mpr (hfirst.trans hsecond.symm)
  · have hfirst := (compare_observes hS hm ha op hb m hs).2.2 x hx
    refine Bool.eq_iff_iff.mpr (hfirst.trans ?_)
    rcases b.isScalar_or with hbs | ⟨q, rfl⟩
    · rw [compare_nodeSet_exchanged _ _ _ _ hbs] at hy
      exact ((compare_observes hS hm ha op hb n ht).2.2 y hy).symm
    · have hsecond := (compare_observes hS hm hb op.inverse ha n ht).2.2 y hy
      exact (hsecond.trans (op.holds_inverse p q)).symm

/-- A lazy node-set of nodes with the numbers 1 and 2 is less than itself when it is read anew, and
greater than itself once its nodes are kept. -/
theorem compare_exchanged_of_kept : ∃ (a : Value) (s t : Session) (x y : Bool), x = true ∧
    (s.intent 0).extent = none ∧ (t.intent 0).extent.isSome = true ∧
    ((a.compare .bare (engine .bare 6) .less a).attempt.run s).1 = .ok x ∧
    ((a.compare .bare (engine .bare 5) Comparison.less.inverse a).attempt.run t).1 = .ok y ∧
    x = y := by
  let d : Document :=
    ⟨0, false, .element (.unqualified "r") none [] [] [.text "1", .comment "2"]⟩
  let children : Expr := .axis .child .any (some (.root d))
  let ns : NodeSet := .intent 0 children
  let s : Session := (Session.newIntent {} children).2
  let asks : List Ask := [⟨ns, .compare .less (.nodeSet ns), 6⟩, ⟨ns, .boolean, 4⟩]
  let t : Session := Ask.after .bare asks s
  have hleaves : ∀ l ∈ children.leaves, l = .node (.root d) := fun l hl => by
    simpa [children, Expr.leaves] using hl
  have hfits (u : Session) : children.Fits (Forest.single d) u := fun l hl =>
    hleaves l hl ▸ ⟨List.mem_singleton.mpr rfl, .root d⟩
  have hknown : ns.Known (.bare d) s :=
    ⟨NodeSet.fits_intent.mpr ⟨rfl, hfits s⟩, fun l hl => hleaves l hl ▸ ⟨trivial, nofun⟩⟩
  obtain ⟨members, hm, -⟩ := NodeSet.exists_denotes Transformation.bare
  have hs : (Setting.bare d).Keeping members s s := by
    refine ⟨(Session.sound_newIntent (Setting.bare_sound d) (hfits _) rfl).1, .refl s, ?_⟩
    intro id e x _ _ he
    cases id <;> cases he
  have ht : (Setting.bare d).Keeping members s t := by
    refine Ask.keeping_after (Setting.bare_safe d) hm hs fun q hq => ?_
    simp only [asks, List.mem_cons, List.not_mem_nil, or_false] at hq
    rcases hq with rfl | rfl
    · exact ⟨hknown, hknown⟩
    · exact ⟨hknown, trivial⟩
  have hvalue : (Value.nodeSet ns).Known (.bare d) s := hknown
  have hx : (((Value.nodeSet ns).compare .bare (engine .bare 6) .less (.nodeSet ns)).attempt.run
      s).1 = .ok true := by decide +kernel
  obtain ⟨y, hy⟩ : ∃ y, (((Value.nodeSet ns).compare .bare (engine .bare 5)
      Comparison.less.inverse (.nodeSet ns)).attempt.run t).1 = .ok y := ⟨_, rfl⟩
  exact ⟨.nodeSet ns, s, t, true, y, rfl, rfl, rfl, hx, hy,
    compare_exchanged (Setting.bare_safe d) hm hs ht hvalue hvalue .less hx hy⟩

end Value

end PathLanguage
