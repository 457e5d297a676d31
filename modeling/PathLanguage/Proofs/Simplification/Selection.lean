/- The rules for numbers and for predicates that count positions: what takes their place says the
same and selects the same nodes. -/
import Mathlib.Data.List.Forall2
import PathLanguage.Proofs.Selection.Course
import PathLanguage.Proofs.Simplification.Comparison

namespace PathLanguage

namespace Setting

variable {S : Setting} {s t : Session} {ι α : Type}

/-- Some session in the course of a run is sound. -/
def Runs (S : Setting) (s t : Session) : Prop := ∃ u, S.Sound u ∧ s.LeadsTo u ∧ u.LeadsTo t

/-- What can have one result only, and has it, is all that is reported. -/
theorem reports_iff {as : ι → Action α} {x y : α} (h : ∀ i, Returns (as i) (· = x))
    (hx : ∃ i, as i = pure x) : S.Reports s t as y ↔ (S.Runs s t → y = x) := by
  obtain ⟨i, hi⟩ := hx
  refine ⟨?_, fun hy => ?_⟩
  · rintro (⟨j, v, u', -, -, -, hr⟩ | hnone) ⟨u, hu, h0, ht⟩
    · exact h j u' y (congrArg Prod.fst hr)
    · exact absurd ⟨u, hu, h0, ht, by rw [hi]; rfl⟩ (hnone i x u)
  · by_cases hruns : S.Runs s t
    · obtain ⟨u, hu, h0, ht⟩ := id hruns
      exact .inl ⟨i, u, u, hu, h0, ht, by rw [hi, hy hruns]; rfl⟩
    · refine .inr ?_
      rintro j z v ⟨u, hu, h0, ht, -⟩
      exact hruns ⟨u, hu, h0, ht⟩

end Setting

namespace Expr

/-- What a predicate says in a focus wherever it is judged. -/
structure Judged (T : Transformation) (focus : Context) (p : Expr) (b : Bool) : Prop where
  only : ∀ d, Returns (p.judgements T focus d) (· = b)
  reached : ∃ d, p.judgements T focus d = pure b

variable {T : Transformation} {focus : Context} {p : Expr} {b : Bool}

theorem ne_number_of_boolean (ht : p.type = .boolean) (x : Number) : p ≠ .value (.number x) := by
  rintro rfl
  cases ht

/-- A boolean is judged by what it says. -/
theorem Settles.judged (h : Settles T focus p b) (ht : p.type = .boolean) :
    Judged T focus p b where
  only := by
    rintro ⟨d, d'⟩
    cases d with
    | zero => exact .fail
    | succ d =>
      have hdirect : (engine T (d + 1)).value p focus =
            (do return .boolean (← (engine T d).boolean p focus)) →
          Returns (p.judgements T focus (d + 1, d')) (· = b) := fun hv => by
        have : p.judgements T focus (d + 1, d') = (engine T d).boolean p focus := by
          simp [judgements, judge, hv, Value.asBoolean]
        exact this ▸ h.only d
      have hvalue : Returns ((engine T (d + 1)).value p focus >>=
            (·.asBoolean T (engine T (d + 1)))) (· = b) →
          Returns (p.judgements T focus (d + 1, d')) (· = b) := fun hb => by
        refine cast ?_ hb
        congr 1
        refine (ht ▸ engine_value_has T (d + 1) p focus).bind_congr fun v hv => ?_
        obtain ⟨x, rfl⟩ := hv.boolean
        rfl
      cases p with
      | logical | compare | compareNode | compareNodes | positionRange | isLast =>
        exact hdirect rfl
      | value | call | reference => exact hvalue (h.only (d + 2))
      | _ => cases ht
  reached := by
    obtain ⟨d, hd⟩ := judge_of_boolean ht (engine T 0) focus 2
    refine ⟨(d, 0), ?_⟩
    funext s
    exact hd s b s (by rw [h.reached 0]; rfl)

/-- The size is judged to be a position where it is the last one. -/
theorem judged_last {scope : Option Scope} (h : focus.Focused) :
    Judged T focus (.call .last [] none scope) (focus.position == focus.last) := by
  have heq : (Number.ofNat focus.last).eq (.ofNat focus.position) =
      (focus.position == focus.last) := by
    have hlast := Nat.lt_trans h.near far_exact
    rw [Bool.eq_iff_iff, Number.ofNat_eq_ofNat hlast (Nat.lt_of_le_of_lt h.ordered hlast),
      beq_iff_eq, eq_comm]
  refine ⟨?_, (1, 0), ?_⟩
  · rintro ⟨d, d'⟩
    cases d with
    | zero => exact .fail
    | succ d => exact heq ▸ .pure rfl
  · exact heq ▸ rfl

end Expr

namespace Setting

variable {S : Setting} {s t : Session} {c : Context}

/-- What is judged in one way only is plainly true or false. -/
theorem plain_truth_iff {p : Expr} {n : Node} {k size : Nat} {a b : Bool}
    (h : p.Judged S.transformation (c.withFocus n k size) b)
    (hp : ∀ x, p ≠ .value (.number x)) :
    (S.plain s t).truth p c n k size a ↔ (S.Runs s t → a = b) := by
  refine Iff.trans ⟨fun ht => ht fun x hx => absurd hx (hp x), fun ht _ => ht⟩ ?_
  exact reports_iff h.only h.reached

end Setting

/-- Two predicates say the same wherever they can be applied, each of them one thing in a focus. -/
structure Expr.Interchangeable (T : Transformation) (c : Context) (p q : Expr) : Prop where
  judged : ∀ n k size, (c.withFocus n k size).Focused →
    ∃ b, p.Judged T (c.withFocus n k size) b ∧ q.Judged T (c.withFocus n k size) b
  left : ∀ x, p ≠ .value (.number x)
  right : ∀ x, q ≠ .value (.number x)

theorem Expr.Interchangeable.symm {T : Transformation} {c : Context} {p q : Expr}
    (h : p.Interchangeable T c q) : q.Interchangeable T c p where
  judged n k size hc := by
    obtain ⟨b, hp, hq⟩ := h.judged n k size hc
    exact ⟨b, hq, hp⟩
  left := h.right
  right := h.left

namespace Expr

variable {T : Transformation} {c : Context}

theorem interchangeable_of_settles {p q : Expr} (hp : p.type = .boolean) (hq : q.type = .boolean)
    (h : ∀ focus : Context, focus.Focused → ∃ b, Settles T focus p b ∧ Settles T focus q b) :
    p.Interchangeable T c q where
  judged n k size hc := by
    obtain ⟨b, hpb, hqb⟩ := h _ hc
    exact ⟨b, hpb.judged hp, hqb.judged hq⟩
  left := ne_number_of_boolean hp
  right := ne_number_of_boolean hq

theorem interchangeable_last (scope : Option Scope) :
    (Expr.call .last [] none scope).Interchangeable T c (.isLast true) where
  judged n k size hc := by
    refine ⟨_, judged_last hc, Settles.judged ?_ rfl⟩
    exact (Settles.isLast true).of_eq (beq_true _).symm
  left x := by simp
  right := ne_number_of_boolean rfl

/-- A predicate with the size, as a number, taken for a test for the last position. -/
def lastAsTest (p : Expr) : Expr := if p.isPlainCall .last then .isLast true else p

theorem interchangeable_lastAsTest (p : Expr) :
    p = p.lastAsTest ∨ p.Interchangeable T c p.lastAsTest := by
  unfold lastAsTest
  split
  · next h =>
    obtain ⟨scope, rfl⟩ := isPlainCall_iff.mp h
    exact .inr (interchangeable_last scope)
  · exact .inl rfl

/-- A comparison of the position, in either order of its operands, and what takes its place. -/
theorem interchangeable_position {op : Comparison} {l r e : Expr}
    (h : comparePosition? op l r = some e) :
    (Expr.compare op l r).Interchangeable T c e ∧
      (Expr.compare op.inverse r l).Interchangeable T c e := by
  have htype := (comparePosition?_form h).1
  refine ⟨interchangeable_of_settles rfl htype fun focus hc => ?_,
    interchangeable_of_settles rfl htype fun focus hc => ?_⟩
  · obtain ⟨b, hdirect, -, he⟩ := comparePosition?_settles (T := T) h hc
    exact ⟨b, hdirect, he⟩
  · obtain ⟨b, -, hexchanged, he⟩ := comparePosition?_settles (T := T) h hc
    exact ⟨b, hexchanged, he⟩

/-- Two ranges say together what their common positions say. -/
theorem Settles.and_ranges (a b x y : Nat) : ∃ both,
    Settles T c (.logical .and (.positionRange a b) (.positionRange x y)) both ∧
      Settles T c (Expr.positions (max a x) (min b y)) both := by
  refine ⟨(decide (a ≤ c.position) && decide (c.position ≤ b)) &&
    (decide (x ≤ c.position) && decide (c.position ≤ y)), .of_reached .fail fun d => ?_,
    .positions ?_⟩
  · change (do
        if ← (pure (decide (a ≤ c.position) && decide (c.position ≤ b)) : Action Bool) then
          pure (decide (x ≤ c.position) && decide (c.position ≤ y))
        else pure false) = _
    rw [pure_bind]
    split
    · next h => rw [h, Bool.true_and]
    · next h => rw [Bool.eq_false_of_not_eq_true h, Bool.false_and]
  · simp only [Bool.and_eq_true, decide_eq_true_eq]
    omega

end Expr

namespace Oracle

variable {S : Setting} {s t : Session} {c : Context} {p q : Expr} {ns ms : List Node}

theorem Picks.exchange {size position : Nat} (h : p.Interchangeable S.transformation c q)
    (hsize : position + ns.length ≤ size) (hfar : size < 1000000000000000)
    (hp : (S.plain s t).Picks p c size position ns ms) :
    (S.plain s t).Picks q c size position ns ms := by
  have htruth {n : Node} {k : Nat} {a : Bool} (h0 : 0 < k) (h1 : k ≤ size)
      (ht : (S.plain s t).truth p c n k size a) : (S.plain s t).truth q c n k size a := by
    obtain ⟨b, hpb, hqb⟩ := h.judged n k size ⟨h0, h1, hfar⟩
    exact (Setting.plain_truth_iff hqb h.right).mpr ((Setting.plain_truth_iff hpb h.left).mp ht)
  induction hp with
  | nil position => exact .nil position
  | pick ht _ ih =>
    rw [List.length_cons] at hsize
    exact .pick (htruth (by omega) (by omega) ht) (ih (by omega))
  | pass ht _ ih =>
    rw [List.length_cons] at hsize
    exact .pass (htruth (by omega) (by omega) ht) (ih (by omega))

/-- Predicates of a step one by one in place of others. -/
theorem Narrows.exchange {ps qs : List Expr}
    (h : List.Forall₂ (fun p q => p = q ∨ p.Interchangeable S.transformation c q) ps qs)
    (hfar : ns.length < 1000000000000000) (hp : (S.plain s t).Narrows c ps ns ms) :
    (S.plain s t).Narrows c qs ns ms := by
  induction h generalizing ns with
  | nil => exact hp
  | cons hpq _ ih =>
    cases hp with
    | cons hpick hrest =>
      have hlength := Nat.lt_of_le_of_lt hpick.sublist.length_le hfar
      refine .cons ?_ (ih hlength hrest)
      obtain rfl | hpq := hpq
      · exact hpick
      · exact hpick.exchange hpq (by omega) hfar

variable {J : Oracle} {G : Context} {base : Expr}

/-- Fewer nodes than the bounds of positions can tell from an open end. -/
def Short (J : Oracle) (G c : Context) (base : Expr) : Prop :=
  ∀ ns, J.Selects G base c ns → ns.length < 1000000000000000

theorem selects_filter : J.Selects G (.filter base p) c ms ↔
    ∃ ns, J.Selects G base c ns ∧ J.Picks p c.ambient ns.length 0 ns ms := by
  refine ⟨fun h => ?_, fun ⟨ns, hns, hms⟩ => .filter hns hms⟩
  cases h with
  | filter hns hms => exact ⟨_, hns, hms⟩
  | operand hform => cases hform

theorem Short.filter (h : J.Short G c base) : J.Short G c (.filter base p) := by
  intro ms hms
  obtain ⟨ns, hns, hpick⟩ := selects_filter.mp hms
  exact Nat.lt_of_le_of_lt hpick.sublist.length_le (h ns hns)

/-- A filter selects the same nodes with a predicate that says the same. -/
theorem Selects.filter_exchange (h : p.Interchangeable S.transformation c.ambient q)
    (hfar : (S.plain s t).Short G c base) :
    (S.plain s t).Selects G (.filter base p) c ms ↔
      (S.plain s t).Selects G (.filter base q) c ms := by
  rw [selects_filter, selects_filter]
  refine exists_congr fun ns => and_congr_right fun hns => ?_
  exact ⟨.exchange h (by omega) (hfar ns hns), .exchange h.symm (by omega) (hfar ns hns)⟩

theorem selects_path {start : Expr} {along : Axis} {test : NodeTest} {ps : List Expr} :
    J.Selects G (.path start along test ps) c ms ↔ ∃ origins reached,
      J.Selects G start c origins ∧ List.Forall₂ (fun o ns =>
        J.Narrows c.ambient ps (o.step along test) ns) origins reached ∧
      ms = Node.docOrder reached.flatten := by
  refine ⟨fun h => ?_, ?_⟩
  · cases h with
    | path hstart hreached => exact ⟨_, _, hstart, hreached, rfl⟩
    | operand hform => cases hform
  · rintro ⟨origins, reached, hstart, hreached, rfl⟩
    exact .path hstart hreached

theorem Selects.path_of_exchange {start : Expr} {along : Axis} {test : NodeTest}
    {ps qs : List Expr}
    (h : List.Forall₂ (fun p q => p = q ∨ p.Interchangeable S.transformation c.ambient q) ps qs)
    (hfar : ∀ origins, (S.plain s t).Selects G start c origins →
      ∀ o ∈ origins, (o.step along test).length < 1000000000000000)
    (hp : (S.plain s t).Selects G (.path start along test ps) c ms) :
    (S.plain s t).Selects G (.path start along test qs) c ms := by
  obtain ⟨origins, reached, hstart, hreached, rfl⟩ := selects_path.mp hp
  have hsteps := (List.forall₂_and_left _ _).mpr ⟨hfar origins hstart, hreached⟩
  exact .path hstart (hsteps.imp fun o ns ⟨hlength, hnarrows⟩ => hnarrows.exchange h hlength)

/-- So does a step, predicate by predicate. -/
theorem Selects.path_exchange {start : Expr} {along : Axis} {test : NodeTest} {ps qs : List Expr}
    (h : List.Forall₂ (fun p q => p = q ∨ p.Interchangeable S.transformation c.ambient q) ps qs)
    (hfar : ∀ origins, (S.plain s t).Selects G start c origins →
      ∀ o ∈ origins, (o.step along test).length < 1000000000000000) :
    (S.plain s t).Selects G (.path start along test ps) c ms ↔
      (S.plain s t).Selects G (.path start along test qs) c ms :=
  ⟨path_of_exchange h hfar,
    path_of_exchange (h.flip.imp fun _ _ hpq => hpq.imp Eq.symm (·.symm)) hfar⟩

/-- A range without an end leaves what comes from its first position on. -/
theorem picks_range {first size position : Nat} (hruns : S.Runs s t)
    (hsize : position + ns.length ≤ size) (hfar : size < 1000000000000000) :
    (S.plain s t).Picks (.positionRange first openEnd) c size position ns ms ↔
      ms = ns.drop (first - 1 - position) := by
  have hopen := Expr.far_lt_openEnd
  have htruth {n : Node} {k : Nat} {a : Bool} (h1 : k ≤ size) :
      (S.plain s t).truth (.positionRange first openEnd) c n k size a ↔ a = decide (first ≤ k) := by
    have hk : decide (first ≤ k) = (decide (first ≤ k) && decide (k ≤ openEnd)) := by
      rw [decide_eq_true (show k ≤ openEnd by omega), Bool.and_true]
    have hrange := (Expr.Settles.positionRange (T := S.transformation) (c := c.withFocus n k size)
      first openEnd).of_eq hk
    rw [Setting.plain_truth_iff (hrange.judged rfl) (Expr.ne_number_of_boolean rfl)]
    exact ⟨fun h => h hruns, fun h _ => h⟩
  induction ns generalizing position ms with
  | nil =>
    rw [List.drop_nil]
    refine ⟨fun h => ?_, ?_⟩
    · cases h
      rfl
    · rintro rfl
      exact .nil position
  | cons n ns ih =>
    rw [List.length_cons] at hsize
    have hrest (ks : List Node) : (S.plain s t).Picks (.positionRange first openEnd) c size
        (position + 1) ns ks ↔ ks = ns.drop (first - 1 - (position + 1)) := ih (by omega)
    by_cases hfirst : first ≤ position + 1
    · rw [show first - 1 - position = 0 by omega, List.drop_zero]
      rw [show first - 1 - (position + 1) = 0 by omega] at hrest
      refine ⟨fun h => ?_, ?_⟩
      · cases h with
        | pick _ h => rw [(hrest _).mp h, List.drop_zero]
        | pass ht _ => simpa [hfirst] using (htruth (by omega)).mp ht
      · rintro rfl
        exact .pick ((htruth (by omega)).mpr (by simpa using hfirst))
          ((hrest _).mpr List.drop_zero.symm)
    · rw [show first - 1 - position = first - 1 - (position + 1) + 1 by omega,
        List.drop_succ_cons]
      refine ⟨fun h => ?_, fun h => ?_⟩
      · cases h with
        | pick ht _ => simpa [hfirst] using (htruth (by omega)).mp ht
        | pass _ h => exact (hrest _).mp h
      · exact .pass ((htruth (by omega)).mpr (by simpa using hfirst)) ((hrest _).mpr h)

theorem selects_range {first : Nat} (hruns : S.Runs s t)
    (hfar : (S.plain s t).Short G c base) :
    (S.plain s t).Selects G (.filter base (.positionRange first openEnd)) c ms ↔
      ∃ ns, (S.plain s t).Selects G base c ns ∧ ms = ns.drop (first - 1) := by
  rw [selects_filter]
  refine exists_congr fun ns => and_congr_right fun hns => ?_
  exact picks_range hruns (by omega) (hfar ns hns)

/-- Two filters on positions without an end leave what one filter leaves. -/
theorem Selects.merge_ranges {first second : Nat} (hruns : S.Runs s t) (h1 : 0 < first)
    (h2 : 0 < second)
    (hfar : (S.plain s t).Short G c base) :
    (S.plain s t).Selects G
        (.filter (.filter base (.positionRange first openEnd)) (.positionRange second openEnd))
        c ms ↔
      (S.plain s t).Selects G
        (.filter base (.positionRange (min (first + second) openEnd - 1) openEnd)) c ms := by
  have hopen := Expr.far_lt_openEnd
  have hdrop {ns : List Node} (hns : ns.length < 1000000000000000) :
      (ns.drop (first - 1)).drop (second - 1) =
        ns.drop (min (first + second) openEnd - 1 - 1) := by
    rw [List.drop_drop]
    by_cases hend : first + second ≤ openEnd
    · congr 1
      omega
    · rw [List.drop_eq_nil_of_le (by omega), List.drop_eq_nil_of_le (by omega)]
  rw [selects_range hruns hfar.filter, selects_range hruns hfar]
  refine ⟨?_, ?_⟩
  · rintro ⟨ks, hks, rfl⟩
    obtain ⟨ns, hns, rfl⟩ := (selects_range hruns hfar).mp hks
    exact ⟨ns, hns, hdrop (hfar ns hns)⟩
  · rintro ⟨ns, hns, rfl⟩
    exact ⟨_, (selects_range hruns hfar).mpr ⟨ns, hns, rfl⟩, (hdrop (hfar ns hns)).symm⟩

/-- So do two filters with comparisons in place of the ranges. -/
theorem Selects.merge_comparisons {op op' : Comparison} {l r l' r' e : Expr}
    (hruns : S.Runs s t) (hp : Expr.comparePosition? op l r = some p)
    (hq : Expr.comparePosition? op' l' r' = some q)
    (he : Expr.mergeRanges? (.filter base p) q = some e) (hfar : (S.plain s t).Short G c base) :
    (S.plain s t).Selects G (.filter (.filter base (.compare op l r)) (.compare op' l' r')) c ms ↔
      (S.plain s t).Selects G e c ms := by
  have hinner (ks : List Node) : (S.plain s t).Selects G (.filter base (.compare op l r)) c ks ↔
      (S.plain s t).Selects G (.filter base p) c ks :=
    Selects.filter_exchange (Expr.interchangeable_position hp).1 hfar
  rw [Selects.filter_exchange (Expr.interchangeable_position hq).1 hfar.filter, selects_filter]
  simp only [hinner]
  rw [← selects_filter]
  unfold Expr.mergeRanges? at he
  split at he
  · next first m second n heq =>
    injection heq with hbase hp'
    subst hbase hp'
    split at he
    · next hend =>
      obtain ⟨rfl, rfl⟩ := hend
      obtain rfl := Option.some.inj he
      exact merge_ranges hruns ((Expr.comparePosition?_form hp).2 _ _ rfl)
        ((Expr.comparePosition?_form hq).2 _ _ rfl) hfar
    · cases he
  · cases he

end Oracle

end PathLanguage

namespace PathLanguage.Setting

open PathLanguage.Expr PathLanguage.Oracle

variable {S : Setting} {s t : Session}

/-- What takes the place of a numeric comparison, of two ranges or of a predicate says the same and
selects the same nodes: comparisons of the position with a number or with the last position, of the
length of a text with zero, and of a count with zero where the nodes are known; the last position as
a predicate of a filter or a step; two ranges that must both hold, in one predicate or in two. -/
theorem numeric_rules_hold (hruns : S.Runs s t) (c : Context) :
    (∀ op l r e, compareNumeric? op l r = some e →
      (∀ x, l.operand? .count = some x ∨ r.operand? .count = some x → x.Known S.transformation c) →
      c.Focused → ∀ u b, Says S.transformation u c (.compare op l r) b →
        Says S.transformation u c e b) ∧
    (∀ a b x y u h,
      Says S.transformation u c (.logical .and (.positionRange a b) (.positionRange x y)) h ↔
        Says S.transformation u c (positions (max a x) (min b y)) h) ∧
    (∀ G start, (∀ origins, (S.plain s t).Selects G start c origins →
        ∀ along test, ∀ o ∈ origins, (o.step along test).length < 1000000000000000) →
      ∀ along test ps ns, (S.plain s t).Selects G (.path start along test ps) c ns ↔
        (S.plain s t).Selects G (.path start along test (ps.map lastAsTest)) c ns) ∧
    ∀ G base, (S.plain s t).Short G c base →
      (∀ p ns, (S.plain s t).Selects G (.filter base p) c ns ↔
        (S.plain s t).Selects G (.filter base p.lastAsTest) c ns) ∧
      (∀ op l r e, comparePosition? op l r = some e → ∀ ns,
        ((S.plain s t).Selects G (.filter base (.compare op l r)) c ns ↔
          (S.plain s t).Selects G (.filter base e) c ns) ∧
        ((S.plain s t).Selects G (.filter base (.compare op.inverse r l)) c ns ↔
          (S.plain s t).Selects G (.filter base e) c ns)) ∧
      (∀ a b x y ns, (S.plain s t).Selects G
          (.filter base (.logical .and (.positionRange a b) (.positionRange x y))) c ns ↔
        (S.plain s t).Selects G (.filter base (positions (max a x) (min b y))) c ns) ∧
      ∀ op l r p op' l' r' q e, comparePosition? op l r = some p →
        comparePosition? op' l' r' = some q → mergeRanges? (.filter base p) q = some e →
        ∀ ns, (S.plain s t).Selects G
            (.filter (.filter base (.compare op l r)) (.compare op' l' r')) c ns ↔
          (S.plain s t).Selects G e c ns := by
  refine ⟨fun op l r e h hknown hc u b hb => ?_, fun a b x y u h => ?_,
    fun G start hfar along test ps ns => ?_, fun G base hfar => ⟨fun p ns => ?_,
    fun op l r e h ns => ?_, fun a b x y ns => ?_, fun op l r p op' l' r' q e hp hq he ns => ?_⟩⟩
  · exact compareNumeric?_says h (fun x hx => hknown x (.inl hx)) (fun x hx => hknown x (.inr hx))
      hc hb
  · obtain ⟨both, hl, hr⟩ := Settles.and_ranges (T := S.transformation) (c := c) a b x y
    rw [hl.says_iff, hr.says_iff]
  · refine Selects.path_exchange ?_ fun origins ho => hfar origins ho along test
    rw [List.forall₂_map_right_iff, List.forall₂_same]
    exact fun p _ => interchangeable_lastAsTest p
  · obtain h | h := interchangeable_lastAsTest (T := S.transformation) (c := c.ambient) p
    · rw [← h]
    · exact Selects.filter_exchange h hfar
  · obtain ⟨hd, hx⟩ := interchangeable_position (T := S.transformation) (c := c.ambient) h
    exact ⟨Selects.filter_exchange hd hfar, Selects.filter_exchange hx hfar⟩
  · exact Selects.filter_exchange (interchangeable_of_settles rfl (type_positions _ _)
      fun focus _ => Settles.and_ranges a b x y) hfar
  · exact Selects.merge_comparisons hruns hp hq he hfar

/-- A root on its own is the last of its filter, and its position the last one. -/
theorem numeric_rules_hold_alone : (bare .pair).Runs {} {} ∧
    Says .bare {} (.onNode (some (.root .pair))) (.isLast true) true ∧
    ((bare .pair).plain {} {}).Selects (.onNode none)
      (.filter .contextNode (.call .last [] none none)) (.onNode (some (.root .pair)))
      [.root .pair] := by
  have hruns : (bare .pair).Runs {} {} := ⟨{}, bare_sound .pair, .refl {}, .refl {}⟩
  obtain ⟨hcompare, -, -, hfilter⟩ :=
    numeric_rules_hold hruns (.onNode (some (.root .pair)))
  have hfocused : (Context.onNode (some (Node.root .pair))).Focused :=
    ⟨by decide, by decide, by decide⟩
  have hshort : ((bare .pair).plain {} {}).Short (.onNode none)
      (.onNode (some (.root .pair))) .contextNode := by
    intro ns h
    cases h with
    | contextNode => simp
    | operand h => cases h
  refine ⟨hruns, ?_, ?_⟩
  · refine hcompare .equal (.call .position [] none none) (.call .last [] none none) _ rfl ?_
      hfocused {} true ?_
    · rintro x (h | h) <;> cases h
    · refine (Settles.compare .equal (value_position none) (value_last none)).1.says_iff.mpr ?_
      exact ((Number.ofNat_eq_ofNat (by decide) (by decide)).mpr rfl).symm
  · refine ((hfilter (.onNode none) .contextNode hshort).1 _ _).mpr ?_
    refine .filter (.contextNode rfl) (.pick ?_ (.nil 1))
    exact (plain_truth_iff ((Settles.isLast true).judged rfl) (ne_number_of_boolean rfl)).mpr
      fun _ => rfl

end PathLanguage.Setting
