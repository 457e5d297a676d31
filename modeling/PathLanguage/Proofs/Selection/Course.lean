/- What predicates say of nodes by their plain meaning, and what filters make of it; what the
evaluations in the course of a run say of predicates, keys and operands by both. Enumeration in
document order delivers just the nodes that an expression stands for, whichever way they are
found. -/
import PathLanguage.Proofs.Cursor.Size
import PathLanguage.Proofs.Expr.Type
import PathLanguage.Proofs.Number.Whole
import PathLanguage.Proofs.Placement.Evaluation
import PathLanguage.Proofs.Selection.Evaluation

namespace PathLanguage

open PathLanguage.Action (Within)

/-- What a predicate says in its focus: a number is compared with the position, any other value is
taken as a boolean. One engine evaluates, the other one converts. -/
def Expr.judge (T : Transformation) (E E' : Engine) (p : Expr) (focus : Context) : Action Bool := do
  match ← E.value p focus with
  | .number x => return x.eq (.ofNat focus.position)
  | v => v.asBoolean T E'

namespace Expr

variable {T : Transformation} {p : Expr} {focus : Context}

/-- A number computed as such is the one that its predicate is judged by, at some depth that is
no smaller. -/
theorem number_eq_judge (h : p.type = .number) (E' : Engine) (focus : Context) (n : Nat) :
    ∃ d, n ≤ d ∧ (do return (← (engine T (n + 1)).number p focus).eq (.ofNat focus.position)) =
      p.judge T (engine T d) E' focus := by
  have hvalue : (((engine T n).value p focus >>= (·.asNumber T (engine T n))) >>=
      fun x => return x.eq (.ofNat focus.position)) = p.judge T (engine T n) E' focus := by
    rw [bind_assoc]
    refine (h ▸ engine_value_has T n p focus).bind_congr fun v hv => ?_
    obtain ⟨x, rfl⟩ := hv.number
    rfl
  cases p with
  | arithmetic op l r => exact ⟨n + 2, by omega, by simp [judge, engine, evaluate]⟩
  | negate e => exact ⟨n + 2, by omega, by simp [judge, engine, evaluate]⟩
  | value | call | reference => exact ⟨n, Nat.le_refl n, hvalue⟩
  | _ => cases h

theorem judge_of_number (h : p.type = .number) (E' : Engine) (focus : Context) (n : Nat) :
    ∃ d, Within (do return (← (engine T n).number p focus).eq (.ofNat focus.position))
      (p.judge T (engine T d) E' focus) := by
  cases n with
  | zero => exact ⟨0, .fail⟩
  | succ m =>
    obtain ⟨d, -, hd⟩ := number_eq_judge (T := T) h E' focus m
    exact ⟨d, .of_eq hd⟩

/-- So is a boolean. -/
theorem boolean_eq_judge (h : p.type = .boolean) (E' : Engine) (focus : Context) (n : Nat) :
    ∃ d, n ≤ d ∧ (engine T (n + 1)).boolean p focus = p.judge T (engine T d) E' focus := by
  have hdirect : (engine T (n + 2)).value p focus =
        (do return .boolean (← (engine T (n + 1)).boolean p focus)) →
      (engine T (n + 1)).boolean p focus = p.judge T (engine T (n + 2)) E' focus :=
    fun hv => by simp [judge, hv, Value.asBoolean]
  have hvalue : (do (← (engine T n).value p focus).asBoolean T (engine T n)) =
      p.judge T (engine T n) E' focus := by
    refine (h ▸ engine_value_has T n p focus).bind_congr fun v hv => ?_
    obtain ⟨x, rfl⟩ := hv.boolean
    rfl
  cases p with
  | logical | compare | compareNode | compareNodes | positionRange | isLast =>
    exact ⟨n + 2, by omega, hdirect rfl⟩
  | value | call | reference => exact ⟨n, Nat.le_refl n, hvalue⟩
  | _ => cases h

theorem judge_of_boolean (h : p.type = .boolean) (E' : Engine) (focus : Context) (n : Nat) :
    ∃ d, Within ((engine T n).boolean p focus) (p.judge T (engine T d) E' focus) := by
  cases n with
  | zero => exact ⟨0, .fail⟩
  | succ m =>
    obtain ⟨d, -, hd⟩ := boolean_eq_judge (T := T) h E' focus m
    exact ⟨d, .of_eq hd⟩

/-- A value already known is taken as the boolean that it converts to. -/
theorem boolean_value (v : Value) (n : Nat) : Within
    ((engine T (n + 1)).boolean (.value v) focus) (v.asBoolean T (engine T n)) := by
  cases n with
  | zero => exact .fail
  | succ m => exact .refl _

end Expr

/-- A strategy that asks for a number or a boolean is that of a predicate of the type. -/
theorem Strategy.type_ofPredicate (p : Expr) : (ofPredicate p = .numeric → p.type = .number) ∧
    (ofPredicate p = .boolean → p.type = .boolean) := by
  unfold ofPredicate
  split
  · split <;> simp
  · simp
  · split <;> simp_all

/-- Where more than the position decides, a filter accepts what its predicate is judged to hold
of. -/
theorem Cursor.accepts_within {T : Transformation} {s : Selection} (hs : s.Proper)
    (hp : ∀ least most, s.strategy ≠ .positions least most) (n : Nat) (m : Node)
    (position last : Nat) : ∃ d d', Within (accepts (engine T n) s m position last)
      (s.predicate.judge T (engine T d) (engine T d') (s.context.withFocus m position last)) := by
  unfold accepts
  split
  · next least most h => exact absurd h (hp least most)
  · next h =>
    obtain ⟨d, hd⟩ := Expr.judge_of_number ((Strategy.type_ofPredicate _).1 (hs.strategy ▸ h))
      (engine T 0) (s.context.withFocus m position last) n
    exact ⟨d, 0, hd⟩
  · next h =>
    obtain ⟨d, hd⟩ := Expr.judge_of_boolean ((Strategy.type_ofPredicate _).2 (hs.strategy ▸ h))
      (engine T 0) (s.context.withFocus m position last) n
    exact ⟨d, 0, hd⟩
  · cases n with
    | zero => exact ⟨0, 0, .fail⟩
    | succ k =>
      refine ⟨k + 1, k, .bind fun v => ?_⟩
      cases v with
      | number x => exact .refl _
      | _ => exact Expr.boolean_value _ k

end PathLanguage

namespace PathLanguage

open PathLanguage.Action (Within)

section course

variable {ι α : Type} (S : Setting) (s₀ t : Session)

/-- Run in some session in the course of a run, an action has a result and ends in a session. -/
def Setting.Gives (a : Action α) (x : α) (v : Session) : Prop :=
  ∃ u, S.Sound u ∧ s₀.LeadsTo u ∧ u.LeadsTo t ∧ a.attempt.run u = (.ok x, v)

/-- The result of one of several actions, or any result if none of them has one. -/
def Setting.Reports (as : ι → Action α) (x : α) : Prop :=
  (∃ i v, S.Gives s₀ t (as i) x v) ∨ ∀ i y v, ¬ S.Gives s₀ t (as i) y v

end course

/-- The judgements of a predicate at all depths of evaluation. -/
def Expr.judgements (T : Transformation) (p : Expr) (focus : Context) (d : Nat × Nat) :
    Action Bool :=
  p.judge T (engine T d.1) (engine T d.2) focus

/-- What the evaluations of a run say. A predicate without a judgement and a key without a text are
left open, and so is what a constant number says from the position on where positions are rounded as
numbers. -/
def Setting.plain (S : Setting) (s₀ t : Session) : Oracle where
  truth p c n position size b := (∀ x, p = .value (.number x) → position < 1 <<< 53) →
    S.Reports s₀ t (p.judgements S.transformation (c.withFocus n position size)) b
  text e c n k := S.Reports s₀ t (fun d => (engine S.transformation d).string e (c.withNode n)) k
  value e c ns := ∃ d v, S.Gives s₀ t ((engine S.transformation d).nodeSet e c) ns v ∧ v.LeadsTo t
  kept id e := (t.intent id).extent = some e

/-- The same, with a range of positions taken as such wherever a predicate amounts to one. -/
def Setting.applied (S : Setting) (s₀ t : Session) : Oracle :=
  { S.plain s₀ t with
    truth := fun p c n position size b =>
      match Strategy.ofPredicate p with
      | .positions least most => b = (least ≤ position && position ≤ most)
      | _ => S.Reports s₀ t (p.judgements S.transformation (c.withFocus n position size)) b }

section reports

variable {S : Setting} {s₀ s t v : Session} {ι α : Type} {a : Action α} {as : ι → Action α} {x : α}

theorem Setting.Gives.within (h : S.Gives s₀ t a x v) {b : Action α} (hw : a.Within b) :
    S.Gives s₀ t b x v := by
  obtain ⟨u, hu, h0, ht, hr⟩ := h
  exact ⟨u, hu, h0, ht, hw u x v hr⟩

/-- What an action ensures it gives from then on. -/
theorem Setting.Ensures.gives (h : S.Ensures s a fun _ _ => True) (h0 : s₀.LeadsTo s) :
    S.Ensures s a fun x t => ∀ u, t.LeadsTo u → S.Gives s₀ u a x t := by
  intro hs
  obtain ⟨ht, hst, -⟩ := h hs
  exact ⟨ht, hst, fun x hx u hu => ⟨s, hs, h0, hst.trans hu, Prod.ext hx rfl⟩⟩

/-- Whatever is reported is the one result that there can be. -/
theorem Setting.reports_of_unique (h : ∀ i, Returns (as i) (· = x)) : S.Reports s₀ t as x := by
  by_cases hg : ∃ i y v, S.Gives s₀ t (as i) y v
  · obtain ⟨i, y, v, hy⟩ := hg
    obtain ⟨u, -, -, -, hr⟩ := id hy
    have hyx : y = x := h i u y (congrArg Prod.fst hr)
    exact .inl ⟨i, v, hyx ▸ hy⟩
  · exact .inr fun i y v hy => hg ⟨i, y, v, hy⟩

theorem Setting.exists_report [Inhabited α] : ∃ x, S.Reports s₀ t as x := by
  by_cases hg : ∃ i y v, S.Gives s₀ t (as i) y v
  · obtain ⟨i, y, v, hy⟩ := hg
    exact ⟨y, .inl ⟨i, v, hy⟩⟩
  · exact ⟨default, .inr fun i y v hy => hg ⟨i, y, v, hy⟩⟩

end reports

namespace Expr

variable {T : Transformation} {p : Expr} {c c' : Context}

/-- The focus of a judgement matters only in what the predicate asks for, and a number asks for the
position. -/
theorem judgements_like (h : Context.Like p.dependencies c c')
    (hp : p.type = .number ∨ p.type = .any → c.position = c'.position) :
    p.judgements T c = p.judgements T c' := by
  funext d
  simp only [judgements, judge, (engine_unplaced T d.1).value h]
  refine (engine_value_has T d.1 p c').bind_congr fun v hv => ?_
  cases v with
  | number x =>
    have htype : p.type = .number ∨ p.type = .any := by
      by_cases hany : p.type = .any
      · exact .inr hany
      · exact .inl (hv hany).symm
    rw [hp htype]
  | _ => rfl

theorem of_not_positional (h : p.isPositional = false) :
    p.dependencies.position = false ∧ p.dependencies.last = false ∧
      ¬ (p.type = .number ∨ p.type = .any) := by
  simp only [isPositional, Bool.or_eq_false_iff, beq_eq_false_iff_ne] at h
  obtain ⟨⟨hn, ha⟩, hd⟩ := h
  rw [Dependencies.intersects, Dependencies.isEmpty, Bool.not_eq_false', beq_iff_eq] at hd
  have hp := congrArg Dependencies.position hd
  have hl := congrArg Dependencies.last hd
  rw [Dependencies.position_inter, Bool.and_true] at hp
  rw [Dependencies.last_inter, Bool.and_true] at hl
  exact ⟨hp, hl, fun ht => ht.elim hn ha⟩

/-- A predicate that is decided by the position is a constant number or a range. -/
theorem of_positions {least most : Nat} (h : Strategy.ofPredicate p = .positions least most) :
    (∃ x, p = .value (.number x)) ∨ p = .positionRange least most := by
  unfold Strategy.ofPredicate at h
  split at h
  · exact .inl ⟨_, rfl⟩
  · cases h
    exact .inr rfl
  · split at h <;> cases h

end Expr

namespace Setting

variable {S : Setting} {s₀ s t : Session}

/-- The position decides. -/
theorem applied_of_positions {p : Expr} {least most : Nat}
    (hs : Strategy.ofPredicate p = .positions least most) {c : Context} {n : Node}
    {position size : Nat} {b : Bool} : (S.applied s₀ t).truth p c n position size b ↔
      b = (least ≤ position && position ≤ most) := by
  simp [applied, hs]

/-- A judgement decides. -/
theorem applied_of_judged {p : Expr}
    (hs : ¬ ∃ least most, Strategy.ofPredicate p = .positions least most) {c : Context} {n : Node}
    {position size : Nat} {b : Bool} : (S.applied s₀ t).truth p c n position size b ↔
      S.Reports s₀ t (p.judgements S.transformation (c.withFocus n position size)) b := by
  cases h : Strategy.ofPredicate p with
  | positions least most => exact absurd ⟨least, most, h⟩ hs
  | _ => simp [applied, h]

theorem applied_lawful (S : Setting) (s₀ t : Session) : (S.applied s₀ t).Lawful where
  truth p c n position size := by
    by_cases hs : ∃ least most, Strategy.ofPredicate p = .positions least most
    · obtain ⟨least, most, hs⟩ := hs
      exact ⟨_, (applied_of_positions hs).mpr rfl⟩
    · simp only [applied_of_judged hs]
      exact exists_report
  text e c n := exists_report
  size {p c n position size b} hl ht size' := by
    by_cases hs : ∃ least most, Strategy.ofPredicate p = .positions least most
    · obtain ⟨least, most, hs⟩ := hs
      rwa [applied_of_positions hs] at ht ⊢
    · have heq : p.judgements S.transformation (c.withFocus n position size) =
          p.judgements S.transformation (c.withFocus n position size') :=
        Expr.judgements_like (Context.like_withFocus c n (fun _ => rfl) (by simp [hl])) fun _ => rfl
      rw [applied_of_judged hs] at ht ⊢
      rwa [← heq]
  unplaced {p c n position size b} hp ht position' size' := by
    obtain ⟨hposition, hlast, htype⟩ := Expr.of_not_positional hp
    by_cases hs : ∃ least most, Strategy.ofPredicate p = .positions least most
    · obtain ⟨least, most, hs⟩ := hs
      obtain ⟨x, rfl⟩ | rfl := Expr.of_positions hs
      · exact absurd (.inl rfl) htype
      · cases hposition
    · have heq : p.judgements S.transformation (c.withFocus n position size) =
          p.judgements S.transformation (c.withFocus n position' size') :=
        Expr.judgements_like (Context.like_withFocus c n (by simp [hposition]) (by simp [hlast]))
          fun hn => absurd hn htype
      rw [applied_of_judged hs] at ht ⊢
      rwa [← heq]
  positions hs c n position size := (applied_of_positions hs).mpr rfl

/-- A constant number and a range of positions are judged by the position alone. -/
theorem judgements_of_positions {T : Transformation} {p : Expr} {least most : Nat}
    (hs : Strategy.ofPredicate p = .positions least most) {focus : Context}
    (h0 : 0 < focus.position) (hx : ∀ x, p = .value (.number x) → focus.position < 1 <<< 53)
    (d : Nat × Nat) : Returns (p.judgements T focus d)
      (· = (least ≤ focus.position && focus.position ≤ most)) := by
  obtain ⟨x, rfl⟩ | rfl := Expr.of_positions hs
  · obtain ⟨d | d, d'⟩ := d
    · exact fun _ _ h => nomatch h
    · exact .pure (Strategy.eq_of_constant hs h0 (hx x rfl))
  · obtain ⟨d | d | d, d'⟩ := d
    · exact fun _ _ h => nomatch h
    · exact fun _ _ h => nomatch h
    · exact .pure rfl

theorem applied_agrees (S : Setting) (s₀ t : Session) :
    (S.applied s₀ t).Agrees (S.plain s₀ t) where
  truth {p c n position size b} h0 ht hx := by
    by_cases hs : ∃ least most, Strategy.ofPredicate p = .positions least most
    · obtain ⟨least, most, hs⟩ := hs
      rw [applied_of_positions hs] at ht
      exact reports_of_unique fun d => ht ▸ judgements_of_positions hs h0 hx d
    · exact (applied_of_judged hs).mp ht
  text h := h

theorem applied_answers (hS : S.Safe) (s₀ : Session) (n : Nat) :
    S.Answers (S.applied s₀) s₀ (engine S.transformation n) where
  truth {s p m position last} h0 hp hc hm hproper := by
    have hE := engine_safe hS n
    have hsafe := Cursor.accepts_safe hE hp hc hm position last
    by_cases hs : ∃ least most, Strategy.ofPredicate p.predicate = .positions least most
    · obtain ⟨least, most, hs⟩ := hs
      unfold Cursor.accepts
      rw [hproper.strategy, hs]
      exact .pure fun u _ => (applied_of_positions hs).mpr rfl
    · obtain ⟨d, d', hw⟩ := Cursor.accepts_within hproper
        (fun least most h => hs ⟨least, most, hproper.strategy ▸ h⟩) n m position last
      exact (hsafe.gives h0).imp fun b t _ _ hb u hu =>
        (applied_of_judged hs).mpr (.inl ⟨(d, d'), t, (hb u hu).within hw⟩)
  text {s e c m} h0 he hc hm := by
    have hE := engine_safe hS n
    exact ((hE.string he (hc.withNode hm)).trivial.gives h0).imp
      fun k t _ _ hk u hu => .inl ⟨n, t, hk u hu⟩

theorem plain_values (hS : S.Safe) (s₀ : Session) (n : Nat) :
    S.Values (S.plain s₀) s₀ (engine S.transformation n) where
  value h0 he hc := (((engine_safe hS n).nodeSet he hc).trivial.gives h0).imp
    fun _ t _ _ h u hu => ⟨n, t, h u hu, hu⟩
  kept htu h := htu.kept _ _ h

end Setting

end PathLanguage

namespace PathLanguage.Setting

variable {S : Setting} {s t u v : Session} {e : Expr} {c : Context}

/-- Whenever an enumeration in document order is made and read without a fault, at once or later,
the nodes are in document order, each once, and those that the expression stands for. -/
theorem enumeration_selects (hS : S.Safe) (hs : S.Sound s) (he : e.Fits S.forest s)
    (hc : c.Fits S.forest s) {depth : Nat} {r : Cursor}
    (hr : ((engine S.transformation depth).cursor e c true).attempt.run s = (.ok r, t))
    (hu : S.Sound u) (htu : t.LeadsTo u) {reading : Nat} {ns : List Node}
    (hd : ((engine S.transformation reading).drain r).attempt.run u = (.ok ns, v)) :
    ns.Pairwise Node.Before ∧ (S.plain s v).Selects S.transformation.globalContext e c ns := by
  have hengine (n : Nat) : S.Reads (S.applied s) s (engine S.transformation n) ∧
      S.Selects (S.applied s) (S.plain s) s (engine S.transformation n) :=
    engine_selects hS (S.applied_lawful s) (S.applied_agrees s) (applied_answers hS s)
      (plain_values hS s) n
  obtain ⟨-, hst, ⟨hsound, hsorted, -⟩, hfresh, hsel⟩ :=
    (((engine_safe hS depth).cursor he hc).and ((hengine depth).2.cursor (.refl s) he hc)).ok hs hr
  replace hsound := hsound.mono htu.toKeeps
  obtain ⟨-, huv, ⟨-, hrel⟩, hyield⟩ := (((engine_safe hS reading).drain hsound).and
    ((hengine reading).1.drain (hst.trans htu) hsound hfresh.counted)).ok hu hd
  have hsorted := hsorted (.inl rfl)
  have hyield := hyield v (.refl v)
  refine ⟨hrel.imp fun hab => hab.sorted hsorted, ?_⟩
  have := hsel v (htu.trans huv) ns hyield
  rwa [(hyield.inOrder hsound.ordered hsorted).docOrder_eq] at this

/-- The last of the grandchildren of a root. -/
theorem enumeration_selects_last : ∃ r n,
    ((engine .bare 5).cursor
      (.filter (.path (.axis .child .any none) .child .any []) (.isLast true))
      (.onNode (some (.root .pair))) true).attempt.run {} = (.ok r, {}) ∧
    ((engine .bare 9).drain r).attempt.run {} = (.ok [n], {}) ∧
    ((bare .pair).plain {} {}).Selects (.onNode none)
      (.filter (.path (.axis .child .any none) .child .any []) (.isLast true))
      (.onNode (some (.root .pair))) [n] := by
  have hread : ∃ r n,
      ((engine .bare 5).cursor
        (.filter (.path (.axis .child .any none) .child .any []) (.isLast true))
        (.onNode (some (.root .pair))) true).attempt.run {} = (.ok r, {}) ∧
      ((engine .bare 9).drain r).attempt.run {} = (.ok [n], {}) := ⟨_, _, rfl, rfl⟩
  obtain ⟨r, n, hr, hd⟩ := hread
  have hroot : (Forest.single .pair).Holds (.root .pair) :=
    ⟨List.mem_singleton.mpr rfl, .root .pair⟩
  have hc : (Context.onNode (some (.root .pair))).Fits (Forest.single .pair) {} :=
    ⟨by rintro n ⟨⟩; exact hroot, by rintro n ⟨⟩; exact hroot, by simp [Context.onNode]⟩
  have he : (Expr.filter (.path (.axis .child .any none) .child .any []) (.isLast true)).Fits
      (Forest.single .pair) {} := by
    simp [Expr.Fits, Expr.leaves, leavesOfAll]
  exact ⟨r, n, hr, hd, (enumeration_selects (bare_safe .pair) (bare_sound .pair) he hc hr
    (bare_sound .pair) (.refl {}) hd).2⟩

end PathLanguage.Setting
