/- Patterns as they are read: none of their predicates reads the current node. -/
import PathLanguage.Pattern.Grammar
import PathLanguage.Proofs.Agreement.Context

namespace PathLanguage

variable {α β : Type}

/-- Whatever is read, the result of a reader has a property. -/
def Reader.Gives (r : Reader α) (Q : α → Prop) : Prop :=
  ∀ source tokens a rest, r source tokens = .ok (a, rest) → Q a

namespace Reader.Gives

variable {r : Reader α} {f : α → Reader β} {P : α → Prop} {Q : β → Prop}

theorem pure {x : β} (h : Q x) : Gives (pure x) Q := by
  rintro _ _ _ _ ⟨⟩
  exact h

theorem fail {cause : SyntaxCause} : Gives (Reader.fail cause) Q := by
  intro source tokens a rest h
  cases tokens <;> cases h

theorem bind (h : Gives r P) (hf : ∀ x, P x → Gives (f x) Q) : Gives (r >>= f) Q := by
  intro source tokens b rest hr
  change (r source tokens >>= fun p => f p.1 source p.2) = _ at hr
  cases hx : r source tokens with
  | error e => rw [hx] at hr; cases hr
  | ok p =>
    rw [hx] at hr
    exact hf p.1 (h source tokens p.1 p.2 hx) source p.2 b rest hr

/-- Goes on without regard to a result. -/
theorem bind_any (hf : ∀ x, Gives (f x) Q) : Gives (r >>= f) Q :=
  bind (P := fun _ => True) (fun _ _ _ _ _ => trivial) fun x _ => hf x

theorem fail_bind {cause : SyntaxCause} : Gives (Reader.fail cause >>= f) Q :=
  bind (P := fun _ => False) fail fun _ h => h.elim

theorem ite {p : Prop} [Decidable p] {a b : Reader β} (ha : p → Gives a Q) (hb : ¬p → Gives b Q) :
    Gives (if p then a else b) Q := by
  split
  · exact ha ‹_›
  · exact hb ‹_›

/-- What a reader gives is what a whole text is read as. -/
theorem run {beyond : String → SyntaxCause} {scope : Scope} {text : String} {a : α}
    (h : Gives r P) (hr : r.run beyond scope text = .ok a) : P a := by
  unfold Reader.run at hr
  extract_lets l whole at hr
  have hwhole : Gives whole P := by
    refine .bind_any fun _ => h.bind fun q hq => .bind_any fun next => ?_
    split
    · exact .fail
    · exact .pure hq
  generalize hw : (whole ⟨text, scope, l.fault⟩).run l.tokens = result at hr
  cases result with
  | error e => cases hr
  | ok p =>
    cases hr
    exact hwhole _ _ _ _ hw

end Reader.Gives

namespace Grammar

theorem patternPredicatesUpTo_closed (limit : Nat) :
    (patternPredicatesUpTo limit).Gives fun ps => (dependenciesOfAll ps).currentNode = false := by
  induction limit with
  | zero => exact .pure rfl
  | succ n ih =>
    refine .bind_any fun next => .ite (fun _ => .bind_any fun _ => .bind_any fun e => ?_) fun _ =>
      .pure rfl
    refine .bind_any fun _ => .ite (fun _ => .fail_bind) fun hp => ih.bind fun ps hps =>
      .pure ?_
    exact Bool.or_eq_false_iff.mpr ⟨Bool.not_eq_true _ ▸ hp, hps⟩

theorem ofPredicates_closed {ps : List Expr} (h : (dependenciesOfAll ps).currentNode = false)
    (along : Axis) (test : NodeTest) :
    (PositionCheck.ofPredicates along test ps).dependencies.currentNode = false := by
  have hgeneral : (if ps.any Expr.isPositional then
      PositionCheck.among (.path .parentNode along test ps)
      else .none).dependencies.currentNode = false := by
    split
    · exact Bool.or_eq_false_iff.mpr ⟨rfl, Bool.and_eq_false_iff.mpr (.inl h)⟩
    · rfl
  unfold PositionCheck.ofPredicates
  extract_lets general
  split
  · split
    · rfl
    · split
      · rfl
      · exact hgeneral
  · exact hgeneral

theorem ofStep_closed {ps : List Expr} (h : (dependenciesOfAll ps).currentNode = false)
    (along : Axis) (test : NodeTest) {upper : Option (Connector × Pattern)}
    (hu : ∀ u ∈ upper, u.2.Closed) : (Pattern.ofStep along test ps upper).Closed := by
  have hstep : (PatternStep.mk along test ps (.ofPredicates along test ps)).dependencies.currentNode
      = false := Bool.or_eq_false_iff.mpr ⟨h, ofPredicates_closed h along test⟩
  unfold Pattern.ofStep
  cases upper with
  | some u => exact Bool.or_eq_false_iff.mpr ⟨hu u rfl, hstep⟩
  | none =>
    dsimp only
    split
    · rfl
    · exact hstep

theorem patternStep_closed {upper : Option (Connector × Pattern)} (hu : ∀ u ∈ upper, u.2.Closed) :
    (patternStep upper).Gives Pattern.Closed :=
  .bind_any fun along => .bind_any fun test => .bind_any fun limit =>
    (patternPredicatesUpTo_closed limit).bind fun _ hps => .pure (ofStep_closed hps along test hu)

theorem patternStepsUpTo_closed (limit : Nat) {upper : Option (Connector × Pattern)}
    (hu : ∀ u ∈ upper, u.2.Closed) : (patternStepsUpTo limit upper).Gives Pattern.Closed := by
  induction limit generalizing upper with
  | zero => exact patternStep_closed hu
  | succ n ih =>
    refine (patternStep_closed hu).bind fun p hp => .bind_any fun next => ?_
    split
    · exact .pure hp
    · exact .bind_any fun _ => ih (by rintro _ ⟨⟩; exact hp)

theorem patternSteps_closed {upper : Option (Connector × Pattern)} (hu : ∀ u ∈ upper, u.2.Closed) :
    (patternSteps upper).Gives Pattern.Closed :=
  .bind_any fun limit => patternStepsUpTo_closed limit hu

theorem functionPattern_closed (name : String) : (functionPattern name).Gives Pattern.Closed := by
  refine .bind_any fun _ => ?_
  split
  · exact .bind_any fun _ => .bind_any fun _ => .pure rfl
  · refine .bind_any fun _ => .bind_any fun _ => .bind_any fun _ => .bind_any fun _ =>
      .ite (fun _ => .fail_bind) fun _ => ?_
    exact .bind_any fun _ => .bind_any fun _ => .bind_any fun _ => .pure rfl
  · exact .fail

theorem pathPattern_closed : pathPattern.Gives Pattern.Closed := by
  have hdocument (c : Connector) : ∀ u ∈ some (c, Pattern.document), u.2.Closed := by
    rintro _ ⟨⟩
    rfl
  refine .bind_any fun next => ?_
  split
  · exact .bind_any fun _ => .bind_any fun _ =>
      .ite (fun _ => patternSteps_closed (hdocument .parent)) fun _ => .pure rfl
  · exact .bind_any fun _ => patternSteps_closed (hdocument .ancestor)
  · refine (functionPattern_closed _).bind fun p hp => .bind_any fun next => ?_
    split
    · exact .pure hp
    · exact .bind_any fun _ => patternSteps_closed (by rintro _ ⟨⟩; exact hp)
  · exact patternSteps_closed (by rintro _ ⟨⟩)

theorem unionPatternUpTo_closed (limit : Nat) {p : Pattern} (hp : p.Closed) :
    (unionPatternUpTo limit p).Gives Pattern.Closed := by
  induction limit generalizing p with
  | zero => exact .pure hp
  | succ n ih =>
    refine .bind_any fun next => .ite (fun _ => .bind_any fun _ => ?_) fun _ => .pure hp
    exact pathPattern_closed.bind fun q hq => ih (Bool.or_eq_false_iff.mpr ⟨hp, hq⟩)

theorem pattern_closed : pattern.Gives Pattern.Closed :=
  pathPattern_closed.bind fun _ hp => .bind_any fun limit => unionPatternUpTo_closed limit hp

end Grammar

/-- A pattern has no current node of its own, so no text that asks for one is read as a pattern. -/
theorem Pattern.parse_closed {scope : Scope} {text : String} {p : Pattern}
    (h : Pattern.parse scope text = .ok p) : p.Closed :=
  Grammar.pattern_closed.run h

end PathLanguage
