/- The current node in patterns: a text that is a pattern is refused just if simplification leaves
a call of `current()` in one of its predicates. -/
import PathLanguage.Pattern.Grammar
import PathLanguage.Proofs.Grammar.Production
import PathLanguage.Proofs.Simplification.CurrentNode

namespace PathLanguage

namespace Grammar

variable (predicates : Reader (List Expr))

/-- A step of a pattern, whose predicates some reader takes. -/
def stepWith (upper : Option (Connector × Pattern)) : Reader Pattern := do
  let along ← patternAxis
  let test ← patternTest along
  return .ofStep along test (← predicates) upper

def stepsWithUpTo : (limit : Nat) → Option (Connector × Pattern) → Reader Pattern
  | 0, upper => stepWith predicates upper
  | n + 1, upper => do
    let p ← stepWith predicates upper
    match connector? (← Reader.peek?) with
    | none => return p
    | some c =>
      Reader.advance
      stepsWithUpTo n (some (c, p))

def stepsWith (upper : Option (Connector × Pattern)) : Reader Pattern := do
  stepsWithUpTo predicates (← Reader.remaining) upper

def pathWith : Reader Pattern := do
  match ← Reader.peek? with
  | some .slash =>
    Reader.advance
    if ← atPatternStep then stepsWith predicates (some (.parent, .document)) else return .document
  | some .doubleSlash =>
    Reader.advance
    stepsWith predicates (some (.ancestor, .document))
  | some (.function name) =>
    let start ← functionPattern name
    match connector? (← Reader.peek?) with
    | none => return start
    | some c =>
      Reader.advance
      stepsWith predicates (some (c, start))
  | _ => stepsWith predicates none

def unionWithUpTo : (limit : Nat) → Pattern → Reader Pattern
  | 0, p => return p
  | n + 1, p => do
    if (← Reader.peek?) = some .bar then
      Reader.advance
      unionWithUpTo n (.union p (← pathWith predicates))
    else return p

/-- A pattern, the predicates of whose steps some reader takes. -/
def patternWith : Reader Pattern := do
  let first ← pathWith predicates
  unionWithUpTo predicates (← Reader.remaining) first

/-- The predicates of a step of a pattern. -/
def patternPredicates : Reader (List Expr) := do
  patternPredicatesUpTo (← Reader.remaining)

theorem stepsWithUpTo_patternPredicates (n : Nat) (upper : Option (Connector × Pattern)) :
    stepsWithUpTo patternPredicates n upper = patternStepsUpTo n upper := by
  induction n generalizing upper with
  | zero => rfl
  | succ n ih => simp only [stepsWithUpTo, patternStepsUpTo, ih]; rfl

theorem stepsWith_patternPredicates (upper : Option (Connector × Pattern)) :
    stepsWith patternPredicates upper = patternSteps upper := by
  simp only [stepsWith, patternSteps, stepsWithUpTo_patternPredicates]

theorem pathWith_patternPredicates : pathWith patternPredicates = pathPattern := by
  rw [pathWith, funext stepsWith_patternPredicates]
  rfl

theorem unionWithUpTo_patternPredicates (n : Nat) (p : Pattern) :
    unionWithUpTo patternPredicates n p = unionPatternUpTo n p := by
  induction n generalizing p with
  | zero => rfl
  | succ n ih => simp only [unionWithUpTo, unionPatternUpTo, pathWith_patternPredicates, ih]

/-- A pattern is one whose predicates are simplified and asked for the current node. -/
theorem patternWith_patternPredicates : patternWith patternPredicates = pattern := by
  simp only [patternWith, pattern, pathWith_patternPredicates, unionWithUpTo_patternPredicates]

end Grammar

namespace Pattern

/-- The predicates of all steps of a pattern. -/
def predicates : Pattern → List Expr
  | .step s => s.predicates
  | .under _ upper s => upper.predicates ++ s.predicates
  | .union left right => left.predicates ++ right.predicates
  | _ => []

/-- A pattern with its predicates simplified. -/
def simplified : Pattern → Pattern
  | .step s => .ofStep s.axis s.test (s.predicates.map Expr.simplified) none
  | .under c upper s =>
    .ofStep s.axis s.test (s.predicates.map Expr.simplified) (some (c, upper.simplified))
  | .union left right => .union left.simplified right.simplified
  | p => p

/-- Some predicate of a pattern keeps a call of `current()` when it is simplified. -/
def KeepsCurrent (p : Pattern) : Prop := ∃ e ∈ p.predicates, e.KeepsCurrent

/-- Reads a whole text as a pattern, with its predicates as they stand. -/
def read (scope : Scope) (text : String) : Except SyntaxFault Pattern :=
  (Grammar.patternWith (Grammar.bracketed Grammar.expr)).run .beyondPattern scope text

theorem simplified_ofStep (along : Axis) (test : NodeTest) (es : List Expr)
    (upper : Option (Connector × Pattern)) : (ofStep along test es upper).simplified =
      ofStep along test (es.map Expr.simplified) (upper.map fun u => (u.1, u.2.simplified)) := by
  cases upper with
  | some u => rfl
  | none => cases es <;> rfl

theorem predicates_ofStep (along : Axis) (test : NodeTest) (es : List Expr)
    (upper : Option (Connector × Pattern)) :
    (ofStep along test es upper).predicates = (upper.elim [] (·.2.predicates)) ++ es := by
  cases upper with
  | some u => rfl
  | none => cases es <;> rfl

end Pattern

namespace Reader

variable {α β : Type} {S : Scope} {bad : α → Prop} {worse : β → Prop} {after : α → α}
  {later : β → β} {P : α → Prop} {text : String}

/-- What reads the end of a text: whatever is left of it is a fault. -/
def finish (beyond : String → SyntaxCause) (a : α) : Reader α := do
  match ← peek? with
  | some t => fail (beyond t.display)
  | none => return a

/-- What is made of a text that is read as something, where that may be bad: the text is refused
for asking for the current node, or what is read of it is changed. -/
inductive Verdict (bad : α → Prop) (after : α → α) (text : String) :
    Except SyntaxFault α → Except SyntaxFault α → Prop
  | failed {f g : SyntaxFault} : Verdict bad after text (.error f) (.error g)
  | refused {a : α} {position : Nat} : bad a →
    Verdict bad after text (.ok a) (.error ⟨.currentInPattern, text, some position⟩)
  | passed {a : α} : ¬bad a → Verdict bad after text (.ok a) (.ok (after a))

theorem Verdict.fst {x y : Except SyntaxFault (α × β)}
    (h : Verdict (fun p => bad p.1) (Prod.map after id) text x y) :
    Verdict bad after text (x.map Prod.fst) (y.map Prod.fst) := by
  cases h with
  | failed => exact .failed
  | refused hbad => exact .refused hbad
  | passed hgood => exact .passed hgood

/-- On every legible text, a strict reader refuses or changes what a plain one takes, which leaves
a legible text. -/
structure Judges (S : Scope) (bad : α → Prop) (after : α → α) (plain strict : Reader α) :
    Prop where
  verdict {src : Source} {ps : List PlacedToken} : Legible S src ps →
    Verdict (fun p => bad p.1) (Prod.map after id) src.text (plain src ps) (strict src ps)
  yields : Yields S (fun _ => True) plain

namespace Judges

theorem pure {a : α} (h : ¬bad a) : Judges S bad after (pure a) (pure (after a)) where
  verdict _ := .passed h
  yields := .pure trivial

theorem fail {cause : SyntaxCause} :
    Judges S bad after (Reader.fail cause) (Reader.fail cause) where
  verdict := by
    intro src ps _
    cases ps with
    | nil => exact .failed
    | cons p ps => exact .failed
  yields := .fail

/-- What two readers do alike before one of them is strict. -/
theorem behind {r : Reader α} {plain strict : α → Reader β} (hr : Yields S P r)
    (h : ∀ a, P a → Judges S worse later (plain a) (strict a)) :
    Judges S worse later (r >>= plain) (r >>= strict) where
  verdict := by
    intro src ps hps
    cases hfirst : r src ps with
    | error f =>
      rw [run_bind_error hfirst, run_bind_error hfirst]
      exact .failed
    | ok p =>
      obtain ⟨ha, hrest⟩ := hr hps hfirst
      rw [run_bind_ok hfirst, run_bind_ok hfirst]
      exact (h p.1 ha).verdict hrest
  yields := hr.bind fun a ha => (h a ha).yields

theorem bind {plain strict : Reader α} {f g : α → Reader β} (h : Judges S bad after plain strict)
    (hpassed : ∀ a, ¬bad a → Judges S worse later (f a) (g (after a)))
    (hrefused : ∀ a, bad a → Yields S worse (f a)) :
    Judges S worse later (plain >>= f) (strict >>= g) where
  verdict := by
    intro src ps hps
    have hverdict := h.verdict hps
    cases hplain : plain src ps with
    | error x =>
      rw [hplain] at hverdict
      cases hstrict : strict src ps with
      | ok p =>
        rw [hstrict] at hverdict
        cases hverdict
      | error y =>
        rw [run_bind_error hplain, run_bind_error hstrict]
        exact .failed
    | ok p =>
      obtain ⟨-, hrest⟩ := h.yields hps hplain
      rw [hplain] at hverdict
      rw [run_bind_ok hplain]
      generalize hstrict : strict src ps = outcome at hverdict
      cases hverdict with
      | refused hbad =>
        rw [run_bind_error hstrict]
        cases hlast : f p.1 src p.2 with
        | error x => exact .failed
        | ok q => exact .refused (hrefused p.1 hbad hrest hlast).1
      | passed hgood =>
        rw [run_bind_ok hstrict]
        exact (hpassed p.1 hgood).verdict hrest
  yields := by
    apply h.yields.bind
    intro a _
    by_cases hbad : bad a
    · exact (hrefused a hbad).imp fun _ _ => trivial
    · exact (hpassed a hbad).yields

/-- A strict reader that refuses at once. -/
theorem refuse {r : Reader β} {g : α → Reader β} (h : Yields S worse r) :
    Judges S worse later r (Reader.fail .currentInPattern >>= g) where
  verdict := by
    intro src ps hps
    have hfail : ∃ position, (Reader.fail .currentInPattern : Reader α) src ps =
        .error ⟨.currentInPattern, src.text, some position⟩ := by
      cases ps with
      | nil => exact ⟨_, rfl⟩
      | cons p ps => exact ⟨_, rfl⟩
    obtain ⟨position, hfail⟩ := hfail
    rw [run_bind_error hfail]
    cases hr : r src ps with
    | error x => exact .failed
    | ok p => exact .refused (h hps hr).1
  yields := h.imp fun _ _ => trivial

/-- What the readers make of a whole text. -/
theorem run {plain strict : Reader α} (h : Judges S bad after plain strict)
    (beyond : String → SyntaxCause) (text : String) :
    Verdict bad after text (plain.run beyond S text) (strict.run beyond S text) := by
  let l := TokenList.ofText text
  let src : Source := ⟨text, S, l.fault⟩
  change Verdict bad after text
    (Except.map Prod.fst ((checkReadable >>= fun _ => plain >>= finish beyond) src l.tokens))
    (Except.map Prod.fst ((checkReadable >>= fun _ => strict >>= finish beyond) src l.tokens))
  cases hcheck : checkReadable src l.tokens with
  | error f =>
    rw [run_bind_error hcheck, run_bind_error hcheck]
    exact .failed
  | ok p =>
    obtain ⟨htokens, hstart⟩ := checkReadable_eq_ok hcheck
    have hlegible : Legible S src l.tokens := ⟨rfl, TokenList.ofChars_formed, hstart⟩
    rw [run_bind_ok hcheck, run_bind_ok hcheck, htokens]
    have hjudges : Judges S bad after (plain >>= finish beyond) (strict >>= finish beyond) := by
      apply h.bind
      · intro a hgood
        apply behind Yields.peek
        rintro (_ | t) _
        · exact pure hgood
        · exact fail
      · intro a hbad
        apply Yields.peek.bind
        rintro (_ | t) _
        · exact Yields.pure hbad
        · exact Yields.fail
    exact (hjudges.verdict hlegible).fst

end Judges

end Reader

namespace Grammar

open Reader

section yields

variable {S : Scope}

theorem atNodeTest_yields : Yields S (fun _ => True) atNodeTest :=
  Yields.peek.bind fun _ _ => Yields.pure trivial

theorem patternAxis_yields : Yields S (fun _ => True) patternAxis := by
  apply Yields.peek.bind
  intro next _
  split
  · next along =>
    split
    · exact Yields.fail.bind (P := fun _ => False) fun _ h => h.elim
    · exact Yields.advance.bind fun _ _ => Yields.pure trivial
  · apply Yields.advance.bind
    intro _ _
    apply atNodeTest_yields.bind
    intro b _
    cases b with
    | true => exact Yields.pure trivial
    | false => exact Yields.fail.bind (P := fun _ => False) fun _ h => h.elim
  · exact Yields.fail
  · apply atNodeTest_yields.bind
    intro b _
    cases b with
    | true => exact Yields.pure trivial
    | false =>
      apply Yields.shown.bind
      intro _ _
      exact Yields.fail.bind (P := fun _ => False) fun _ h => h.elim

theorem patternTest_yields (along : Axis) : Yields S (fun _ => True) (patternTest along) := by
  apply atNodeTest_yields.bind
  intro b _
  cases b with
  | true =>
    apply (nodeTest_yields along).bind
    intro test _
    split
    · exact Yields.pure trivial
    · exact Yields.pure trivial
  | false =>
    apply Yields.shown.bind
    intro _ _
    exact Yields.fail.bind (P := fun _ => False) fun _ h => h.elim

theorem literal_yields : Yields S (fun _ => True) Reader.literal := by
  apply Yields.peek.bind
  intro next _
  split
  · exact Yields.pure trivial
  · exact Yields.shown.bind fun _ _ => Yields.fail

/-- The patterns that a path starts with have no predicates. -/
theorem functionPattern_yields (name : String) :
    Yields S (fun p => p.predicates = [] ∧ p.simplified = p) (functionPattern name) := by
  have htakeLiteral : Yields S (fun _ => True) takeLiteral := by
    apply literal_yields.bind
    intro _ _
    exact Yields.advance.bind fun _ _ => Yields.pure trivial
  apply Yields.advance.bind
  intro _ _
  split
  · apply htakeLiteral.bind
    intro ids _
    exact Yields.take.bind fun _ _ => Yields.pure ⟨rfl, rfl⟩
  · apply htakeLiteral.bind
    intro keyName _
    apply Yields.take.bind
    intro _ _
    apply literal_yields.bind
    intro value _
    apply Yields.read.bind
    intro src _
    split
    · exact Yields.fail.bind (P := fun _ => False) fun _ h => h.elim
    · apply Yields.resolve.bind
      intro name _
      apply Yields.advance.bind
      intro _ _
      exact Yields.take.bind fun _ _ => Yields.pure ⟨rfl, rfl⟩
  · exact Yields.fail

end yields

/-- Predicates as they stand, and those of a pattern. -/
theorem patternPredicates_judges {S : Scope} :
    Judges S (fun es => ∃ e ∈ es, e.KeepsCurrent) (List.map Expr.simplified) (bracketed expr)
      patternPredicates := by
  have hupto (n : Nat) : Judges S (fun es => ∃ e ∈ es, e.KeepsCurrent) (List.map Expr.simplified)
      (bracketedUpTo expr n) (patternPredicatesUpTo n) := by
    induction n with
    | zero => exact .pure (by simp)
    | succ n ih =>
      apply Judges.behind Yields.peek
      intro next _
      split
      · apply Judges.behind Yields.advance
        intro _ _
        apply Judges.behind expr_yields
        intro e he
        apply Judges.behind Yields.take
        intro _ _
        have hasks : e.simplified.dependencies.currentNode = true ↔ e.KeepsCurrent :=
          Expr.asksCurrent_simplified he
        dsimp only
        by_cases hkeeps : e.KeepsCurrent
        · rw [if_pos (hasks.mpr hkeeps)]
          exact .refuse (ih.yields.bind fun es _ => Yields.pure ⟨e, .head _, hkeeps⟩)
        · rw [if_neg fun h => hkeeps (hasks.mp h)]
          apply ih.bind
          · intro es hes
            exact .pure (a := e :: es) (by simp [hkeeps, hes])
          · rintro es ⟨e', he', hkeeps'⟩
            exact Yields.pure ⟨e', .tail _ he', hkeeps'⟩
      · exact .pure (by simp)
  exact Judges.behind Yields.remaining fun n _ => hupto n

section steps

variable {S : Scope} {predicates strict : Reader (List Expr)}
  {upper : Option (Connector × Pattern)} {p : Pattern}

theorem keepsCurrent_ofStep {along : Axis} {test : NodeTest} {es : List Expr} :
    (Pattern.ofStep along test es upper).KeepsCurrent ↔
      (∃ u ∈ upper, u.2.KeepsCurrent) ∨ ∃ e ∈ es, e.KeepsCurrent := by
  rw [Pattern.KeepsCurrent, Pattern.predicates_ofStep]
  cases upper with
  | none => simp
  | some u => simp [Pattern.KeepsCurrent, or_and_right, exists_or]

variable (h : Judges S (fun es => ∃ e ∈ es, e.KeepsCurrent) (List.map Expr.simplified)
  predicates strict)
include h

theorem stepWith_keeps (hu : ∃ u ∈ upper, u.2.KeepsCurrent) :
    Yields S Pattern.KeepsCurrent (stepWith predicates upper) := by
  apply patternAxis_yields.bind
  intro along _
  apply (patternTest_yields along).bind
  intro test _
  apply h.yields.bind
  intro es _
  exact Yields.pure (keepsCurrent_ofStep.mpr (.inl hu))

theorem stepWith_judges (hu : ¬∃ u ∈ upper, u.2.KeepsCurrent) :
    Judges S Pattern.KeepsCurrent Pattern.simplified (stepWith predicates upper)
      (stepWith strict (upper.map fun u => (u.1, u.2.simplified))) := by
  apply Judges.behind patternAxis_yields
  intro along _
  apply Judges.behind (patternTest_yields along)
  intro test _
  apply h.bind
  · intro es hes
    rw [← Pattern.simplified_ofStep]
    apply Judges.pure
    intro hkeeps
    exact (keepsCurrent_ofStep.mp hkeeps).elim hu hes
  · intro es hes
    exact Yields.pure (keepsCurrent_ofStep.mpr (.inr hes))

theorem stepsWithUpTo_keeps (n : Nat) (hu : ∃ u ∈ upper, u.2.KeepsCurrent) :
    Yields S Pattern.KeepsCurrent (stepsWithUpTo predicates n upper) := by
  induction n generalizing upper with
  | zero => exact stepWith_keeps h hu
  | succ n ih =>
    apply (stepWith_keeps h hu).bind
    intro p hp
    apply Yields.peek.bind
    intro next _
    split
    · exact Yields.pure hp
    · exact Yields.advance.bind fun _ _ => ih ⟨_, rfl, hp⟩

theorem stepsWithUpTo_judges (n : Nat) (hu : ¬∃ u ∈ upper, u.2.KeepsCurrent) :
    Judges S Pattern.KeepsCurrent Pattern.simplified (stepsWithUpTo predicates n upper)
      (stepsWithUpTo strict n (upper.map fun u => (u.1, u.2.simplified))) := by
  induction n generalizing upper with
  | zero => exact stepWith_judges h hu
  | succ n ih =>
    apply (stepWith_judges h hu).bind
    · intro p hp
      apply Judges.behind Yields.peek
      intro next _
      split
      · exact .pure hp
      · next c hc =>
        apply Judges.behind Yields.advance
        intro _ _
        have hu : ¬∃ u ∈ some (c, p), u.2.KeepsCurrent := by simpa using hp
        exact ih hu
    · intro p hp
      apply Yields.peek.bind
      intro next _
      split
      · exact Yields.pure hp
      · exact Yields.advance.bind fun _ _ => stepsWithUpTo_keeps h n ⟨_, rfl, hp⟩

theorem stepsWith_judges (hu : ¬∃ u ∈ upper, u.2.KeepsCurrent) :
    Judges S Pattern.KeepsCurrent Pattern.simplified (stepsWith predicates upper)
      (stepsWith strict (upper.map fun u => (u.1, u.2.simplified))) :=
  .behind Yields.remaining fun n _ => stepsWithUpTo_judges h n hu

theorem pathWith_judges : Judges S Pattern.KeepsCurrent Pattern.simplified (pathWith predicates)
    (pathWith strict) := by
  -- a start without predicates is as it is when it is simplified
  have hstart (c : Connector) {p : Pattern} (hp : p.predicates = []) (hs : p.simplified = p) :
      Judges S Pattern.KeepsCurrent Pattern.simplified (stepsWith predicates (some (c, p)))
        (stepsWith strict (some (c, p))) := by
    have hu : ¬∃ u ∈ some (c, p), u.2.KeepsCurrent := by simp [Pattern.KeepsCurrent, hp]
    have hjudges := stepsWith_judges h hu
    rwa [Option.map_some, hs] at hjudges
  apply Judges.behind Yields.peek
  intro next _
  split
  · apply Judges.behind Yields.advance
    intro _ _
    have hat : Yields S (fun _ => True) atPatternStep := by
      apply Yields.peek.bind
      intro next _
      split
      · exact Yields.pure trivial
      · exact Yields.pure trivial
      · exact atNodeTest_yields
    apply Judges.behind hat
    intro b _
    cases b with
    | true => exact hstart .parent rfl rfl
    | false => exact .pure (by simp [Pattern.KeepsCurrent, Pattern.predicates])
  · exact .behind Yields.advance fun _ _ => hstart .ancestor rfl rfl
  · apply Judges.behind (functionPattern_yields _)
    rintro start ⟨hnone, hsame⟩
    apply Judges.behind Yields.peek
    intro after _
    split
    · have hgood : ¬start.KeepsCurrent := by simp [Pattern.KeepsCurrent, hnone]
      have hpure : Judges S Pattern.KeepsCurrent Pattern.simplified (pure start)
          (pure start.simplified) := .pure hgood
      rwa [hsame] at hpure
    · exact .behind Yields.advance fun _ _ => hstart _ hnone hsame
  · have hu : ¬∃ u ∈ (none : Option (Connector × Pattern)), u.2.KeepsCurrent := by simp
    exact stepsWith_judges h hu

theorem unionWithUpTo_keeps (n : Nat) (hp : p.KeepsCurrent) :
    Yields S Pattern.KeepsCurrent (unionWithUpTo predicates n p) := by
  induction n generalizing p with
  | zero => exact Yields.pure hp
  | succ n ih =>
    apply Yields.peek.bind
    intro next _
    split
    · apply Yields.advance.bind
      intro _ _
      apply (pathWith_judges h).yields.bind
      intro q _
      obtain ⟨e, he, hkeeps⟩ := hp
      exact ih ⟨e, List.mem_append_left _ he, hkeeps⟩
    · exact Yields.pure hp

theorem unionWithUpTo_judges (n : Nat) (hp : ¬p.KeepsCurrent) :
    Judges S Pattern.KeepsCurrent Pattern.simplified (unionWithUpTo predicates n p)
      (unionWithUpTo strict n p.simplified) := by
  induction n generalizing p with
  | zero => exact .pure hp
  | succ n ih =>
    apply Judges.behind Yields.peek
    intro next _
    split
    · apply Judges.behind Yields.advance
      intro _ _
      apply (pathWith_judges h).bind
      · intro q hq
        refine ih (p := .union p q) ?_
        rintro ⟨e, he, hkeeps⟩
        obtain he | he := List.mem_append.mp he
        · exact hp ⟨e, he, hkeeps⟩
        · exact hq ⟨e, he, hkeeps⟩
      · rintro q ⟨e, he, hkeeps⟩
        exact unionWithUpTo_keeps h n ⟨e, List.mem_append_right _ he, hkeeps⟩
    · exact .pure hp

theorem patternWith_judges : Judges S Pattern.KeepsCurrent Pattern.simplified
    (patternWith predicates) (patternWith strict) := by
  apply (pathWith_judges h).bind
  · intro p hp
    exact .behind Yields.remaining fun n _ => unionWithUpTo_judges h n hp
  · intro p hp
    exact Yields.remaining.bind fun n _ => unionWithUpTo_keeps h n hp

end steps

end Grammar

namespace Pattern

variable {S : Scope} {text : String}

theorem parse_verdict (S : Scope) (text : String) :
    Reader.Verdict KeepsCurrent simplified text (read S text) (parse S text) := by
  have hjudges := Grammar.patternWith_judges (Grammar.patternPredicates_judges (S := S))
  rw [Grammar.patternWith_patternPredicates] at hjudges
  exact hjudges.run .beyondPattern text

/-- A text that is a pattern is refused, for the call, just if simplification leaves a call of
`current()` in a predicate of it; otherwise it is read as the pattern with simplified predicates. -/
theorem parse_refuses_current {p : Pattern} (h : read S text = .ok p) :
    (p.KeepsCurrent → ∃ position,
      parse S text = .error ⟨.currentInPattern, text, some position⟩) ∧
    (¬p.KeepsCurrent → parse S text = .ok p.simplified) := by
  have hverdict := parse_verdict S text
  rw [h] at hverdict
  cases hparse : parse S text with
  | error f =>
    rw [hparse] at hverdict
    cases hverdict with
    | refused hkeeps => exact ⟨fun _ => ⟨_, rfl⟩, fun hnot => absurd hkeeps hnot⟩
  | ok q =>
    rw [hparse] at hverdict
    cases hverdict with
    | passed hnot => exact ⟨fun hkeeps => absurd hkeeps hnot, fun _ => rfl⟩

/-- A call two predicates deep is found, and one that a constant operand drops is not. -/
theorem parse_refuses_current_nested :
    (∃ p, read .standalone "a[b[current()]]" = .ok p ∧ ∃ position,
      parse .standalone "a[b[current()]]" =
        .error ⟨.currentInPattern, "a[b[current()]]", some position⟩) ∧
    ∃ p, read .standalone "a[true() or current()]" = .ok p ∧
      parse .standalone "a[true() or current()]" = .ok p.simplified := by
  constructor
  · have hr : read .standalone "a[b[current()]]" =
        .ok (.step ⟨.child, .named .element (.unqualified "a"),
          [.path .contextNode .child (.named .element (.unqualified "b")) [.currentNode]],
          .none⟩) := by rfl
    exact ⟨_, hr, (parse_refuses_current hr).1
      ⟨_, .head _, .part (.tail _ (.head _)) .currentNode (by rfl)⟩⟩
  · have hr : read .standalone "a[true() or current()]" =
        .ok (.step ⟨.child, .named .element (.unqualified "a"),
          [.logical .or (.call .true [] none (some .standalone)) .currentNode], .none⟩) := by rfl
    refine ⟨_, hr, (parse_refuses_current hr).2 ?_⟩
    rintro ⟨e, he, hkeeps⟩
    obtain rfl := List.mem_singleton.mp he
    cases hkeeps with
    | part _ _ hvalue => cases hvalue

end Pattern

end PathLanguage
