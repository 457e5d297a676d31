/- Cursors that echo one another, holding what echoes in the same contexts, deliver the same nodes. -/
import PathLanguage.Evaluation.Reading
import PathLanguage.Proofs.Echo.Run

namespace PathLanguage

structure Selection.Echo (h : Pasts) (s s' : Selection) : Prop where
  predicate : s.predicate.Echo h s'.predicate
  context : s.context = s'.context
  strategy : s.strategy = s'.strategy
  usesLast : s.usesLast = s'.usesLast
  stopsAtReject : s.stopsAtReject = s'.stopsAtReject

structure StepPlan.Echo (h : Pasts) (p p' : StepPlan) : Prop where
  axis : p.axis = p'.axis
  test : p.test = p'.test
  predicates : AllEcho h p.predicates p'.predicates

/-- Keys by which distinct nodes are told apart. -/
structure KeyEcho (h : Pasts) (k k' : Expr × Context) : Prop where
  key : k.1.Echo h k'.1
  context : k.2 = k'.2

inductive Cursor.Echo (h : Pasts) : Cursor → Cursor → Prop
  | listed (f : Flags) (size : Option Nat) (rest : List Node) :
      Cursor.Echo h (.listed f size rest) (.listed f size rest)
  | lookahead {base base' : Cursor} (buffer : List Node) (delivered : Nat) (exhausted : Bool) :
      base.Echo h base' → Cursor.Echo h (.lookahead base buffer delivered exhausted)
        (.lookahead base' buffer delivered exhausted)
  | filter {base base' : Cursor} {s s' : Selection} (last : Option Nat) (position : Nat)
      (finished : Bool) : base.Echo h base' → s.Echo h s' →
      Cursor.Echo h (.filter base s last position finished)
        (.filter base' s' last position finished)
  | merge (op : SetOperator) {left left' right right' : Cursor} (leftHead rightHead : Option Node) :
      left.Echo h left' → right.Echo h right' →
      Cursor.Echo h (.merge op left leftHead right rightHead)
        (.merge op left' leftHead right' rightHead)
  | distinct {base base' : Cursor} {key key' : Option (Expr × Context)} (seen : List String) :
      base.Echo h base' → Option.Rel (KeyEcho h) key key' →
      Cursor.Echo h (.distinct base key seen) (.distinct base' key' seen)
  | steps {start start' : Cursor} {plan plan' : StepPlan} (c : Context) {current current' : Cursor}
      (sorted : Bool) : start.Echo h start' → plan.Echo h plan' → current.Echo h current' →
      Cursor.Echo h (.steps start plan c current sorted) (.steps start' plan' c current' sorted)

structure Pull.Echo {α : Type} (h : Pasts) (p p' : Pull α) : Prop where
  outcome : p.outcome = p'.outcome
  rest : p.rest.Echo h p'.rest

/-- Reading two cursors, what remains of which echoes. -/
abbrev PullEchoes {α : Type} (T : Transformation) (h : Pasts) (m m' : StateM Session (Pull α)) :
    Prop :=
  Echoes T h Pull.GivenUp (Pull.Echo h) m m'

/-- An engine whose evaluations are echoed by those of another one, which may follow them deeper. -/
structure Engine.Echoes (T : Transformation) (h : Pasts) (E E' : Engine) : Prop where
  value {e e' : Expr} (c : Context) :
    e.Echo h e' → Action.Echoes T h (Value.Echo h) (E.value e c) (E'.value e' c)
  boolean {e e' : Expr} (c : Context) :
    e.Echo h e' → Action.Echoes T h Eq (E.boolean e c) (E'.boolean e' c)
  number {e e' : Expr} (c : Context) :
    e.Echo h e' → Action.Echoes T h Eq (E.number e c) (E'.number e' c)
  string {e e' : Expr} (c : Context) :
    e.Echo h e' → Action.Echoes T h Eq (E.string e c) (E'.string e' c)
  nodeSet {e e' : Expr} (c : Context) :
    e.Echo h e' → Action.Echoes T h (NodeSet.Echo h) (E.nodeSet e c) (E'.nodeSet e' c)
  cursor {e e' : Expr} (c : Context) (sort : Bool) :
    e.Echo h e' → Action.Echoes T h (Cursor.Echo h) (E.cursor e c sort) (E'.cursor e' c sort)
  reduce {e e' : Expr} (mask : Dependencies) (c : Context) : e.Echo h e' →
    Action.Echoes T h (fun r r' => r.1.Echo h r'.1 ∧ r.2 = r'.2) (E.reduce mask e c)
      (E'.reduce mask e' c)
  next {k k' : Cursor} : k.Echo h k' → PullEchoes T h (E.next k) (E'.next k')
  size {k k' : Cursor} : k.Echo h k' → PullEchoes T h (E.size k) (E'.size k')
  drain {k k' : Cursor} : k.Echo h k' → Action.Echoes T h Eq (E.drain k) (E'.drain k')
  find {k k' : Cursor} (test : Node → Bool) :
    k.Echo h k' → Action.Echoes T h Eq (E.find test k) (E'.find test k')

theorem Expr.Echo.strategy {h : Pasts} {p p' : Expr} (hp : p.Echo h p') :
    Strategy.ofPredicate p = Strategy.ofPredicate p' := by
  cases hp with
  | value hv => cases hv <;> rfl
  | _ => rfl

namespace Cursor

variable {h : Pasts} {k k' : Cursor}

theorem Echo.flags (hk : k.Echo h k') : k.flags = k'.flags := by
  induction hk with
  | listed | merge | distinct => rfl
  | lookahead _ _ _ _ ih | filter _ _ _ _ _ ih => exact ih
  | steps c sorted _ hp _ => simp only [Cursor.flags, hp.axis]

theorem Echo.counts (hk : k.Echo h k') : k.counts = k'.counts := by
  cases hk <;> rfl

theorem echo_ofOption (h : Pasts) (n : Option Node) : (ofOption n).Echo h (ofOption n) :=
  .listed ..

theorem echo_ofExtent (h : Pasts) (e : Extent) : (ofExtent e).Echo h (ofExtent e) := .listed ..

theorem echo_empty (h : Pasts) : Cursor.empty.Echo h .empty := .listed ..

theorem Echo.select (hk : k.Echo h k') {p p' : Expr} (hp : p.Echo h p') (c : Context)
    (stopsAtReject : Bool) : (k.select p c stopsAtReject).Echo h (k'.select p' c stopsAtReject) := by
  unfold Cursor.select
  extract_lets usesLast usesLast'
  have hu : usesLast = usesLast' := congrArg Dependencies.last hp.dependencies
  rw [← hk.counts, ← hu]
  refine .filter _ _ _ ?_ ⟨hp, rfl, hp.strategy, rfl, rfl⟩
  split
  · exact .lookahead _ _ _ hk
  · exact hk

theorem Echo.selectAll {ps ps' : List Expr} (hp : AllEcho h ps ps') (c : Context)
    (hk : k.Echo h k') :
    (ps.foldl (fun k p => k.select p c false) k).Echo h
      (ps'.foldl (fun k p => k.select p c false) k') := by
  induction ps generalizing ps' k k' with
  | nil =>
    cases hp
    exact hk
  | cons p ps ih =>
    cases hp with
    | cons hp hps =>
      rw [List.foldl_cons, List.foldl_cons]
      exact ih hps (hk.select hp c false)

theorem ofStep_echo {plan plan' : StepPlan} (hp : plan.Echo h plan') (origin : Node)
    (c : Context) : (ofStep plan origin c).Echo h (ofStep plan' origin c) := by
  unfold ofStep
  rw [← hp.axis, ← hp.test]
  exact Echo.selectAll hp.predicates c (.listed ..)

end Cursor

end PathLanguage

namespace PathLanguage

variable {T : Transformation} {h : Pasts} {E E' : Engine} {k k' : Cursor}

/-- Goes on from what two cursors deliver alike. A first cursor that gives up must end the reading. -/
theorem PullEchoes.read {α β γ : Type} {m m' : StateM Session (Pull α)} {GivenUp : β → Prop}
    {R : β → γ → Prop} {f : Pull α → StateM Session β} {f' : Pull α → StateM Session γ}
    (hm : PullEchoes T h m m')
    (hg : ∀ r, Quits GivenUp (f ⟨.error .tooDeep, r⟩))
    (hf : ∀ o r r', r.Echo h r' → Echoes T h GivenUp R (f ⟨o, r⟩) (f' ⟨o, r'⟩)) :
    Echoes T h GivenUp R (m >>= f) (m' >>= f') := by
  refine Echoes.bind hm ?_ ?_
  · rintro ⟨_, r⟩ rfl
    exact hg r
  · rintro ⟨o, r⟩ ⟨_, r'⟩ ⟨rfl, hr⟩
    exact hf o r r' hr

/-- The same in an action. -/
theorem PullEchoes.read_action {α β γ : Type} {m m' : StateM Session (Pull α)} {R : β → γ → Prop}
    {f : Pull α → Action β} {f' : Pull α → Action γ} (hm : PullEchoes T h m m')
    (hg : ∀ r, f ⟨.error .tooDeep, r⟩ = .fail .tooDeep)
    (hf : ∀ o r r', r.Echo h r' → Action.Echoes T h R (f ⟨o, r⟩) (f' ⟨o, r'⟩)) :
    Action.Echoes T h R (liftM m >>= f) (liftM m' >>= f') :=
  PullEchoes.read hm (fun r => by rw [hg]; exact fun _ => ⟨rfl, rfl⟩) hf

namespace Engine.Echoes

theorem pull (hE : E.Echoes T h E') (hk : k.Echo h k') :
    Action.Echoes T h (fun r r' => r.1 = r'.1 ∧ r.2.Echo h r'.2) (E.pull k) (E'.pull k') := by
  refine PullEchoes.read_action (hE.next hk) (fun _ => rfl) fun o r r' hr => ?_
  cases o with
  | ok n => exact .pure ⟨rfl, hr⟩
  | error f => exact .throw f

theorem head (hE : E.Echoes T h E') (hk : k.Echo h k') :
    Action.Echoes T h Eq (E.head k) (E'.head k') :=
  (hE.pull hk).map fun _ _ hr => hr.1

theorem extent (hE : E.Echoes T h E') (hk : k.Echo h k') :
    Action.Echoes T h Eq (E.extent k) (E'.extent k') :=
  (hE.drain hk).map fun _ _ hn => by rw [hn, hk.flags]

theorem sortedCursor (hE : E.Echoes T h E') (hk : k.Echo h k') :
    Action.Echoes T h (Cursor.Echo h) (E.sortedCursor k) (E'.sortedCursor k') := by
  unfold Engine.sortedCursor
  rw [← hk.flags]
  split
  · exact .pure hk
  · exact (hE.extent hk).bind_eq fun e => (Action.Echoes.ofExcept e.sort).bind_eq fun e =>
      .pure (Cursor.echo_ofExtent h e)

end Engine.Echoes

namespace Cursor

theorem startMerge_echoes (hE : E.Echoes T h E') (op : SetOperator) {l l' : Cursor}
    (hk : k.Echo h k') (hl : l.Echo h l') :
    Action.Echoes T h (Cursor.Echo h) (startMerge E op k l) (startMerge E' op k' l') := by
  refine (hE.sortedCursor hk).bind fun _ _ hk => (hE.pull hk).bind ?_
  rintro ⟨lh, k⟩ ⟨_, k'⟩ ⟨rfl, hk⟩
  refine (hE.sortedCursor hl).bind fun _ _ hl => (hE.pull hl).bind ?_
  rintro ⟨rh, l⟩ ⟨_, l'⟩ ⟨rfl, hl⟩
  exact .pure (.merge op lh rh hk hl)

theorem startDistinct_echoes (hE : E.Echoes T h E') {key key' : Option Expr} (c : Context)
    (hk : k.Echo h k') (hkey : Option.Rel (Expr.Echo h) key key') :
    Action.Echoes T h (Cursor.Echo h) (startDistinct E k key c) (startDistinct E' k' key' c) :=
  (hE.sortedCursor hk).map fun _ _ hk => .distinct [] hk <| by
    cases hkey with
    | none => exact .none
    | some he => exact .some ⟨he, rfl⟩

theorem nextAhead_echoes (hE : E.Echoes T h E') (buffer : List Node) (delivered : Nat)
    (exhausted : Bool) (hk : k.Echo h k') :
    PullEchoes T h (nextAhead E k buffer delivered exhausted)
      (nextAhead E' k' buffer delivered exhausted) := by
  unfold nextAhead
  split
  · exact .pure ⟨rfl, .lookahead _ _ _ hk⟩
  · split
    · exact .pure ⟨rfl, .lookahead _ _ _ hk⟩
    · refine PullEchoes.read (hE.next hk) (fun _ _ => ⟨rfl, rfl⟩) fun o k k' hk => ?_
      rcases o with f | _ | n
      · exact .pure ⟨rfl, .lookahead _ _ _ hk⟩
      · exact .pure ⟨rfl, .lookahead _ _ _ hk⟩
      · exact .pure ⟨rfl, .lookahead _ _ _ hk⟩

theorem accepts_echoes (hE : E.Echoes T h E') {s s' : Selection} (hs : s.Echo h s') (n : Node)
    (position last : Nat) :
    Action.Echoes T h Eq (accepts E s n position last) (accepts E' s' n position last) := by
  have hp := hs.predicate
  unfold accepts
  extract_lets focus focus'
  have hf : focus = focus' := by simp only [focus, focus', hs.context]
  rw [← hs.strategy, ← hf]
  split
  · exact .pure rfl
  · exact (hE.number focus hp).map_eq
  · exact hE.boolean focus hp
  · refine (hE.value focus hp).bind fun v v' hv => ?_
    have hb := hE.boolean focus (.value hv)
    cases hv with
    | number x => exact .pure rfl
    | _ => exact hb

theorem baseSize_echoes (hE : E.Echoes T h E') {s s' : Selection} (hs : s.Echo h s')
    (last : Option Nat) (position : Nat) (hk : k.Echo h k') :
    PullEchoes T h (baseSize E k s last position) (baseSize E' k' s' last position) := by
  have hread : PullEchoes T h
      (do
        let p ← E.size k
        return (⟨p.outcome.map (·.getD position), p.rest⟩ : Pull Nat))
      (do
        let p ← E'.size k'
        return ⟨p.outcome.map (·.getD position), p.rest⟩) :=
    PullEchoes.read (hE.size hk) (fun _ _ => ⟨rfl, rfl⟩) fun _ _ _ hk => .pure ⟨rfl, hk⟩
  unfold baseSize
  rw [← hs.strategy, ← hs.usesLast]
  split
  · exact .pure ⟨rfl, hk⟩
  · exact .pure ⟨rfl, hk⟩
  · exact .pure ⟨rfl, hk⟩
  · exact hread

theorem nextSelected_echoes (hE : E.Echoes T h E') {s s' : Selection} (hs : s.Echo h s')
    (last : Option Nat) (position : Nat) (finished : Bool) (hk : k.Echo h k') :
    PullEchoes T h (nextSelected E k s last position finished)
      (nextSelected E' k' s' last position finished) := by
  unfold nextSelected
  rw [← hs.strategy, ← hs.usesLast, ← hs.stopsAtReject]
  extract_lets beyond
  split
  · exact .pure ⟨rfl, .filter _ _ _ hk hs⟩
  · refine PullEchoes.read (hE.next hk) (fun _ _ => ⟨rfl, rfl⟩) fun o k k' hk => ?_
    rcases o with f | _ | n
    · exact .pure ⟨rfl, .filter _ _ _ hk hs⟩
    · exact .pure ⟨rfl, .filter _ _ _ hk hs⟩
    · refine PullEchoes.read (baseSize_echoes hE hs last _ hk) (fun _ _ => ⟨rfl, rfl⟩) fun o k k' hk => ?_
      rcases o with f | l
      · exact .pure ⟨rfl, .filter _ _ _ hk hs⟩
      · refine Echoes.attempt (accepts_echoes hE hs n _ l) (fun _ => ⟨rfl, rfl⟩) ?_
        rintro _ _ (@⟨accepted, _, rfl⟩ | f)
        · cases accepted with
          | true => exact .pure ⟨rfl, .filter _ _ _ hk hs⟩
          | false => exact hE.next (.filter _ _ _ hk hs)
        · exact .pure ⟨rfl, .filter _ _ _ hk hs⟩

section merge

variable {l l' : Cursor} (op : SetOperator) (leftHead rightHead : Option Node)

theorem passLeft_echoes (hE : E.Echoes T h E') (hk : k.Echo h k') (hl : l.Echo h l') :
    PullEchoes T h (passLeft E op k leftHead l rightHead)
      (passLeft E' op k' leftHead l' rightHead) := by
  refine PullEchoes.read (hE.next hk) (fun _ _ => ⟨rfl, rfl⟩) fun o k k' hk => ?_
  cases o with
  | error f => exact .pure ⟨rfl, .merge _ _ _ hk hl⟩
  | ok n => exact .pure ⟨rfl, .merge _ _ _ hk hl⟩

theorem passRight_echoes (hE : E.Echoes T h E') (hk : k.Echo h k') (hl : l.Echo h l') :
    PullEchoes T h (passRight E op k leftHead l rightHead)
      (passRight E' op k' leftHead l' rightHead) := by
  refine PullEchoes.read (hE.next hl) (fun _ _ => ⟨rfl, rfl⟩) fun o l l' hl => ?_
  cases o with
  | error f => exact .pure ⟨rfl, .merge _ _ _ hk hl⟩
  | ok n => exact .pure ⟨rfl, .merge _ _ _ hk hl⟩

theorem passBoth_echoes (hE : E.Echoes T h E') (leftFirst : Bool) (hk : k.Echo h k')
    (hl : l.Echo h l') :
    PullEchoes T h (passBoth E leftFirst op k leftHead l rightHead)
      (passBoth E' leftFirst op k' leftHead l' rightHead) := by
  have hpass (first : Bool) (op : SetOperator) (leftHead rightHead : Option Node)
      {k k' l l' : Cursor} (hk : k.Echo h k') (hl : l.Echo h l') :
      PullEchoes T h ((if first then passLeft else passRight) E op k leftHead l rightHead)
        ((if first then passLeft else passRight) E' op k' leftHead l' rightHead) := by
    cases first with
    | true => exact passLeft_echoes op leftHead rightHead hE hk hl
    | false => exact passRight_echoes op leftHead rightHead hE hk hl
  refine PullEchoes.read (hpass leftFirst op leftHead rightHead hk hl) (fun _ _ => ⟨rfl, rfl⟩)
    fun o r r' hr => ?_
  cases o with
  | error f => exact .pure ⟨rfl, hr⟩
  | ok _ =>
    have hfirst := hr
    cases hr with
    | merge op leftHead rightHead hk hl =>
      cases leftFirst with
      | true => exact hpass false op leftHead rightHead hk hl
      | false => exact hpass true op leftHead rightHead hk hl
    | listed | lookahead | filter | distinct | steps => exact .pure ⟨rfl, hfirst⟩

theorem deliver_echoes (n : Node) {m m' : StateM Session (Pull Unit)} (hm : PullEchoes T h m m') :
    PullEchoes T h (do return deliver n (← m)) (do return deliver n (← m')) :=
  PullEchoes.read hm (fun _ _ => ⟨rfl, rfl⟩) fun _ _ _ hk => .pure ⟨rfl, hk⟩

theorem goOn_echoes (hE : E.Echoes T h E') {m m' : StateM Session (Pull Unit)}
    (hm : PullEchoes T h m m') : PullEchoes T h (do goOn E (← m)) (do goOn E' (← m')) := by
  refine PullEchoes.read hm (fun _ _ => ⟨rfl, rfl⟩) fun o k k' hk => ?_
  cases o with
  | error f => exact .pure ⟨rfl, hk⟩
  | ok _ => exact hE.next hk

theorem nextMerged_echoes (hE : E.Echoes T h E') (hk : k.Echo h k') (hl : l.Echo h l') :
    PullEchoes T h (nextMerged E op k leftHead l rightHead)
      (nextMerged E' op k' leftHead l' rightHead) := by
  have hend (o : Except Fault (Option Node)) : PullEchoes T h
      (pure ⟨o, .merge op k leftHead l rightHead⟩) (pure ⟨o, .merge op k' leftHead l' rightHead⟩) :=
    .pure ⟨rfl, .merge _ _ _ hk hl⟩
  have hleft := passLeft_echoes op leftHead rightHead hE hk hl
  have hright := passRight_echoes op leftHead rightHead hE hk hl
  have hboth (leftFirst : Bool) := passBoth_echoes op leftHead rightHead hE leftFirst hk hl
  unfold nextMerged
  split
  · exact hend _
  · split
    · exact deliver_echoes _ hleft
    · exact deliver_echoes _ hleft
    · exact hend _
  · split
    · exact deliver_echoes _ hright
    · exact hend _
    · exact hend _
  · split
    · exact hend _
    · exact deliver_echoes _ hleft
    · exact deliver_echoes _ hleft
    · exact goOn_echoes hE hleft
    · exact deliver_echoes _ hright
    · exact goOn_echoes hE hright
    · exact goOn_echoes hE hright
    · exact deliver_echoes _ (hboth false)
    · exact deliver_echoes _ (hboth false)
    · exact goOn_echoes hE (hboth true)

end merge

theorem keyOf_echoes (hE : E.Echoes T h E') {key key' : Option (Expr × Context)}
    (hkey : Option.Rel (KeyEcho h) key key') (n : Node) :
    Action.Echoes T h Eq (keyOf E key n) (keyOf E' key' n) := by
  cases hkey with
  | none => exact .pure rfl
  | @some p p' hp =>
    obtain ⟨e, c⟩ := p
    obtain ⟨e', c'⟩ := p'
    obtain ⟨he, rfl⟩ : e.Echo h e' ∧ c = c' := ⟨hp.key, hp.context⟩
    exact hE.string _ he

theorem nextDistinct_echoes (hE : E.Echoes T h E') {key key' : Option (Expr × Context)}
    (hkey : Option.Rel (KeyEcho h) key key') (seen : List String) (hk : k.Echo h k') :
    PullEchoes T h (nextDistinct E k key seen) (nextDistinct E' k' key' seen) := by
  refine PullEchoes.read (hE.next hk) (fun _ _ => ⟨rfl, rfl⟩) fun o k k' hk => ?_
  rcases o with f | _ | n
  · exact .pure ⟨rfl, .distinct _ hk hkey⟩
  · exact .pure ⟨rfl, .distinct _ hk hkey⟩
  · refine Echoes.attempt (keyOf_echoes hE hkey n) (fun _ => ⟨rfl, rfl⟩) ?_
    rintro _ _ (@⟨text, _, rfl⟩ | f)
    · dsimp only
      split
      · exact hE.next (.distinct _ hk hkey)
      · exact .pure ⟨rfl, .distinct _ hk hkey⟩
    · exact .pure ⟨rfl, .distinct _ hk hkey⟩

theorem nextStep_echoes (hE : E.Echoes T h E') {plan plan' : StepPlan} (hp : plan.Echo h plan')
    (c : Context) (sorted : Bool) {start start' : Cursor} (hs : start.Echo h start')
    (hk : k.Echo h k') :
    PullEchoes T h (nextStep E start plan c k sorted) (nextStep E' start' plan' c k' sorted) := by
  refine PullEchoes.read (hE.next hk) (fun _ _ => ⟨rfl, rfl⟩) fun o k k' hk => ?_
  rcases o with f | _ | n
  · exact .pure ⟨rfl, .steps _ _ hs hp hk⟩
  · refine PullEchoes.read (hE.next hs) (fun _ _ => ⟨rfl, rfl⟩) fun o start start' hs => ?_
    rcases o with f | _ | origin
    · exact .pure ⟨rfl, .steps _ _ hs hp (echo_empty h)⟩
    · exact .pure ⟨rfl, .steps _ _ hs hp (echo_empty h)⟩
    · exact hE.next (.steps _ _ hs hp (ofStep_echo hp origin c))
  · exact .pure ⟨rfl, .steps _ _ hs hp hk⟩

theorem next_echoes (hE : E.Echoes T h E') (hk : k.Echo h k') :
    PullEchoes T h (k.next E) (k'.next E') := by
  cases hk with
  | listed f size rest =>
    cases rest with
    | nil => exact .pure ⟨rfl, .listed ..⟩
    | cons => exact .pure ⟨rfl, .listed ..⟩
  | lookahead buffer delivered exhausted hk => exact nextAhead_echoes hE buffer delivered exhausted hk
  | filter last position finished hk hs => exact nextSelected_echoes hE hs last position finished hk
  | merge op leftHead rightHead hk hl => exact nextMerged_echoes op leftHead rightHead hE hk hl
  | distinct seen hk hkey => exact nextDistinct_echoes hE hkey seen hk
  | steps c sorted hs hp hk => exact nextStep_echoes hE hp c sorted hs hk

theorem size_echoes (hE : E.Echoes T h E') (hk : k.Echo h k') :
    PullEchoes T h (k.size E) (k'.size E') := by
  cases hk with
  | lookahead buffer delivered exhausted hk =>
    unfold size
    dsimp only
    split
    · exact .pure ⟨rfl, .lookahead _ _ _ hk⟩
    · refine PullEchoes.read (hE.next hk) (fun _ _ => ⟨rfl, rfl⟩) fun o k k' hk => ?_
      rcases o with f | _ | n
      · exact .pure ⟨rfl, .lookahead _ _ _ hk⟩
      · exact .pure ⟨rfl, .lookahead _ _ _ hk⟩
      · exact hE.size (.lookahead _ _ _ hk)
  | listed => exact .pure ⟨rfl, .listed ..⟩
  | filter _ _ _ hk hs => exact .pure ⟨rfl, .filter _ _ _ hk hs⟩
  | merge _ _ _ hk hl => exact .pure ⟨rfl, .merge _ _ _ hk hl⟩
  | distinct _ hk hkey => exact .pure ⟨rfl, .distinct _ hk hkey⟩
  | steps _ _ hs hp hk => exact .pure ⟨rfl, .steps _ _ hs hp hk⟩

theorem drain_echoes (hE : E.Echoes T h E') (hk : k.Echo h k') :
    Action.Echoes T h Eq (k.drain E) (k'.drain E') := by
  refine (hE.pull hk).bind ?_
  rintro ⟨_ | n, k⟩ ⟨_, k'⟩ ⟨rfl, hk⟩
  · exact .pure rfl
  · exact (hE.drain hk).map_eq

theorem find_echoes (hE : E.Echoes T h E') (test : Node → Bool) (hk : k.Echo h k') :
    Action.Echoes T h Eq (k.find E test) (k'.find E' test) := by
  refine (hE.pull hk).bind ?_
  rintro ⟨_ | n, k⟩ ⟨_, k'⟩ ⟨rfl, hk⟩
  · exact .pure rfl
  · dsimp only
    split
    · exact .pure rfl
    · exact hE.find test hk

end Cursor

end PathLanguage
