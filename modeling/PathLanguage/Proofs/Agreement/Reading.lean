/- Reading cursors that are alike: in step, and with the same nodes. -/
import PathLanguage.Proofs.Agreement.Cursor

namespace PathLanguage

variable {T : Transformation} {E : Engine} {k k' : Cursor}

namespace Engine.Steady

theorem pull (hE : E.Steady T) (h : k.Alike T k') :
    Action.InStep (fun r r' => r.1 = r'.1 ∧ r.2.Alike T r'.2) (E.pull k) (E.pull k') := by
  refine (Action.InStep.lift (hE.next h)).bind fun p p' hp => ?_
  obtain ⟨o, r⟩ := p
  obtain ⟨o', r'⟩ := p'
  obtain ⟨rfl, hr⟩ : o = o' ∧ r.Alike T r' := ⟨hp.outcome, hp.rest⟩
  cases o with
  | ok n => exact .pure ⟨rfl, hr⟩
  | error f => exact .throw f

theorem head (hE : E.Steady T) (h : k.Alike T k') :
    Action.InStep Eq (E.head k) (E.head k') :=
  (hE.pull h).map fun _ _ hr => hr.1

theorem extent (hE : E.Steady T) (h : k.Alike T k') :
    Action.InStep Eq (E.extent k) (E.extent k') :=
  (hE.drain h).map fun _ _ hn => by rw [hn, h.flags]

theorem sortedCursor (hE : E.Steady T) (h : k.Alike T k') :
    Action.InStep (Cursor.Alike T) (E.sortedCursor k) (E.sortedCursor k') := by
  unfold Engine.sortedCursor
  rw [← h.flags]
  split
  · exact .pure h
  · exact (hE.extent h).bind_eq fun e => (Action.InStep.ofExcept e.sort).bind_eq fun e =>
      .pure (.refl_ofExtent e)

end Engine.Steady

namespace Cursor

theorem startMerge_inStep (hE : E.Steady T) (op : SetOperator) {l l' : Cursor}
    (h : k.Alike T k') (hl : l.Alike T l') :
    Action.InStep (Cursor.Alike T) (startMerge E op k l) (startMerge E op k' l') := by
  refine (hE.sortedCursor h).bind fun _ _ h => (hE.pull h).bind ?_
  rintro ⟨lh, k⟩ ⟨_, k'⟩ ⟨rfl, h⟩
  refine (hE.sortedCursor hl).bind fun _ _ hl => (hE.pull hl).bind ?_
  rintro ⟨rh, l⟩ ⟨_, l'⟩ ⟨rfl, hl⟩
  exact .pure (.merge op lh rh h hl)

theorem startDistinct_inStep (hE : E.Steady T) {key key' : Option Expr} {c c' : Context}
    (h : k.Alike T k') (hk : Option.Rel (fun e e' => FixedAlike T e e' c c') key key') :
    Action.InStep (Cursor.Alike T) (startDistinct E k key c) (startDistinct E k' key' c') :=
  (hE.sortedCursor h).map fun _ _ h => .distinct [] h <| by
    cases hk with
    | none => exact .none
    | some he => exact .some he.ambient

theorem nextAhead_inStep (hE : E.Steady T) (buffer : List Node) (delivered : Nat) (exhausted : Bool)
    (h : k.Alike T k') :
    InStep (Pull.Alike T) (nextAhead E k buffer delivered exhausted)
      (nextAhead E k' buffer delivered exhausted) := by
  unfold nextAhead
  split
  · exact .pure ⟨rfl, .lookahead _ _ _ h⟩
  · split
    · exact .pure ⟨rfl, .lookahead _ _ _ h⟩
    · refine (hE.next h).bind ?_
      rintro ⟨f | _ | n, k⟩ ⟨_, k'⟩ ⟨rfl, h⟩
      · exact .pure ⟨rfl, .lookahead _ _ _ h⟩
      · exact .pure ⟨rfl, .lookahead _ _ _ h⟩
      · exact .pure ⟨rfl, .lookahead _ _ _ h⟩

theorem accepts_inStep (hE : E.Steady T) {s s' : Selection} (h : s.Alike T s') (n : Node)
    (position last : Nat) :
    Action.InStep Eq (accepts E s n position last) (accepts E s' n position last) := by
  have hp := h.judged.withFocus n position last
  unfold accepts
  extract_lets focus focus'
  rw [← h.strategy]
  split
  · exact .pure rfl
  · exact (hE.number hp).map_eq
  · exact hE.boolean hp
  · refine (hE.value hp).bind fun v v' hv => ?_
    have hb := hE.boolean (hv.ask hp.agrees)
    cases hv with
    | number x => exact .pure rfl
    | _ => exact hb

theorem baseSize_inStep (hE : E.Steady T) {s s' : Selection} (hs : s.Alike T s')
    (last : Option Nat) (position : Nat) (h : k.Alike T k') :
    InStep (Pull.Alike T) (baseSize E k s last position) (baseSize E k' s' last position) := by
  have hread : InStep (Pull.Alike T)
      (do
        let p ← E.size k
        return (⟨p.outcome.map (·.getD position), p.rest⟩ : Pull Nat))
      (do
        let p ← E.size k'
        return ⟨p.outcome.map (·.getD position), p.rest⟩) :=
    (hE.size h).bind fun _ _ hp => .pure ⟨by rw [hp.outcome], hp.rest⟩
  unfold baseSize
  rw [← hs.strategy, ← hs.usesLast]
  split
  · exact .pure ⟨rfl, h⟩
  · exact .pure ⟨rfl, h⟩
  · exact .pure ⟨rfl, h⟩
  · exact hread

theorem nextSelected_inStep (hE : E.Steady T) {s s' : Selection} (hs : s.Alike T s')
    (last : Option Nat) (position : Nat) (finished : Bool) (h : k.Alike T k') :
    InStep (Pull.Alike T) (nextSelected E k s last position finished)
      (nextSelected E k' s' last position finished) := by
  unfold nextSelected
  rw [← hs.strategy, ← hs.usesLast, ← hs.stopsAtReject]
  extract_lets beyond
  split
  · exact .pure ⟨rfl, .filter _ _ _ h hs⟩
  · refine (hE.next h).bind ?_
    rintro ⟨f | _ | n, k⟩ ⟨_, k'⟩ ⟨rfl, h⟩
    · exact .pure ⟨rfl, .filter _ _ _ h hs⟩
    · exact .pure ⟨rfl, .filter _ _ _ h hs⟩
    · refine (baseSize_inStep hE hs last _ h).bind ?_
      rintro ⟨f | l, k⟩ ⟨_, k'⟩ ⟨rfl, h⟩
      · exact .pure ⟨rfl, .filter _ _ _ h hs⟩
      · refine InStep.bind (accepts_inStep hE hs n _ l) ?_
        rintro _ _ (@⟨accepted, _, rfl⟩ | f)
        · cases accepted with
          | true => exact .pure ⟨rfl, .filter _ _ _ h hs⟩
          | false => exact hE.next (.filter _ _ _ h hs)
        · exact .pure ⟨rfl, .filter _ _ _ h hs⟩

theorem passLeft_inStep (hE : E.Steady T) (op : SetOperator) (leftHead rightHead : Option Node)
    {l l' : Cursor} (h : k.Alike T k') (hl : l.Alike T l') :
    InStep (Pull.Alike T) (passLeft E op k leftHead l rightHead)
      (passLeft E op k' leftHead l' rightHead) := by
  refine (hE.next h).bind ?_
  rintro ⟨f | n, k⟩ ⟨_, k'⟩ ⟨rfl, h⟩
  · exact .pure ⟨rfl, .merge _ _ _ h hl⟩
  · exact .pure ⟨rfl, .merge _ _ _ h hl⟩

theorem passRight_inStep (hE : E.Steady T) (op : SetOperator) (leftHead rightHead : Option Node)
    {l l' : Cursor} (h : k.Alike T k') (hl : l.Alike T l') :
    InStep (Pull.Alike T) (passRight E op k leftHead l rightHead)
      (passRight E op k' leftHead l' rightHead) := by
  refine (hE.next hl).bind ?_
  rintro ⟨f | n, l⟩ ⟨_, l'⟩ ⟨rfl, hl⟩
  · exact .pure ⟨rfl, .merge _ _ _ h hl⟩
  · exact .pure ⟨rfl, .merge _ _ _ h hl⟩

theorem passBoth_inStep (hE : E.Steady T) (leftFirst : Bool) (op : SetOperator)
    (leftHead rightHead : Option Node) {l l' : Cursor} (h : k.Alike T k') (hl : l.Alike T l') :
    InStep (Pull.Alike T) (passBoth E leftFirst op k leftHead l rightHead)
      (passBoth E leftFirst op k' leftHead l' rightHead) := by
  have hpass (first : Bool) (op : SetOperator) (leftHead rightHead : Option Node)
      {k k' l l' : Cursor} (h : k.Alike T k') (hl : l.Alike T l') :
      InStep (Pull.Alike T) ((if first then passLeft else passRight) E op k leftHead l rightHead)
        ((if first then passLeft else passRight) E op k' leftHead l' rightHead) := by
    cases first with
    | true => exact passLeft_inStep hE op leftHead rightHead h hl
    | false => exact passRight_inStep hE op leftHead rightHead h hl
  refine (hpass leftFirst op leftHead rightHead h hl).bind ?_
  rintro ⟨f | n, k⟩ ⟨_, k'⟩ ⟨rfl, h⟩
  · exact .pure ⟨rfl, h⟩
  · have hfirst := h
    cases h with
    | merge op leftHead rightHead h hl =>
      cases leftFirst with
      | true => exact hpass false op leftHead rightHead h hl
      | false => exact hpass true op leftHead rightHead h hl
    | listed | lookahead | filter | distinct | steps => exact .pure ⟨rfl, hfirst⟩

theorem deliver_inStep (n : Node) {m m' : StateM Session (Pull Unit)}
    (h : InStep (Pull.Alike T) m m') :
    InStep (Pull.Alike T) (do return deliver n (← m)) (do return deliver n (← m')) :=
  h.bind fun _ _ hp => .pure ⟨congrArg (Except.map _) hp.outcome, hp.rest⟩

theorem goOn_inStep (hE : E.Steady T) {m m' : StateM Session (Pull Unit)}
    (h : InStep (Pull.Alike T) m m') :
    InStep (Pull.Alike T) (do goOn E (← m)) (do goOn E (← m')) := by
  refine h.bind ?_
  rintro ⟨f | _, k⟩ ⟨_, k'⟩ ⟨rfl, h⟩
  · exact .pure ⟨rfl, h⟩
  · exact hE.next h

theorem nextMerged_inStep (hE : E.Steady T) (op : SetOperator) (leftHead rightHead : Option Node)
    {l l' : Cursor} (h : k.Alike T k') (hl : l.Alike T l') :
    InStep (Pull.Alike T) (nextMerged E op k leftHead l rightHead)
      (nextMerged E op k' leftHead l' rightHead) := by
  have hend (r : Except Fault (Option Node)) : InStep (Pull.Alike T)
      (pure ⟨r, .merge op k leftHead l rightHead⟩)
      (pure ⟨r, .merge op k' leftHead l' rightHead⟩) :=
    .pure ⟨rfl, .merge _ _ _ h hl⟩
  have hleft := passLeft_inStep hE op leftHead rightHead h hl
  have hright := passRight_inStep hE op leftHead rightHead h hl
  have hboth (leftFirst : Bool) := passBoth_inStep hE leftFirst op leftHead rightHead h hl
  unfold nextMerged
  split
  · exact hend _
  · split
    · exact deliver_inStep _ hleft
    · exact deliver_inStep _ hleft
    · exact hend _
  · split
    · exact deliver_inStep _ hright
    · exact hend _
    · exact hend _
  · split
    · exact hend _
    · exact deliver_inStep _ hleft
    · exact deliver_inStep _ hleft
    · exact goOn_inStep hE hleft
    · exact deliver_inStep _ hright
    · exact goOn_inStep hE hright
    · exact goOn_inStep hE hright
    · exact deliver_inStep _ (hboth false)
    · exact deliver_inStep _ (hboth false)
    · exact goOn_inStep hE (hboth true)

theorem keyOf_inStep (hE : E.Steady T) {key key' : Option (Expr × Context)}
    (h : Option.Rel (fun p p' => FixedAlike T p.1 p'.1 p.2 p'.2) key key') (n : Node) :
    Action.InStep Eq (keyOf E key n) (keyOf E key' n) := by
  cases h with
  | none => exact .pure rfl
  | some h => exact hE.string (h.withNode n)

theorem nextDistinct_inStep (hE : E.Steady T) {key key' : Option (Expr × Context)}
    (hk : Option.Rel (fun p p' => FixedAlike T p.1 p'.1 p.2 p'.2) key key') (seen : List String)
    (h : k.Alike T k') :
    InStep (Pull.Alike T) (nextDistinct E k key seen) (nextDistinct E k' key' seen) := by
  refine (hE.next h).bind ?_
  rintro ⟨f | _ | n, k⟩ ⟨_, k'⟩ ⟨rfl, h⟩
  · exact .pure ⟨rfl, .distinct _ h hk⟩
  · exact .pure ⟨rfl, .distinct _ h hk⟩
  · refine InStep.bind (keyOf_inStep hE hk n) ?_
    rintro _ _ (@⟨text, _, rfl⟩ | f)
    · dsimp only
      split
      · exact hE.next (.distinct _ h hk)
      · exact .pure ⟨rfl, .distinct _ h hk⟩
    · exact .pure ⟨rfl, .distinct _ h hk⟩

theorem nextStep_inStep (hE : E.Steady T) {plan plan' : StepPlan} {c c' : Context}
    (hp : plan.Alike T plan' c c') (sorted : Bool) {start start' : Cursor}
    (hs : start.Alike T start') (h : k.Alike T k') :
    InStep (Pull.Alike T) (nextStep E start plan c k sorted) (nextStep E start' plan' c' k' sorted) := by
  refine (hE.next h).bind ?_
  rintro ⟨f | _ | n, k⟩ ⟨_, k'⟩ ⟨rfl, h⟩
  · exact .pure ⟨rfl, .steps _ hs hp h⟩
  · refine (hE.next hs).bind ?_
    rintro ⟨f | _ | origin, start⟩ ⟨_, start'⟩ ⟨rfl, hs⟩
    · exact .pure ⟨rfl, .steps _ hs hp .refl_empty⟩
    · exact .pure ⟨rfl, .steps _ hs hp .refl_empty⟩
    · exact hE.next (.steps _ hs hp (ofStep_alike hp origin))
  · exact .pure ⟨rfl, .steps _ hs hp h⟩

theorem next_inStep (hE : E.Steady T) (h : k.Alike T k') :
    InStep (Pull.Alike T) (k.next E) (k'.next E) := by
  cases h with
  | listed f size rest =>
    cases rest with
    | nil => exact .pure ⟨rfl, .listed ..⟩
    | cons => exact .pure ⟨rfl, .listed ..⟩
  | lookahead buffer delivered exhausted h => exact nextAhead_inStep hE buffer delivered exhausted h
  | filter last position finished h hs => exact nextSelected_inStep hE hs last position finished h
  | merge op leftHead rightHead h hl => exact nextMerged_inStep hE op leftHead rightHead h hl
  | distinct seen h hk => exact nextDistinct_inStep hE hk seen h
  | steps sorted hs hp h => exact nextStep_inStep hE hp sorted hs h

theorem size_inStep (hE : E.Steady T) (h : k.Alike T k') :
    InStep (Pull.Alike T) (k.size E) (k'.size E) := by
  cases h with
  | lookahead buffer delivered exhausted h =>
    unfold size
    dsimp only
    split
    · exact .pure ⟨rfl, .lookahead _ _ _ h⟩
    · refine (hE.next h).bind ?_
      rintro ⟨f | _ | n, k⟩ ⟨_, k'⟩ ⟨rfl, h⟩
      · exact .pure ⟨rfl, .lookahead _ _ _ h⟩
      · exact .pure ⟨rfl, .lookahead _ _ _ h⟩
      · exact hE.size (.lookahead _ _ _ h)
  | listed => exact .pure ⟨rfl, .listed ..⟩
  | filter _ _ _ h hs => exact .pure ⟨rfl, .filter _ _ _ h hs⟩
  | merge _ _ _ h hl => exact .pure ⟨rfl, .merge _ _ _ h hl⟩
  | distinct _ h hk => exact .pure ⟨rfl, .distinct _ h hk⟩
  | steps _ hs hp h => exact .pure ⟨rfl, .steps _ hs hp h⟩

theorem drain_inStep (hE : E.Steady T) (h : k.Alike T k') :
    Action.InStep Eq (k.drain E) (k'.drain E) := by
  refine (hE.pull h).bind ?_
  rintro ⟨_ | n, k⟩ ⟨_, k'⟩ ⟨rfl, h⟩
  · exact .pure rfl
  · exact (hE.drain h).map_eq

theorem find_inStep (hE : E.Steady T) (test : Node → Bool) (h : k.Alike T k') :
    Action.InStep Eq (k.find E test) (k'.find E test) := by
  refine (hE.pull h).bind ?_
  rintro ⟨_ | n, k⟩ ⟨_, k'⟩ ⟨rfl, h⟩
  · exact .pure rfl
  · dsimp only
    split
    · exact .pure rfl
    · exact hE.find test h

end Cursor

end PathLanguage
