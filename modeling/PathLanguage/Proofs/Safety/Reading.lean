/- Reading cursors is safe. -/
import PathLanguage.Proofs.Safety.Engine

namespace PathLanguage.Cursor

open Setting (Ensures Steps)

variable {S : Setting} {s : Session} {E : Engine}

theorem Fits.select {F : Forest} {base : Cursor} (h : base.Fits F s) {p : Expr} (hp : p.Fits F s)
    {c : Context} (hc : c.Fits F s) (stop : Bool) : (base.select p c stop).Fits F s := by
  simp only [Cursor.select, Fits]
  split
  · exact ⟨h, hp, hc.ambient⟩
  · exact ⟨h, hp, hc.ambient⟩

theorem Sound.select {base : Cursor} (h : base.Sound S s) {p : Expr} (hp : p.Fits S.forest s)
    {c : Context} (hc : c.Fits S.forest s) (stop : Bool) : (base.select p c stop).Sound S s :=
  ⟨h.ordered.select p c stop, h.fits.select hp hc stop⟩

theorem ofStep_fits {F : Forest} {plan : StepPlan} (hp : ∀ p ∈ plan.predicates, p.Fits F s)
    {c : Context} (hc : c.Fits F s) (o : Node) : (ofStep plan o c).Fits F s := by
  have key : ∀ (ps : List Expr) (base : Cursor), (∀ p ∈ ps, p.Fits F s) → base.Fits F s →
      (ps.foldl (fun b p => b.select p c false) base).Fits F s := by
    intro ps
    induction ps with
    | nil => exact fun base _ hb => hb
    | cons p ps ih =>
      intro base hps hb
      exact ih _ (fun q hq => hps q (by simp [hq])) (hb.select (hps p (by simp)) hc false)
  exact key plan.predicates _ hp trivial

theorem nextAhead_fits (hE : E.Safe S) {base : Cursor} {buffer : List Node} {delivered : Nat}
    {exhausted : Bool} (h : base.Sound S s) :
    S.Steps s (nextAhead E base buffer delivered exhausted) fun p t => p.rest.Fits S.forest t := by
  cases buffer with
  | cons n rest => exact .pure h.fits
  | nil =>
    cases exhausted with
    | true => exact .pure h.fits
    | false =>
      refine (hE.read h).bind fun p t _ _ ⟨_, hp⟩ => ?_
      split
      · exact .pure hp.fits
      · exact .pure hp.fits
      · exact .pure hp.fits

theorem size_fits (hE : E.Safe S) {c : Cursor} (h : c.Sound S s) :
    S.Steps s (Cursor.size E c) fun p t => p.rest.Fits S.forest t := by
  cases c with
  | lookahead base buffer delivered exhausted =>
    cases exhausted with
    | true => exact .pure h.fits
    | false =>
      have hb : base.Sound S s := ⟨h.ordered.1, h.fits⟩
      refine (hE.read hb).bind fun p t _ _ ⟨hr, hp⟩ => ?_
      split
      · exact .pure hp.fits
      · exact .pure hp.fits
      · next n hn => exact hE.measure ⟨(Advance.grow delivered h.ordered hr hn).ordered, hp.fits⟩
  | listed => exact .pure h.fits
  | filter => exact .pure h.fits
  | merge => exact .pure h.fits
  | distinct => exact .pure h.fits
  | steps => exact .pure h.fits

/-- Deciding a predicate of a node of the documents is safe. -/
theorem accepts_safe (hE : E.Safe S) {p : Selection} (hp : p.predicate.Fits S.forest s)
    (hc : p.context.Fits S.forest s) {n : Node} (hn : S.forest.Holds n) (position last : Nat) :
    S.Ensures s (accepts E p n position last) fun _ _ => True := by
  have hfocus := hc.withFocus hn position last
  unfold accepts
  extract_lets focus
  split
  · exact .pure trivial
  · exact (hE.number hp hfocus).map fun _ _ _ => trivial
  · exact hE.boolean hp hfocus
  · refine (hE.value hp hfocus).bind fun v t _ hst hv => ?_
    split
    · exact .pure trivial
    · exact hE.boolean hv (hfocus.mono hst.toKeeps)

theorem baseSize_safe (hE : E.Safe S) {base : Cursor} (h : base.Sound S s) (p : Selection)
    (last : Option Nat) (position : Nat) :
    S.Steps s (baseSize E base p last position) fun q t => q.rest.Sound S t := by
  unfold baseSize
  split
  · exact .pure h
  · exact .pure h
  · exact .pure h
  · exact (hE.tell h).bind fun q t _ _ ⟨_, hq⟩ => .pure hq

theorem nextSelected_fits (hE : E.Safe S) {base : Cursor} (h : base.Sound S s) {p : Selection}
    (hp : p.predicate.Fits S.forest s) (hc : p.context.Fits S.forest s) (last : Option Nat)
    (position : Nat) (finished : Bool) :
    S.Steps s (nextSelected E base p last position finished) fun q t => q.rest.Fits S.forest t := by
  unfold nextSelected
  extract_lets beyond
  split
  · exact .pure ⟨h.fits, hp, hc⟩
  · refine (hE.read h).bind fun q t _ hst ⟨hr, hq⟩ => ?_
    replace hp := hp.mono hst.toKeeps
    replace hc := hc.mono hst.toKeeps
    split
    · exact .pure ⟨hq.fits, hp, hc⟩
    · exact .pure ⟨hq.fits, hp, hc⟩
    · next n hn =>
      have hheld := h.ordered.holds (hr.delivered n hn).1
      refine (baseSize_safe hE hq p last _).bind fun r u _ htu hr => ?_
      replace hp := hp.mono htu.toKeeps
      replace hc := hc.mono htu.toKeeps
      split
      · exact .pure ⟨hr.fits, hp, hc⟩
      · next l _ =>
        refine Steps.bind (accepts_safe hE hp hc hheld _ l) fun a v _ huv _ => ?_
        replace hr := hr.mono huv.toKeeps
        replace hp := hp.mono huv.toKeeps
        replace hc := hc.mono huv.toKeeps
        split
        · exact .pure ⟨hr.fits, hp, hc⟩
        · exact .pure ⟨hr.fits, hp, hc⟩
        · exact hE.advance ⟨hr.ordered, hr.fits, hp, hc⟩

section merge

variable {op : SetOperator} {left right : Cursor} {lh rh : Option Node}

theorem passLeft_fits (hE : E.Safe S) (h : Sound S s (.merge op left lh right rh)) :
    S.Steps s (passLeft E op left lh right rh) fun q t => q.rest.Fits S.forest t := by
  have hl : left.Sound S s := ⟨h.ordered.1.1, h.fits.1⟩
  have hr := h.fits.2
  refine (hE.read hl).bind fun p t _ hst ⟨_, hp⟩ => ?_
  split
  · exact .pure ⟨hp.fits, hr.mono hst.toKeeps⟩
  · exact .pure ⟨hp.fits, hr.mono hst.toKeeps⟩

theorem passRight_fits (hE : E.Safe S) (h : Sound S s (.merge op left lh right rh)) :
    S.Steps s (passRight E op left lh right rh) fun q t => q.rest.Fits S.forest t := by
  have hr : right.Sound S s := ⟨h.ordered.2.1, h.fits.2⟩
  have hl := h.fits.1
  refine (hE.read hr).bind fun p t _ hst ⟨_, hp⟩ => ?_
  split
  · exact .pure ⟨hl.mono hst.toKeeps, hp.fits⟩
  · exact .pure ⟨hl.mono hst.toKeeps, hp.fits⟩

/-- A computation that passes heads of a merge leaves a sound merge. -/
def PassesSafely (S : Setting) (s : Session) (m : StateM Session (Pull Unit)) : Prop :=
  S.Steps s m fun q t => q.rest.Sound S t

theorem passLeft_safe (hE : E.Safe S) (h : Sound S s (.merge op left lh right rh)) {a : Node}
    (ha : a ∈ lh) : PassesSafely S s (passLeft E op left lh right rh) :=
  ((passLeft_passes hE.toOrderly op ha h.ordered.1 h.ordered.2).steps (passLeft_fits hE h)).imp
    fun _ _ _ _ ⟨hq, hf⟩ => ⟨hq.1.advance.ordered, hf⟩

theorem passRight_safe (hE : E.Safe S) (h : Sound S s (.merge op left lh right rh)) {b : Node}
    (hb : b ∈ rh) : PassesSafely S s (passRight E op left lh right rh) :=
  ((passRight_passes hE.toOrderly op hb h.ordered.1 h.ordered.2).steps (passRight_fits hE h)).imp
    fun _ _ _ _ ⟨hq, hf⟩ => ⟨hq.1.advance.ordered, hf⟩

theorem passBoth_safe (hE : E.Safe S) (leftFirst : Bool)
    (h : Sound S s (.merge op left lh right rh)) {a b : Node} (ha : a ∈ lh) (hb : b ∈ rh) :
    PassesSafely S s (passBoth E leftFirst op left lh right rh) := by
  cases leftFirst with
  | true =>
    refine Steps.bind ((passLeft_passes hE.toOrderly op ha h.ordered.1 h.ordered.2).steps
      (passLeft_fits hE h)) fun q t _ _ ⟨⟨hq, hok⟩, hf⟩ => ?_
    have hsound : q.rest.Sound S t := ⟨hq.advance.ordered, hf⟩
    split
    · next ho he =>
      obtain ⟨l, k, hl, -⟩ := hok ho
      obtain ⟨rfl, rfl, rfl, rfl, rfl⟩ := Cursor.merge.inj (he.symm.trans hl)
      exact passRight_safe hE (he ▸ hsound) hb
    · exact .pure hsound
  | false =>
    refine Steps.bind ((passRight_passes hE.toOrderly op hb h.ordered.1 h.ordered.2).steps
      (passRight_fits hE h)) fun q t _ _ ⟨⟨hq, hok⟩, hf⟩ => ?_
    have hsound : q.rest.Sound S t := ⟨hq.advance.ordered, hf⟩
    split
    · next ho he =>
      obtain ⟨l, k, hl, -⟩ := hok ho
      obtain ⟨rfl, rfl, rfl, rfl, rfl⟩ := Cursor.merge.inj (he.symm.trans hl)
      exact passLeft_safe hE (he ▸ hsound) ha
    · exact .pure hsound

theorem PassesSafely.deliver {m : StateM Session (Pull Unit)} (h : PassesSafely S s m) (n : Node) :
    S.Steps s (do return deliver n (← m)) fun p t => p.rest.Fits S.forest t :=
  Steps.bind h fun _ _ _ _ hq => .pure hq.fits

theorem PassesSafely.goOn (hE : E.Safe S) {m : StateM Session (Pull Unit)}
    (h : PassesSafely S s m) :
    S.Steps s (m >>= goOn E) fun p t => p.rest.Fits S.forest t := by
  refine Steps.bind h fun q t _ _ hq => ?_
  unfold Cursor.goOn
  split
  · exact hE.advance hq
  · exact .pure hq.fits

theorem nextMerged_fits (hE : E.Safe S) (h : Sound S s (.merge op left lh right rh)) :
    S.Steps s (nextMerged E op left lh right rh) fun p t => p.rest.Fits S.forest t := by
  have hstop : ∀ o : Except Fault (Option Node), S.Steps s
      (pure (⟨o, .merge op left lh right rh⟩ : Pull (Option Node)))
      fun p t => p.rest.Fits S.forest t := fun _ => .pure h.fits
  unfold nextMerged
  split
  · exact hstop _
  · split
    · exact (passLeft_safe hE h rfl).deliver _
    · exact (passLeft_safe hE h rfl).deliver _
    · exact hstop _
  · split
    · exact (passRight_safe hE h rfl).deliver _
    · exact hstop _
    · exact hstop _
  · split
    · exact hstop _
    · exact (passLeft_safe hE h rfl).deliver _
    · exact (passLeft_safe hE h rfl).deliver _
    · exact (passLeft_safe hE h rfl).goOn hE
    · exact (passRight_safe hE h rfl).deliver _
    · exact (passRight_safe hE h rfl).goOn hE
    · exact (passRight_safe hE h rfl).goOn hE
    · exact (passBoth_safe hE false h rfl rfl).deliver _
    · exact (passBoth_safe hE false h rfl rfl).deliver _
    · exact (passBoth_safe hE true h rfl rfl).goOn hE

end merge

theorem keyOf_safe (hE : E.Safe S) {key : Option (Expr × Context)}
    (h : ∀ p ∈ key, p.1.Fits S.forest s ∧ p.2.Fits S.forest s) {n : Node} (hn : S.forest.Holds n) :
    S.Ensures s (keyOf E key n) fun _ _ => True := by
  cases key with
  | none => exact .pure trivial
  | some p => exact hE.string (h p rfl).1 ((h p rfl).2.withNode hn)

theorem nextDistinct_fits (hE : E.Safe S) {base : Cursor} {key : Option (Expr × Context)}
    {seen : List String} (h : Sound S s (.distinct base key seen)) :
    S.Steps s (nextDistinct E base key seen) fun p t => p.rest.Fits S.forest t := by
  have hb : base.Sound S s := ⟨h.ordered.1, h.fits.1⟩
  have hkey : ∀ {t : Session}, s.Keeps t →
      ∀ p ∈ key, p.1.Fits S.forest t ∧ p.2.Fits S.forest t := fun hk p hp =>
    ⟨(h.fits.2 p hp).1.mono hk, (h.fits.2 p hp).2.mono hk⟩
  refine (hE.read hb).bind fun p t _ hst ⟨hr, hp⟩ => ?_
  have hsorted : p.rest.flags.sorted = true := hr.advance.flags ▸ h.ordered.2
  split
  · exact .pure ⟨hp.fits, hkey hst.toKeeps⟩
  · exact .pure ⟨hp.fits, hkey hst.toKeeps⟩
  · next n hn =>
    have hheld := hb.ordered.holds (hr.delivered n hn).1
    refine Steps.bind (keyOf_safe hE (hkey hst.toKeeps) hheld) fun a u _ htu _ => ?_
    replace hp := hp.mono htu.toKeeps
    have hku := hkey (hst.trans htu).toKeeps
    split
    · exact .pure ⟨hp.fits, hku⟩
    · split
      · exact hE.advance ⟨⟨hp.ordered, hsorted⟩, hp.fits, hku⟩
      · exact .pure ⟨hp.fits, hku⟩

theorem nextStep_fits (hE : E.Safe S) {start : Cursor} {plan : StepPlan} {context : Context}
    {current : Cursor} {sorted : Bool} (h : Sound S s (.steps start plan context current sorted)) :
    S.Steps s (nextStep E start plan context current sorted) fun p t => p.rest.Fits S.forest t := by
  have hs : start.Sound S s := ⟨h.ordered.1, h.fits.1⟩
  have hc : current.Sound S s := ⟨h.ordered.2.1, h.fits.2.2.2⟩
  obtain ⟨hp, hctx⟩ : (∀ p ∈ plan.predicates, p.Fits S.forest s) ∧ context.Fits S.forest s :=
    ⟨h.fits.2.1, h.fits.2.2.1⟩
  refine (hE.read hc).bind fun p t _ hst ⟨hr, hcur⟩ => ?_
  replace hs := hs.mono hst.toKeeps
  replace hp := fun q hq => (hp q hq).mono hst.toKeeps
  replace hctx := hctx.mono hst.toKeeps
  split
  · exact .pure ⟨hs.fits, hp, hctx, hcur.fits⟩
  · exact .pure ⟨hs.fits, hp, hctx, hcur.fits⟩
  · refine (hE.read hs).bind fun q u _ htu ⟨hq, hstart⟩ => ?_
    replace hp := fun q hq => (hp q hq).mono htu.toKeeps
    replace hctx := hctx.mono htu.toKeeps
    split
    · exact .pure ⟨hstart.fits, hp, hctx, trivial⟩
    · exact .pure ⟨hstart.fits, hp, hctx, trivial⟩
    · next o ho =>
      refine hE.advance ⟨(Advance.origin h.ordered hq ho).ordered, hstart.fits, hp, hctx, ?_⟩
      exact ofStep_fits hp hctx o

theorem next_fits (hE : E.Safe S) {c : Cursor} (h : c.Sound S s) :
    S.Steps s (Cursor.next E c) fun p t => p.rest.Fits S.forest t := by
  cases c with
  | listed f size rest => cases rest <;> exact .pure trivial
  | lookahead => exact nextAhead_fits hE ⟨h.ordered.1, h.fits⟩
  | filter base p last position finished =>
    have hb : base.Sound S s := ⟨h.ordered, h.fits.1⟩
    exact nextSelected_fits hE hb h.fits.2.1 h.fits.2.2 last position finished
  | merge => exact nextMerged_fits hE h
  | distinct => exact nextDistinct_fits hE h
  | steps => exact nextStep_fits hE h

theorem drain_safe (hE : E.Safe S) {c : Cursor} (h : c.Sound S s) :
    S.Ensures s (Cursor.drain E c) fun ns _ =>
      (∀ n ∈ ns, c.reach n) ∧ ns.Pairwise c.flags.Relates := by
  refine (hE.pull h).bind fun ⟨o, rest⟩ t _ _ ⟨ha, hr, hn⟩ => ?_
  cases o with
  | none => exact .pure (by simp)
  | some n =>
    obtain ⟨hreach, hrel⟩ := hn n rfl
    refine (hE.drain hr).map fun ns u ⟨hmem, hp⟩ => ⟨?_, ?_⟩
    · intro m hm
      rcases List.mem_cons.mp hm with rfl | hm
      · exact hreach
      · exact ha.subset m (hmem m hm)
    · exact List.pairwise_cons.mpr ⟨fun m hm => hrel m (hmem m hm), ha.flags ▸ hp⟩

theorem find_safe (hE : E.Safe S) {test : Node → Bool} {c : Cursor} (h : c.Sound S s) :
    S.Ensures s (Cursor.find E test c) fun _ _ => True := by
  refine (hE.pull h).bind fun ⟨o, rest⟩ t _ _ ⟨_, hr, _⟩ => ?_
  cases o with
  | none => exact .pure trivial
  | some n => exact .ite (fun _ => .pure trivial) fun _ => hE.find hr

theorem startMerge_safe (hE : E.Safe S) (op : SetOperator) {left right : Cursor}
    (hl : left.Sound S s) (hr : right.Sound S s) :
    S.Ensures s (startMerge E op left right) fun c t => c.Sound S t ∧ c.flags.sorted = true := by
  refine (hE.sortedCursor hl).bind fun l t _ hst ⟨hl, hls⟩ => ?_
  refine (hE.pull hl).bind fun p u _ htu ⟨hpa, hp, hph⟩ => ?_
  replace hr := hr.mono (hst.trans htu).toKeeps
  refine (hE.sortedCursor hr).bind fun r v _ huv ⟨hr, hrs⟩ => ?_
  replace hp := hp.mono huv.toKeeps
  refine (hE.pull hr).bind fun q w _ hvw ⟨hqa, hq, hqh⟩ => ?_
  replace hp := hp.mono hvw.toKeeps
  refine .pure ⟨⟨⟨⟨hp.ordered, hpa.flags ▸ hls, ?_⟩, hq.ordered, hqa.flags ▸ hrs, ?_⟩,
    hp.fits, hq.fits⟩, rfl⟩
  · exact fun a ha => ⟨hl.ordered.holds (hph a ha).1, fun n hn => ((hph a ha).2 n hn).sorted hls⟩
  · exact fun b hb => ⟨hr.ordered.holds (hqh b hb).1, fun n hn => ((hqh b hb).2 n hn).sorted hrs⟩

theorem startDistinct_safe (hE : E.Safe S) {base : Cursor} (hb : base.Sound S s)
    {key : Option Expr} (hk : ∀ k ∈ key, k.Fits S.forest s) {c : Context}
    (hc : c.Fits S.forest s) :
    S.Ensures s (startDistinct E base key c) fun r t => r.Sound S t ∧ r.flags.sorted = true := by
  refine (hE.sortedCursor hb).bind fun b t _ hst ⟨hb, hs⟩ => ?_
  refine .pure ⟨⟨⟨hb.ordered, hs⟩, hb.fits, ?_⟩, rfl⟩
  intro p hp
  obtain ⟨k, hkey, rfl⟩ := Option.mem_map.mp hp
  exact ⟨(hk k hkey).mono hst.toKeeps, hc.ambient.mono hst.toKeeps⟩

end PathLanguage.Cursor
