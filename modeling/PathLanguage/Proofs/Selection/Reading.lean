/- Reading is true to what cursors yield: whatever is delivered is the next node of the list that
the cursor yields, and the end comes when nothing is left of it. -/
import PathLanguage.Proofs.Cursor.Size
import PathLanguage.Proofs.Safety.Reading

namespace PathLanguage

open Setting (Ensures Steps)

/-- An oracle to which neither the size nor the position matters where a predicate does not ask for
it, nor anything but the position where that alone decides. -/
structure Oracle.Lawful (J : Oracle) : Prop extends J.Total where
  size : ∀ {p c n position size b}, p.dependencies.last = false →
    J.truth p c n position size b → ∀ size', J.truth p c n position size' b
  unplaced : ∀ {p c n position size b}, p.isPositional = false →
    J.truth p c n position size b → ∀ position' size', J.truth p c n position' size' b
  positions : ∀ {p least most}, Strategy.ofPredicate p = .positions least most →
    ∀ c n position size, J.truth p c n position size (least ≤ position && position ≤ most)

/-- From a given session on, an engine answers as an oracle says that knows the course of events up
to some later session. -/
structure Setting.Answers (S : Setting) (J : Session → Oracle) (s₀ : Session) (E : Engine) :
    Prop where
  truth : ∀ {s p n position last}, s₀.LeadsTo s → p.predicate.Fits S.forest s →
    p.context.Fits S.forest s → S.forest.Holds n → p.Proper →
    S.Ensures s (Cursor.accepts E p n position last) fun b t => ∀ u, t.LeadsTo u →
      (J u).truth p.predicate p.context n position last b
  text : ∀ {s e c n}, s₀.LeadsTo s → e.Fits S.forest s → c.Fits S.forest s → S.forest.Holds n →
    S.Ensures s (E.string e (c.withNode n)) fun k t => ∀ u, t.LeadsTo u → (J u).text e c n k

namespace Cursor

/-- What is said of reading a node, when it succeeds. -/
def ReadsTruly (J : Session → Oracle) (c : Cursor) (p : Pull (Option Node)) (t : Session) : Prop :=
  ∀ o, p.outcome = .ok o → c.Counts o p.rest ∧ ∀ u, t.LeadsTo u → c.Foresees (J u) o p.rest

/-- What is said of asking for the size, when it succeeds. -/
structure TellsTruly (J : Session → Oracle) (c r : Cursor) (k : Option Nat) (t : Session) :
    Prop where
  counts : c.Counts none r
  settles : c.counts = true → ∀ taken, c.Tells taken → ∃ total ∈ k, r.Settled total taken
  yields : ∀ u, t.LeadsTo u → ∀ ns, r.Yields (J u) ns → c.Yields (J u) ns

end Cursor

/-- From a given session on, an engine reads cursors truly. -/
structure Setting.Reads (S : Setting) (J : Session → Oracle) (s₀ : Session) (E : Engine) :
    Prop where
  next : ∀ {s} {c : Cursor}, s₀.LeadsTo s → c.Sound S s → c.Counted →
    S.Steps s (E.next c) (c.ReadsTruly J)
  size : ∀ {s} {c : Cursor}, s₀.LeadsTo s → c.Sound S s → c.Counted →
    S.Steps s (E.size c) fun q t => ∀ k, q.outcome = .ok k → c.TellsTruly J q.rest k t
  drain : ∀ {s} {c : Cursor}, s₀.LeadsTo s → c.Sound S s → c.Counted →
    S.Ensures s (E.drain c) fun ns t => ∀ u, t.LeadsTo u → c.Yields (J u) ns

namespace Setting.Reads

variable {S : Setting} {J : Session → Oracle} {s₀ s : Session} {E : Engine} {c : Cursor}

/-- Reading with all that is known of it. -/
theorem read (hR : S.Reads J s₀ E) (hE : E.Safe S) (h0 : s₀.LeadsTo s) (hs : c.Sound S s)
    (hc : c.Counted) :
    S.Steps s (E.next c) fun p t => (c.Reads S.forest p ∧ p.rest.Sound S t) ∧ c.ReadsTruly J p t :=
  (hE.read hs).and (hR.next h0 hs hc)

theorem tell (hR : S.Reads J s₀ E) (hE : E.Safe S) (h0 : s₀.LeadsTo s) (hs : c.Sound S s)
    (hc : c.Counted) :
    S.Steps s (E.size c) fun q t => (c.Advance S.forest q.rest ∧ q.rest.Sound S t) ∧
      ∀ k, q.outcome = .ok k → c.TellsTruly J q.rest k t :=
  (hE.tell hs).and (hR.size h0 hs hc)

end Setting.Reads

namespace Cursor

variable {S : Setting} {J : Session → Oracle} {s₀ s t : Session} {E : Engine}

/-- A reading that fails says nothing. -/
theorem ReadsTruly.error {c r : Cursor} {f : Fault} : c.ReadsTruly J ⟨.error f, r⟩ t :=
  fun _ ho => by cases ho

theorem ReadsTruly.ok {c r : Cursor} {o : Option Node} (hc : c.Counts o r)
    (hy : ∀ u, t.LeadsTo u → c.Foresees (J u) o r) : c.ReadsTruly J ⟨.ok o, r⟩ t := by
  rintro _ ⟨⟩
  exact ⟨hc, hy⟩

section listed

theorem next_listed_true {f : Flags} {size : Option Nat} {rest : List Node} :
    S.Steps s (Cursor.next E (.listed f size rest)) (ReadsTruly J (.listed f size rest)) := by
  cases rest with
  | nil => exact .pure (.ok (.refl trivial) fun _ _ => ⟨nofun, fun _ => rfl⟩)
  | cons n rest =>
    refine .pure (.ok ⟨trivial, id, ?_, ?_⟩ fun _ _ => ⟨?_, nofun⟩)
    · intro _ taken h k hk
      have := h k hk
      simp only [List.length_cons, Option.toList_some, List.length_nil] at this ⊢
      omega
    · intro total taken h
      have h : total = taken + (n :: rest).length := h
      simp only [Settled, List.length_cons, Option.toList_some, List.length_nil] at h ⊢
      omega
    · rintro _ ns ⟨⟩ hy
      exact congrArg (n :: ·) (show ns = rest from hy)

end listed

section lookahead

variable {base : Cursor} {buffer : List Node} {delivered : Nat} {exhausted : Bool}

theorem nextAhead_true (hR : S.Reads J s₀ E) (h0 : s₀.LeadsTo s)
    (h : Sound S s (.lookahead base buffer delivered exhausted)) (hc : base.Counted) :
    S.Steps s (nextAhead E base buffer delivered exhausted)
      (ReadsTruly J (.lookahead base buffer delivered exhausted)) := by
  cases buffer with
  | cons n rest =>
    refine .pure (.ok ⟨hc, fun _ => rfl, ?_, ?_⟩ fun u _ => ⟨?_, nofun⟩)
    · rintro _ taken rfl
      rfl
    · rintro total taken ⟨he, ht⟩
      refine ⟨he, ?_⟩
      simp only [List.length_cons, Option.toList_some, List.length_nil] at ht ⊢
      omega
    · rintro _ ns ⟨⟩ hy
      cases exhausted with
      | true => exact congrArg (n :: ·) (show ns = rest from hy)
      | false =>
        obtain ⟨ms, hms, rfl⟩ := hy
        exact ⟨ms, hms, rfl⟩
  | nil =>
    cases exhausted with
    | true => exact .pure (.ok (.refl hc) fun _ _ => ⟨nofun, fun _ => rfl⟩)
    | false =>
      refine (hR.next h0 ⟨h.ordered.1, h.fits⟩ hc).bind fun p t _ _ hp => ?_
      split
      · next n hn =>
        obtain ⟨hcount, hy⟩ := hp _ hn
        refine .pure (.ok ⟨hcount.counted, fun _ => rfl, ?_, by simp [Settled]⟩ fun u hu =>
          ⟨?_, nofun⟩)
        · rintro _ taken rfl
          rfl
        · rintro _ ns ⟨⟩ ⟨ms, hms, hns⟩
          exact ⟨n :: ms, (hy u hu).more n ms rfl hms, congrArg (n :: ·) hns⟩
      · next hn =>
        obtain ⟨hcount, hy⟩ := hp _ hn
        refine .pure (.ok ⟨hcount.counted, fun _ => rfl, fun _ _ h => h, by simp [Settled]⟩
          fun u hu => ⟨nofun, fun _ => ⟨[], (hy u hu).done rfl, rfl⟩⟩)
      · exact .pure .error

theorem size_true (hR : S.Reads J s₀ E) (hE : E.Safe S) (h0 : s₀.LeadsTo s) {c : Cursor}
    (h : c.Sound S s) (hc : c.Counted) :
    S.Steps s (Cursor.size E c) fun q t => ∀ k, q.outcome = .ok k → c.TellsTruly J q.rest k t := by
  have hsame : ∀ {c : Cursor} {k : Option Nat}, c.Counted →
      (c.counts = true → ∀ taken, c.Tells taken → ∃ total ∈ k, c.Settled total taken) →
      c.TellsTruly J c k s := fun hc hk =>
    ⟨.refl hc, hk, fun _ _ _ hy => hy⟩
  cases c with
  | listed f size rest =>
    refine .pure fun k hk => ?_
    cases hk
    refine hsame trivial fun hsize taken ht => ?_
    obtain ⟨n, hn⟩ := Option.isSome_iff_exists.mp hsize
    exact ⟨n, hn, ht n hn⟩
  | lookahead base buffer delivered exhausted =>
    have hsettle : ∀ {r : Cursor} {taken : Nat}, delivered = taken →
        ∃ total ∈ some (delivered + buffer.length),
          Settled total taken (.lookahead r buffer delivered true) := by
      rintro r taken rfl
      exact ⟨_, rfl, rfl, rfl⟩
    cases exhausted with
    | true =>
      refine .pure fun k hk => ?_
      cases hk
      exact hsame hc fun _ taken ht => hsettle ht
    | false =>
      refine (hR.read hE h0 ⟨h.ordered.1, h.fits⟩ hc).bind fun p t _ hst ⟨⟨hread, hp⟩, htrue⟩ => ?_
      split
      · exact .pure nofun
      · next hn =>
        obtain ⟨hcount, hy⟩ := htrue _ hn
        refine .pure fun k hk => ?_
        cases hk
        refine ⟨⟨hcount.counted, id, fun _ _ h => h, by simp [Settled]⟩,
          fun _ taken ht => hsettle ht,
          fun u hu ns hns => ⟨[], (hy u hu).done rfl, ?_⟩⟩
        simpa using show ns = buffer from hns
      · next n hn =>
        obtain ⟨hcount, hy⟩ := htrue _ hn
        have hgrown := (Advance.grow delivered h.ordered hread hn).ordered
        refine (hR.size (h0.trans hst) ⟨hgrown, hp.fits⟩ hcount.counted).imp
          fun q v _ htv hq k hk => ?_
        obtain ⟨hqc, hqs, hqy⟩ := hq k hk
        refine ⟨⟨hqc.counted, fun _ => hqc.counts rfl, fun _ _ ht => hqc.tells rfl _ ht,
          by simp [Settled]⟩, fun _ taken ht => hqs rfl taken ht, fun u hu ns hns => ?_⟩
        obtain ⟨ms, hms, rfl⟩ := hqy u hu ns hns
        exact ⟨n :: ms, (hy u (htv.trans hu)).more n ms rfl hms, by simp⟩
  | filter => exact .pure fun k hk => hsame hc nofun
  | merge => exact .pure fun k hk => hsame hc nofun
  | distinct => exact .pure fun k hk => hsame hc nofun
  | steps => exact .pure fun k hk => hsame hc nofun

end lookahead

section filter

variable {base : Cursor} {p : Selection} {last : Option Nat} {position : Nat}

/-- What a filter knows of the base it has taken some nodes of. -/
structure Knows (base : Cursor) (p : Selection) (last : Option Nat) (position : Nat) : Prop where
  counted : base.Counted
  proper : p.Proper
  tells : p.usesLast = true → base.counts = true ∧ base.Tells position
  settled : ∀ l ∈ last, base.Settled l position

theorem Knows.read (h : Knows base p last position) {r : Cursor} {o : Option Node}
    (hc : base.Counts o r) : Knows r p last (position + o.toList.length) where
  counted := hc.counted
  proper := h.proper
  tells hl := ⟨hc.counts (h.tells hl).1, hc.tells (h.tells hl).1 _ (h.tells hl).2⟩
  settled l hl := hc.settled l _ (h.settled l hl)

theorem Knows.filter_counted (h : Knows base p last position) (finished : Bool) :
    (Cursor.filter base p last position finished).Counted :=
  ⟨h.counted, h.proper, h.tells, h.settled⟩

/-- What a filter knows of its base once it has a size, told or made up, for its predicate. -/
structure Sizes (J : Session → Oracle) (base r : Cursor) (p : Selection) (last : Option Nat)
    (position l : Nat) (t : Session) : Prop where
  knows : Knows r p (if p.usesLast then some l else last) position
  yields : ∀ u, t.LeadsTo u → ∀ ns, r.Yields (J u) ns → base.Yields (J u) ns

theorem baseSize_true (hR : S.Reads J s₀ E) (hE : E.Safe S) (h0 : s₀.LeadsTo s)
    (hb : base.Sound S s) (hk : Knows base p last position) :
    S.Steps s (baseSize E base p last position) fun q t => q.rest.Sound S t ∧
      ∀ l, q.outcome = .ok l → Sizes J base q.rest p last position l t := by
  have hunasked : p.usesLast = false → ∀ l, (.ok position : Except Fault Nat) = .ok l →
      Sizes J base base p last position l s := by
    intro hl _ _
    refine ⟨?_, fun _ _ _ hy => hy⟩
    rw [hl]
    exact hk
  unfold baseSize
  split
  · next least most hst =>
    have hl := Strategy.last_of_positions (hk.proper.strategy ▸ hst)
    exact .pure ⟨hb, hunasked (hk.proper.usesLast.trans hl)⟩
  · next hl _ => exact .pure ⟨hb, hunasked hl⟩
  · next l hl _ =>
    refine .pure ⟨hb, ?_⟩
    rintro _ ⟨⟩
    refine ⟨?_, fun _ _ _ hy => hy⟩
    rw [hl]
    exact hk
  · next hl _ =>
    refine (hR.tell hE h0 hb hk.counted).bind fun q t _ _ ⟨⟨_, hq⟩, htrue⟩ => .pure ⟨hq, ?_⟩
    intro l hout
    obtain ⟨k, hko, rfl⟩ : ∃ k, q.outcome = .ok k ∧ l = k.getD position := by
      cases ho : q.outcome with
      | error f => simp [ho, Except.map] at hout
      | ok k => exact ⟨k, rfl, by simpa [ho, Except.map] using hout.symm⟩
    obtain ⟨hcounts, hsettles, hy⟩ := htrue k hko
    obtain ⟨htc, htt⟩ := hk.tells hl
    obtain ⟨total, rfl, hset⟩ := hsettles htc position htt
    refine ⟨?_, hy⟩
    rw [hl]
    refine ⟨hcounts.counted, hk.proper, fun _ => ⟨hcounts.counts htc, hcounts.tells htc _ htt⟩, ?_⟩
    rintro l ⟨⟩
    exact hset

/-- Where a position alone decides, nothing is picked beyond the greatest one. -/
theorem picks_nil_of_beyond {J : Oracle} (hJ : J.Lawful) {least most : Nat} {e : Expr}
    (he : Strategy.ofPredicate e = .positions least most) (c : Context) (size : Nat)
    (ns : List Node) : ∀ position, most ≤ position → J.Picks e c size position ns [] := by
  induction ns with
  | nil => exact fun position _ => .nil position
  | cons n ns ih =>
    intro position hm
    refine .pass ?_ (ih (position + 1) (by omega))
    have := hJ.positions he c n (position + 1) size
    rwa [show (decide (least ≤ position + 1) && decide (position + 1 ≤ most)) = false by
      simp only [Bool.and_eq_false_iff, decide_eq_false_iff_not]; omega] at this

theorem nextSelected_true (hJ : ∀ u, (J u).Lawful) (hA : S.Answers J s₀ E) (hR : S.Reads J s₀ E)
    (hE : E.Safe S) (h0 : s₀.LeadsTo s) {finished : Bool}
    (h : Sound S s (.filter base p last position finished))
    (hc : Counted (.filter base p last position finished)) :
    S.Steps s (nextSelected E base p last position finished)
      (ReadsTruly J (.filter base p last position finished)) := by
  have hk : Knows base p last position := ⟨hc.1, hc.2.1, hc.2.2.1, hc.2.2.2⟩
  have hcounts : ∀ {o : Option Node} {r : Cursor} {k : Nat} {l : Option Nat} {f : Bool},
      Knows r p l k → Counts (.filter base p last position finished) o (.filter r p l k f) :=
    fun hr => .of_counted (hr.filter_counted _) rfl fun _ _ h => h
  unfold nextSelected
  extract_lets beyond
  split
  · next hstop =>
    refine .pure (.ok (hcounts hk) fun u _ => ⟨nofun, fun _ => ?_⟩)
    cases finished with
    | true => rfl
    | false =>
      obtain ⟨ms, hms⟩ := exists_yields (hJ u).toTotal base
      refine ⟨ms, hms, ?_⟩
      rw [Bool.false_or] at hstop
      revert hstop
      simp only [beyond]
      split
      · next least most hst =>
        intro hm
        exact picks_nil_of_beyond (hJ u) (hk.proper.strategy ▸ hst) _ _ _ _ (by simpa using hm)
      · nofun
  · next hgo =>
    obtain rfl : finished = false := by
      cases finished with
      | true => simp at hgo
      | false => rfl
    refine (hR.read hE h0 (c := base) ⟨h.ordered, h.fits.1⟩ hk.counted).bind
      fun q t _ hst ⟨⟨hread, hq⟩, htrue⟩ => ?_
    replace hp := h.fits.2.1.mono hst.toKeeps
    replace hcx := h.fits.2.2.mono hst.toKeeps
    split
    · exact .pure .error
    · next hn =>
      obtain ⟨hqc, hqy⟩ := htrue _ hn
      exact .pure (.ok (hcounts (hk.read hqc)) fun u hu =>
        ⟨nofun, fun _ => ⟨[], (hqy u hu).done rfl, .nil _⟩⟩)
    · next n hn =>
      obtain ⟨hqc, hqy⟩ := htrue _ hn
      have hheld := h.ordered.holds (hread.delivered n hn).1
      refine (baseSize_true hR hE (h0.trans hst) hq (hk.read hqc)).bind
        fun r t' _ htt' ⟨hr, hsize⟩ => ?_
      replace hp := hp.mono htt'.toKeeps
      replace hcx := hcx.mono htt'.toKeeps
      split
      · exact .pure .error
      · next l hl =>
        obtain ⟨hrk, hry⟩ := hsize l hl
        refine Steps.bind (hA.truth (h0.trans (hst.trans htt')) hp hcx hheld hk.proper)
          fun b v _ htv hb => ?_
        replace hp := hp.mono htv.toKeeps
        replace hcx := hcx.mono htv.toKeeps
        -- The size that the predicate was told is that of the list, or does not matter to it.
        have htruth : ∀ {u ms b'}, v.LeadsTo u → b = .ok b' → r.rest.Yields (J u) ms →
            base.Yields (J u) (n :: ms) ∧ (J u).truth p.predicate p.context n (position + 1)
              (position + (n :: ms).length) b' := by
          intro u ms b' hu hb' hms
          have htu := htt'.trans (htv.trans hu)
          refine ⟨(hqy u htu).more n ms rfl (hry u (htv.trans hu) ms hms), ?_⟩
          have ht := hb b' hb' u hu
          cases hus : p.usesLast with
          | true =>
            simp only [hus, if_true] at hrk
            have heq := (hrk.settled l rfl).eq hms
            simp only [Option.toList_some, List.length_cons, List.length_nil] at heq ⊢
            rwa [heq, Nat.add_assoc, Nat.add_comm (0 + 1)] at ht
          | false => exact (hJ u).size (hk.proper.usesLast ▸ hus) ht _
        have hlen : ∀ ms : List Node, position + (n :: ms).length = position + 1 + ms.length :=
          fun ms => by simp only [List.length_cons]; omega
        split
        · exact .pure .error
        · refine .pure (.ok (hcounts hrk) fun u hu => ⟨?_, nofun⟩)
          rintro _ ns ⟨⟩ ⟨ms, hms, hpick⟩
          obtain ⟨hbase, ht⟩ := htruth hu rfl hms
          exact ⟨n :: ms, hbase, .pick ht (hlen ms ▸ hpick)⟩
        · rw [hk.proper.goesOn]
          refine (hR.next (c := .filter r.rest p _ _ false) (h0.trans (hst.trans (htt'.trans htv)))
            ⟨hr.ordered, (hr.mono htv.toKeeps).fits, hp, hcx⟩ (hrk.filter_counted _)).imp
            fun w x _ hvx hw o ho => ?_
          obtain ⟨hwc, hwy⟩ := hw o ho
          refine ⟨.of_counted hwc.counted rfl fun _ _ h => h, fun u hu => ?_⟩
          refine (hwy u hu).of_yields ?_
          rintro ns ⟨ms, hms, hpick⟩
          obtain ⟨hbase, ht⟩ := htruth (hvx.trans hu) rfl hms
          exact ⟨n :: ms, hbase, .pass ht (hlen ms ▸ hpick)⟩

end filter

section merge

variable {op : SetOperator} {left right : Cursor} {lh rh : Option Node}

/-- One side of a merge after its head was passed. -/
structure SideRead (J : Session → Oracle) (c : Cursor) (h : Option Node) (r : Cursor)
    (t : Session) : Prop where
  counted : r.Counted
  yields : ∀ u, t.LeadsTo u → ∀ ms, Heads h (r.Yields (J u)) ms → c.Yields (J u) ms

theorem SideRead.of_foresees {c r : Cursor} {o : Option Node} (hr : c.Counts o r)
    (h : ∀ u, t.LeadsTo u → c.Foresees (J u) o r) : SideRead J c o r t := by
  refine ⟨hr.counted, fun u hu ms hm => ?_⟩
  cases o with
  | none =>
    obtain rfl : ms = [] := hm
    exact (h u hu).done rfl
  | some n =>
    obtain ⟨ks, hks, rfl⟩ := hm
    exact (h u hu).more n ks rfl hks

theorem passLeft_true (hR : S.Reads J s₀ E) (hE : E.Safe S) (h0 : s₀.LeadsTo s)
    (h : Sound S s (.merge op left lh right rh)) (hc : left.Counted) {a : Node} (ha : a ∈ lh) :
    S.Steps s (passLeft E op left lh right rh) fun q t => q.rest.Sound S t ∧
      (q.outcome = .ok () → ∃ l k, q.rest = .merge op l k right rh ∧ SideRead J left k l t) := by
  refine Steps.and (passLeft_safe hE h ha)
    ((hR.next h0 ⟨h.ordered.1.1, h.fits.1⟩ hc).bind fun p t _ _ hp => ?_)
  split
  · next o ho => exact .pure fun _ => ⟨_, _, rfl, .of_foresees (hp o ho).1 (hp o ho).2⟩
  · exact .pure nofun

theorem passRight_true (hR : S.Reads J s₀ E) (hE : E.Safe S) (h0 : s₀.LeadsTo s)
    (h : Sound S s (.merge op left lh right rh)) (hc : right.Counted) {b : Node} (hb : b ∈ rh) :
    S.Steps s (passRight E op left lh right rh) fun q t => q.rest.Sound S t ∧
      (q.outcome = .ok () → ∃ r k, q.rest = .merge op left lh r k ∧ SideRead J right k r t) := by
  refine Steps.and (passRight_safe hE h hb)
    ((hR.next h0 ⟨h.ordered.2.1, h.fits.2⟩ hc).bind fun p t _ _ hp => ?_)
  split
  · next o ho => exact .pure fun _ => ⟨_, _, rfl, .of_foresees (hp o ho).1 (hp o ho).2⟩
  · exact .pure nofun

/-- The lists that the heads of a merge begin, after it has passed some nodes, are of given
kinds. -/
def Passed (J : Session → Oracle) (op : SetOperator) (L R : Session → List Node → Prop)
    (q : Pull Unit) (t : Session) : Prop :=
  q.outcome = .ok () → q.rest.Counted ∧ ∀ u, t.LeadsTo u → ∀ ns, q.rest.Yields (J u) ns →
    ∃ ls rs, L u ls ∧ R u rs ∧ ns = op.combine ls rs

theorem passBoth_true (hR : S.Reads J s₀ E) (hE : E.Safe S) (h0 : s₀.LeadsTo s)
    (h : Sound S s (.merge op left lh right rh)) (hc : Counted (.merge op left lh right rh))
    {a b : Node} (ha : a ∈ lh) (hb : b ∈ rh) (leftFirst : Bool) :
    S.Steps s (passBoth E leftFirst op left lh right rh) fun q t => q.rest.Sound S t ∧
      Passed J op (fun u => left.Yields (J u)) (fun u => right.Yields (J u)) q t := by
  refine Steps.and (passBoth_safe hE leftFirst h ha hb) ?_
  cases leftFirst with
  | true =>
    refine (passLeft_true hR hE h0 h hc.1 ha).bind fun q t _ hst ⟨hq, hpass⟩ => ?_
    split
    · next ho he =>
      obtain ⟨l, k, hm, hl⟩ := hpass ho
      obtain ⟨rfl, rfl, rfl, rfl, rfl⟩ := Cursor.merge.inj (he.symm.trans hm)
      refine (passRight_true hR hE (h0.trans hst) (he ▸ hq) hc.2 hb).imp
        fun q' v _ htv ⟨_, hpass'⟩ ho' => ?_
      obtain ⟨r, m, hm', hr⟩ := hpass' ho'
      rw [hm']
      refine ⟨⟨hl.counted, hr.counted⟩, ?_⟩
      rintro u hu ns ⟨ls, rs, hls, hrs, rfl⟩
      exact ⟨ls, rs, hl.yields u (htv.trans hu) ls hls, hr.yields u hu rs hrs, rfl⟩
    · next hno =>
      refine .pure fun ho => ?_
      obtain ⟨l, k, hm, -⟩ := hpass ho
      exact (hno _ _ _ _ _ ho hm).elim
  | false =>
    refine (passRight_true hR hE h0 h hc.2 hb).bind fun q t _ hst ⟨hq, hpass⟩ => ?_
    split
    · next ho he =>
      obtain ⟨r, k, hm, hr⟩ := hpass ho
      obtain ⟨rfl, rfl, rfl, rfl, rfl⟩ := Cursor.merge.inj (he.symm.trans hm)
      refine (passLeft_true hR hE (h0.trans hst) (he ▸ hq) hc.1 ha).imp
        fun q' v _ htv ⟨_, hpass'⟩ ho' => ?_
      obtain ⟨l, m, hm', hl⟩ := hpass' ho'
      rw [hm']
      refine ⟨⟨hl.counted, hr.counted⟩, ?_⟩
      rintro u hu ns ⟨ls, rs, hls, hrs, rfl⟩
      exact ⟨ls, rs, hl.yields u hu ls hls, hr.yields u (htv.trans hu) rs hrs, rfl⟩
    · next hno =>
      refine .pure fun ho => ?_
      obtain ⟨l, k, hm, -⟩ := hpass ho
      exact (hno _ _ _ _ _ ho hm).elim

/-- A merge that passes heads in a way that keeps to the lists of its sides. -/
def PassesTruly (S : Setting) (J : Session → Oracle) (s : Session) (op : SetOperator)
    (L R : Session → List Node → Prop) (m : StateM Session (Pull Unit)) : Prop :=
  S.Steps s m fun q t => q.rest.Sound S t ∧ Passed J op L R q t

theorem passLeft_passed (hR : S.Reads J s₀ E) (hE : E.Safe S) (h0 : s₀.LeadsTo s)
    (h : Sound S s (.merge op left lh right rh)) (hc : Counted (.merge op left lh right rh))
    {a : Node} (ha : a ∈ lh) :
    PassesTruly S J s op (fun u => left.Yields (J u)) (fun u => Heads rh (right.Yields (J u)))
      (passLeft E op left lh right rh) := by
  refine (passLeft_true hR hE h0 h hc.1 ha).imp fun q t _ _ ⟨hq, hpass⟩ => ⟨hq, fun ho => ?_⟩
  obtain ⟨l, k, hm, hl⟩ := hpass ho
  rw [hm]
  refine ⟨⟨hl.counted, hc.2⟩, ?_⟩
  rintro u hu ns ⟨ls, rs, hls, hrs, rfl⟩
  exact ⟨ls, rs, hl.yields u hu ls hls, hrs, rfl⟩

theorem passRight_passed (hR : S.Reads J s₀ E) (hE : E.Safe S) (h0 : s₀.LeadsTo s)
    (h : Sound S s (.merge op left lh right rh)) (hc : Counted (.merge op left lh right rh))
    {b : Node} (hb : b ∈ rh) :
    PassesTruly S J s op (fun u => Heads lh (left.Yields (J u))) (fun u => right.Yields (J u))
      (passRight E op left lh right rh) := by
  refine (passRight_true hR hE h0 h hc.2 hb).imp fun q t _ _ ⟨hq, hpass⟩ => ⟨hq, fun ho => ?_⟩
  obtain ⟨r, k, hm, hr⟩ := hpass ho
  rw [hm]
  refine ⟨⟨hc.1, hr.counted⟩, ?_⟩
  rintro u hu ns ⟨ls, rs, hls, hrs, rfl⟩
  exact ⟨ls, rs, hls, hr.yields u hu rs hrs, rfl⟩

variable {L R : Session → List Node → Prop} {m : StateM Session (Pull Unit)}

theorem PassesTruly.deliver (h : PassesTruly S J s op L R m) {n : Node}
    (hc : ∀ u ls rs, L u ls → R u rs →
      Yields (J u) (.merge op left lh right rh) (n :: op.combine ls rs)) :
    S.Steps s (do return Cursor.deliver n (← m)) (ReadsTruly J (.merge op left lh right rh)) := by
  refine Steps.bind h fun q t _ _ ⟨_, hpass⟩ => .pure fun o ho => ?_
  cases hq : q.outcome with
  | error f => simp [Cursor.deliver, hq, Except.map] at ho
  | ok v =>
    simp only [Cursor.deliver, hq, Except.map, Except.ok.injEq] at ho
    subst ho
    obtain ⟨hcount, hy⟩ := hpass hq
    refine ⟨.of_counted hcount rfl fun _ _ h => h, fun u hu => ⟨?_, fun h => by cases h⟩⟩
    rintro _ ns ⟨⟩ hns
    obtain ⟨ls, rs, hls, hrs, rfl⟩ := hy u hu ns hns
    exact hc u ls rs hls hrs

theorem PassesTruly.goOn (hR : S.Reads J s₀ E) (h0 : s₀.LeadsTo s)
    (h : PassesTruly S J s op L R m)
    (hc : ∀ u ls rs, L u ls → R u rs →
      Yields (J u) (.merge op left lh right rh) (op.combine ls rs)) :
    S.Steps s (m >>= Cursor.goOn E) (ReadsTruly J (.merge op left lh right rh)) := by
  refine Steps.bind h fun q t _ hst ⟨hq, hpass⟩ => ?_
  unfold Cursor.goOn
  split
  · next ho =>
    obtain ⟨hcount, hy⟩ := hpass ho
    refine (hR.next (h0.trans hst) hq hcount).imp fun p v _ htv hp o ho' => ?_
    obtain ⟨hpc, hpy⟩ := hp o ho'
    refine ⟨.of_counted hpc.counted rfl fun _ _ h => h, fun u hu => (hpy u hu).of_yields ?_⟩
    intro ns hns
    obtain ⟨ls, rs, hls, hrs, rfl⟩ := hy u (htv.trans hu) ns hns
    exact hc u ls rs hls hrs
  · exact .pure .error

/-- The list of one side of a sound merge. -/
theorem side_inOrder {J : Oracle} {F : Forest} {c : Cursor} {h : Option Node} {ns : List Node}
    (hs : SideOrdered F h c) (hy : Heads h (c.Yields J) ns) : F.HoldsAll ns ∧ Node.InOrder ns :=
  have ha := heads_arranged hs.1 hs.2.1 hs.2.2 (fun hm => hm.arranged hs.1) hy
  ⟨ha.1, ha.2.1⟩

theorem nextMerged_true (hJ : ∀ u, (J u).Lawful) (hR : S.Reads J s₀ E) (hE : E.Safe S)
    (h0 : s₀.LeadsTo s) (h : Sound S s (.merge op left lh right rh))
    (hc : Counted (.merge op left lh right rh)) :
    S.Steps s (nextMerged E op left lh right rh) (ReadsTruly J (.merge op left lh right rh)) := by
  have hstop : (∀ u ls rs, Heads lh (left.Yields (J u)) ls → Heads rh (right.Yields (J u)) rs →
      op.combine ls rs = []) →
      S.Steps s (pure ⟨.ok none, .merge op left lh right rh⟩)
        (ReadsTruly J (.merge op left lh right rh)) := by
    intro hnil
    refine .pure (.ok (.of_counted hc rfl fun _ _ h => h) fun u _ => ⟨nofun, fun _ => ?_⟩)
    obtain ⟨ls, hls⟩ := exists_heads (h := lh) (exists_yields (hJ u).toTotal left)
    obtain ⟨rs, hrs⟩ := exists_heads (h := rh) (exists_yields (hJ u).toTotal right)
    exact ⟨ls, rs, hls, hrs, (hnil u ls rs hls hrs).symm⟩
  have hunordered : S.Steps s (pure ⟨.error .unordered, .merge op left lh right rh⟩)
      (ReadsTruly J (.merge op left lh right rh)) := .pure .error
  obtain ⟨hl, hr⟩ := h.ordered
  cases lh with
  | none =>
    cases rh with
    | none =>
      refine hstop ?_
      rintro u _ _ rfl rfl
      cases op <;> rfl
    | some b =>
      have hpass := passRight_passed hR hE h0 h hc rfl
      cases op with
      | union =>
        refine hpass.deliver ?_
        rintro u _ rs rfl hrs
        obtain ⟨_, hin⟩ := side_inOrder hr ⟨rs, hrs, rfl⟩
        refine ⟨[], b :: rs, rfl, ⟨rs, hrs, rfl⟩, ?_⟩
        simp only [SetOperator.combine_nil_left _ hin,
          SetOperator.combine_nil_left _ (List.pairwise_cons.mp hin).2, if_true]
      | intersect => exact hstop fun u ls rs hls _ => by rw [show ls = [] from hls]; rfl
      | except => exact hstop fun u ls rs hls _ => by rw [show ls = [] from hls]; rfl
  | some a =>
    cases rh with
    | none =>
      have hpass := passLeft_passed hR hE h0 h hc rfl
      have hdeliver : op ≠ .intersect →
          S.Steps s (do return deliver a (← passLeft E op left (some a) right none))
            (ReadsTruly J (.merge op left (some a) right none)) := by
        intro hop
        refine hpass.deliver ?_
        rintro u ls _ hls rfl
        obtain ⟨_, hin⟩ := side_inOrder hl ⟨ls, hls, rfl⟩
        refine ⟨a :: ls, [], ⟨ls, hls, rfl⟩, rfl, ?_⟩
        rw [SetOperator.combine_nil_right _ hin,
          SetOperator.combine_nil_right _ (List.pairwise_cons.mp hin).2, if_neg hop, if_neg hop]
      cases op with
      | union => exact hdeliver (by decide)
      | intersect =>
        refine hstop ?_
        rintro u ls _ hls rfl
        simp [SetOperator.combine]
      | except => exact hdeliver (by decide)
    | some b =>
      have ha := hl.2.2 a rfl
      have hb := hr.2.2 b rfl
      have hleft := passLeft_passed hR hE h0 h hc rfl
      have hright := passRight_passed hR hE h0 h hc rfl
      have hboth := passBoth_true hR hE h0 h hc rfl rfl
      cases ho : a.order? b with
      | none => simpa [nextMerged, ho] using hunordered
      | some o =>
        have hord := (Node.order?_eq_some.mp ho).2
        cases o with
        | lt =>
          have hy : ∀ u ls rs, left.Yields (J u) ls → Heads (some b) (right.Yields (J u)) rs →
              Yields (J u) (.merge op left (some a) right (some b))
                ((if op = .intersect then [] else [a]) ++ op.combine ls rs) := by
            rintro u ls _ hls ⟨rs, hrs, rfl⟩
            obtain ⟨hl, ol⟩ := side_inOrder hl ⟨ls, hls, rfl⟩
            obtain ⟨hr, or⟩ := side_inOrder hr ⟨rs, hrs, rfl⟩
            exact ⟨_, _, ⟨ls, hls, rfl⟩, ⟨rs, hrs, rfl⟩, (op.combine_of_lt hl hr ol or hord).symm⟩
          cases op with
          | union => simpa [nextMerged, ho] using hleft.deliver hy
          | intersect => simpa [nextMerged, ho] using hleft.goOn hR h0 hy
          | except => simpa [nextMerged, ho] using hleft.deliver hy
        | gt =>
          have hy : ∀ u ls rs, Heads (some a) (left.Yields (J u)) ls → right.Yields (J u) rs →
              Yields (J u) (.merge op left (some a) right (some b))
                ((if op = .union then [b] else []) ++ op.combine ls rs) := by
            rintro u _ rs ⟨ls, hls, rfl⟩ hrs
            obtain ⟨hl, ol⟩ := side_inOrder hl ⟨ls, hls, rfl⟩
            obtain ⟨hr, or⟩ := side_inOrder hr ⟨rs, hrs, rfl⟩
            exact ⟨_, _, ⟨ls, hls, rfl⟩, ⟨rs, hrs, rfl⟩,
              (op.combine_of_gt hl hr ol or (Node.order_lt_iff_gt.mpr hord)).symm⟩
          cases op with
          | union => simpa [nextMerged, ho] using hright.deliver hy
          | intersect => simpa [nextMerged, ho] using hright.goOn hR h0 hy
          | except => simpa [nextMerged, ho] using hright.goOn hR h0 hy
        | eq =>
          have hab := (ha.1.order?_eq_iff hb.1).mp ho
          have hy : ∀ u ls rs, left.Yields (J u) ls → right.Yields (J u) rs →
              Yields (J u) (.merge op left (some a) right (some b))
                ((if op = .except then [] else [a]) ++ op.combine ls rs) := by
            rintro u ls rs hls hrs
            obtain ⟨hl, ol⟩ := side_inOrder hl ⟨ls, hls, rfl⟩
            obtain ⟨hr, or⟩ := side_inOrder hr ⟨rs, hrs, rfl⟩
            exact ⟨_, _, ⟨ls, hls, rfl⟩, ⟨rs, hrs, rfl⟩, (op.combine_of_eq hl hr ol or hab).symm⟩
          cases op with
          | union => simpa [nextMerged, ho] using PassesTruly.deliver (hboth false) hy
          | intersect => simpa [nextMerged, ho] using PassesTruly.deliver (hboth false) hy
          | except => simpa [nextMerged, ho] using PassesTruly.goOn hR h0 (hboth true) hy

end merge

theorem nextDistinct_true (hA : S.Answers J s₀ E) (hR : S.Reads J s₀ E) (hE : E.Safe S)
    (h0 : s₀.LeadsTo s) {base : Cursor} {key : Option (Expr × Context)} {seen : List String}
    (h : Sound S s (.distinct base key seen)) (hc : base.Counted) :
    S.Steps s (nextDistinct E base key seen) (ReadsTruly J (.distinct base key seen)) := by
  have hcounts : ∀ {o : Option Node} {r : Cursor} {ks : List String}, r.Counted →
      Counts (.distinct base key seen) o (.distinct r key ks) := fun hr =>
    .of_counted hr rfl fun _ _ h => h
  have hkey : ∀ {t : Session}, s.Keeps t →
      ∀ p ∈ key, p.1.Fits S.forest t ∧ p.2.Fits S.forest t := fun hk p hp =>
    ⟨(h.fits.2 p hp).1.mono hk, (h.fits.2 p hp).2.mono hk⟩
  refine (hR.read hE h0 ⟨h.ordered.1, h.fits.1⟩ hc).bind fun p t _ hst ⟨⟨hread, hp⟩, htrue⟩ => ?_
  have hsorted : p.rest.flags.sorted = true := hread.advance.flags ▸ h.ordered.2
  split
  · exact .pure .error
  · next hn =>
    obtain ⟨hpc, hpy⟩ := htrue _ hn
    exact .pure (.ok (hcounts hpc.counted) fun u hu =>
      ⟨nofun, fun _ => ⟨[], (hpy u hu).done rfl, .nil _⟩⟩)
  · next n hn =>
    obtain ⟨hpc, hpy⟩ := htrue _ hn
    have hheld := h.ordered.1.holds (hread.delivered n hn).1
    have htext : S.Ensures t (keyOf E key n) fun k v =>
        ∀ u, v.LeadsTo u → (J u).textBy key n k := by
      cases key with
      | none => exact .pure fun _ _ => rfl
      | some e =>
        exact hA.text (h0.trans hst) (hkey hst.toKeeps e rfl).1 (hkey hst.toKeeps e rfl).2 hheld
    refine Steps.bind htext fun r v _ htv hr => ?_
    replace hp := hp.mono htv.toKeeps
    split
    · exact .pure .error
    · next k =>
      have hk := hr k rfl
      split
      · next hseen =>
        rw [List.contains_iff_mem] at hseen
        refine (hR.next (c := .distinct p.rest key seen) (h0.trans (hst.trans htv))
          ⟨⟨hp.ordered, hsorted⟩, hp.fits, hkey (hst.trans htv).toKeeps⟩ hpc.counted).imp
            fun q w _ hvw hq o ho => ?_
        obtain ⟨hqc, hqy⟩ := hq o ho
        refine ⟨.of_counted hqc.counted rfl fun _ _ h => h, fun u hu => (hqy u hu).of_yields ?_⟩
        rintro ns ⟨ms, hms, hf⟩
        exact ⟨n :: ms, (hpy u (htv.trans (hvw.trans hu))).more n ms rfl hms,
          .known (hk u (hvw.trans hu)) hseen hf⟩
      · next hseen =>
        rw [List.contains_iff_mem] at hseen
        refine .pure (.ok (hcounts hpc.counted) fun u hu => ⟨?_, nofun⟩)
        rintro _ ns ⟨⟩ ⟨ms, hms, hf⟩
        exact ⟨n :: ms, (hpy u (htv.trans hu)).more n ms rfl hms, .fresh (hk u hu) hseen hf⟩

theorem nextStep_true (hR : S.Reads J s₀ E) (hE : E.Safe S) (h0 : s₀.LeadsTo s) {start : Cursor}
    {plan : StepPlan} {context : Context} {current : Cursor} {sorted : Bool}
    (h : Sound S s (.steps start plan context current sorted))
    (hc : Counted (.steps start plan context current sorted)) :
    S.Steps s (nextStep E start plan context current sorted)
      (ReadsTruly J (.steps start plan context current sorted)) := by
  have hcounts : ∀ {o : Option Node} {r k : Cursor}, r.Counted → k.Counted →
      Counts (.steps start plan context current sorted) o (.steps r plan context k sorted) :=
    fun hr hk => .of_counted ⟨hr, hk⟩ rfl fun _ _ h => h
  have hs : start.Sound S s := ⟨h.ordered.1, h.fits.1⟩
  have hcur : current.Sound S s := ⟨h.ordered.2.1, h.fits.2.2.2⟩
  obtain ⟨hp, hctx⟩ : (∀ p ∈ plan.predicates, p.Fits S.forest s) ∧ context.Fits S.forest s :=
    ⟨h.fits.2.1, h.fits.2.2.1⟩
  refine (hR.next h0 hcur hc.2).bind fun p t _ hst htrue => ?_
  replace hs := hs.mono hst.toKeeps
  split
  · exact .pure .error
  · next n hn =>
    obtain ⟨hpc, hpy⟩ := htrue _ hn
    refine .pure (.ok (hcounts hc.1 hpc.counted) fun u hu => ⟨?_, nofun⟩)
    rintro _ ns ⟨⟩ ⟨ms, os, reached, hms, hos, hreached, rfl⟩
    exact ⟨n :: ms, os, reached, (hpy u hu).more n ms rfl hms, hos, hreached, rfl⟩
  · next hn =>
    obtain ⟨-, hpy⟩ := htrue _ hn
    refine (hR.read hE (h0.trans hst) hs hc.1).bind fun q v _ htv ⟨⟨hq, hstart⟩, hqtrue⟩ => ?_
    split
    · exact .pure .error
    · next ho =>
      obtain ⟨hqc, hqy⟩ := hqtrue _ ho
      refine .pure (.ok (hcounts hqc.counted (fresh_ofOption none).counted) fun u hu =>
        ⟨nofun, fun _ => ?_⟩)
      exact ⟨[], [], [], (hpy u (htv.trans hu)).done rfl, (hqy u hu).done rfl, .nil, rfl⟩
    · next o ho =>
      obtain ⟨hqc, hqy⟩ := hqtrue _ ho
      replace hp := fun e he => (hp e he).mono (hst.trans htv).toKeeps
      replace hctx := hctx.mono (hst.trans htv).toKeeps
      have hfresh := fresh_ofStep plan o context
      have hvalid : o.Valid := (hs.ordered.holds (hq.delivered o ho).1).2
      refine (hR.next (c := .steps q.rest plan context (ofStep plan o context) sorted)
        (h0.trans (hst.trans htv)) ⟨(Advance.origin h.ordered hq ho).ordered, hstart.fits, hp, hctx,
          ofStep_fits hp hctx o⟩ ⟨hqc.counted, hfresh.counted⟩).imp fun r w _ hvw hr k hk => ?_
      obtain ⟨hrc, hry⟩ := hr k hk
      refine ⟨.of_counted hrc.counted rfl fun _ _ h => h, fun u hu => (hry u hu).of_yields ?_⟩
      rintro ns ⟨ms, os, reached, hms, hos, hreached, rfl⟩
      refine ⟨[], o :: os, ms :: reached, (hpy u (htv.trans (hvw.trans hu))).done rfl,
        (hqy u (hvw.trans hu)).more o os rfl hos, .cons ((yields_ofStep hvalid).mp hms) hreached, ?_⟩
      simp

theorem next_true (hJ : ∀ u, (J u).Lawful) (hA : S.Answers J s₀ E) (hR : S.Reads J s₀ E)
    (hE : E.Safe S) (h0 : s₀.LeadsTo s) {c : Cursor} (h : c.Sound S s) (hc : c.Counted) :
    S.Steps s (Cursor.next E c) (c.ReadsTruly J) := by
  cases c with
  | listed f size rest => exact next_listed_true
  | lookahead => exact nextAhead_true hR h0 h hc
  | filter => exact nextSelected_true hJ hA hR hE h0 h hc
  | merge => exact nextMerged_true hJ hR hE h0 h hc
  | distinct => exact nextDistinct_true hA hR hE h0 h hc
  | steps => exact nextStep_true hR hE h0 h hc

/-- The next node, as an action, with all that is known of it. -/
theorem pull_true (hR : S.Reads J s₀ E) (hE : E.Safe S) (h0 : s₀.LeadsTo s) {c : Cursor}
    (h : c.Sound S s) (hc : c.Counted) :
    S.Ensures s (E.pull c) fun r t => r.2.Sound S t ∧ c.Counts r.1 r.2 ∧
      ∀ u, t.LeadsTo u → c.Foresees (J u) r.1 r.2 := by
  refine Ensures.bind (Ensures.lift (hR.read hE h0 h hc)) fun p t _ _ ⟨⟨_, hp⟩, htrue⟩ => ?_
  split
  · next o ho => exact .pure ⟨hp, (htrue o ho).1, (htrue o ho).2⟩
  · exact .throw

theorem drain_true (hR : S.Reads J s₀ E) (hE : E.Safe S) (h0 : s₀.LeadsTo s) {c : Cursor}
    (h : c.Sound S s) (hc : c.Counted) :
    S.Ensures s (Cursor.drain E c) fun ns t => ∀ u, t.LeadsTo u → c.Yields (J u) ns := by
  refine (pull_true hR hE h0 h hc).bind fun ⟨o, rest⟩ t _ hst ⟨hr, hcount, hy⟩ => ?_
  cases o with
  | none => exact .pure fun u hu => (hy u hu).done rfl
  | some n =>
    refine (hR.drain (h0.trans hst) hr hcount.counted).bind fun ns v _ htv hns => .pure ?_
    exact fun u hu => (hy u (htv.trans hu)).more n ns rfl (hns u hu)

end Cursor

/-- An engine that answers as an oracle says reads truly one level further. -/
theorem Setting.Reads.succ {S : Setting} {J : Session → Oracle} {s₀ : Session} {T : Transformation}
    {n : Nat} (hJ : ∀ u, (J u).Lawful) (hE : (engine T n).Safe S)
    (hA : S.Answers J s₀ (engine T n)) (hR : S.Reads J s₀ (engine T n)) :
    S.Reads J s₀ (engine T (n + 1)) where
  next h0 h hc := Cursor.next_true hJ hA hR hE h0 h hc
  size h0 h hc := Cursor.size_true hR hE h0 h hc
  drain h0 h hc := Cursor.drain_true hR hE h0 h hc

theorem Setting.Reads.zero {S : Setting} {J : Session → Oracle} {s₀ : Session}
    {T : Transformation} : S.Reads J s₀ (engine T 0) where
  next _ _ _ := .pure .error
  size _ _ _ := .pure nofun
  drain _ _ _ := .fail

end PathLanguage
