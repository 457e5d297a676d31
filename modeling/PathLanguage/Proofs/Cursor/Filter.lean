/- What filters deliver: the nodes that their predicate holds of by its plain meaning, with the
positions and the size of the list that the base delivers, or those before the first node that it
does not hold of. -/
import PathLanguage.Proofs.Cursor.Size
import PathLanguage.Proofs.Selection.Course

namespace PathLanguage

open Conditions

/-- Under the conditions a predicate is judged in its focus, whatever the depths at which it is
evaluated and its value converted. -/
def Conditions.Judges (K : Conditions) (p : Expr) (focus : Context) (Q : Bool → Prop) : Prop :=
  ∀ d d', K.depth ≤ d → K.depth ≤ d' → ∀ s, K.met s →
    ∃ b t, (p.judge K.transformation (engine K.transformation d) (engine K.transformation d')
      focus).attempt.run s = (.ok b, t) ∧ Q b ∧ K.met t

theorem Conditions.Judges.deeper {K : Conditions} {p : Expr} {focus : Context} {Q : Bool → Prop}
    (h : K.Judges p focus Q) (more : Nat) : (K.deeper more).Judges p focus Q :=
  fun d d' hd hd' => h d d' (Nat.le_of_add_right_le hd) (Nat.le_of_add_right_le hd')

/-- The focus matters only in what the predicate asks for, and a number asks for the position. -/
theorem Conditions.Judges.like {K : Conditions} {p : Expr} {focus focus' : Context}
    {Q : Bool → Prop} (h : K.Judges p focus Q) (hl : Context.Like p.dependencies focus focus')
    (hp : p.type = .number ∨ p.type = .any → focus.position = focus'.position) :
    K.Judges p focus' Q := by
  have heq := Expr.judgements_like (T := K.transformation) hl hp
  intro d d' hd hd'
  have hjudge : p.judge K.transformation (engine K.transformation d) (engine K.transformation d')
      focus = p.judge K.transformation (engine K.transformation d) (engine K.transformation d')
      focus' := congrFun heq (d, d')
  rw [← hjudge]
  exact h d d' hd hd'

/-- The size of the list matters only to a predicate that asks for the last position. -/
theorem Conditions.Judges.resized {K : Conditions} {p : Expr} {c : Context} {n : Node}
    {Q : Bool → Prop} {position size size' : Nat} (hl : p.dependencies.last = false)
    (h : K.Judges p (c.withFocus n position size) Q) :
    K.Judges p (c.withFocus n position size') Q :=
  h.like (Context.like_withFocus c n (fun _ => rfl) (by simp [hl])) fun _ => rfl

/-- What comes down to a judgement at some depth gives the answer of the judgement. -/
theorem Conditions.Judges.succeeds {K : Conditions} {p : Expr} {focus : Context} {Q : Bool → Prop}
    {a : Engine → Action Bool} (h : K.Judges p focus Q) (more : Nat)
    (ha : ∀ depth, ∃ d d', depth ≤ d ∧ depth ≤ d' ∧ a (engine K.transformation (depth + more)) =
      p.judge K.transformation (engine K.transformation d) (engine K.transformation d') focus) :
    (K.deeper more).Succeeds a Q := by
  intro k hk s hs
  obtain ⟨j, rfl⟩ := Nat.exists_eq_add_of_le' (Nat.le_trans (Nat.le_add_left more _) hk)
  obtain ⟨d, d', hd, hd', he⟩ := ha j
  have hj : K.depth ≤ j := Nat.le_of_add_le_add_right hk
  obtain ⟨b, t, hr, hb, ht⟩ := h d d' (hj.trans hd) (hj.trans hd') s hs
  rw [← he] at hr
  have hfst := congrArg Prod.fst hr
  have hsnd := congrArg Prod.snd hr
  exact ⟨⟨b, hfst, hb⟩, hsnd ▸ ht⟩

/-- What a predicate leaves of a list up to the first node that it does not hold of. -/
inductive Oracle.Leads (J : Oracle) (p : Expr) (c : Context) (size : Nat) :
    (position : Nat) → List Node → List Node → Prop
  | nil (position : Nat) : Leads J p c size position [] []
  | pick {position : Nat} {n : Node} {ns ms : List Node} :
      J.truth p c n (position + 1) size true → Leads J p c size (position + 1) ns ms →
      Leads J p c size position (n :: ns) (n :: ms)
  | stop {position : Nat} {n : Node} {ns : List Node} :
      J.truth p c n (position + 1) size false → Leads J p c size position (n :: ns) []

namespace Oracle

variable {J : Oracle} {p : Expr} {c : Context} {size position : Nat} {n : Node} {ns ms : List Node}

/-- What a filter delivers, which may stop at the first node that its predicate does not hold of. -/
def Keeps (J : Oracle) (p : Expr) (c : Context) (size : Nat) :
    (stops : Bool) → (position : Nat) → List Node → List Node → Prop
  | true => J.Leads p c size
  | false => J.Picks p c size

theorem keeps_nil (J : Oracle) (p : Expr) (c : Context) (size : Nat) (stops : Bool)
    (position : Nat) : J.Keeps p c size stops position [] [] := by
  cases stops with
  | true => exact Leads.nil position
  | false => exact Picks.nil position

theorem Keeps.pick {stops : Bool} (ht : J.truth p c n (position + 1) size true)
    (h : J.Keeps p c size stops (position + 1) ns ms) :
    J.Keeps p c size stops position (n :: ns) (n :: ms) := by
  cases stops with
  | true => exact Leads.pick ht h
  | false => exact Picks.pick ht h

/-- Nothing is kept of what the predicate does not hold of. -/
theorem keeps_none {stops : Bool} (h : ∀ i m, ns[i]? = some m →
    J.truth p c m (position + i + 1) size false) : J.Keeps p c size stops position ns [] := by
  cases stops with
  | true =>
    cases ns with
    | nil => exact Leads.nil position
    | cons n ns => exact Leads.stop (h 0 n rfl)
  | false =>
    induction ns generalizing position with
    | nil => exact Picks.nil position
    | cons n ns ih =>
      refine Picks.pass (h 0 n rfl) (ih fun i m hm => ?_)
      have hi := h (i + 1) m hm
      rwa [show position + (i + 1) + 1 = position + 1 + i + 1 by omega] at hi

end Oracle

namespace Cursor

variable {K : Conditions} {T : Transformation} {J : Oracle} {p : Expr} {c : Context} {n : Node}
  {ns : List Node} {i total : Nat}

/-- The selection that a filter makes by a predicate. -/
def selection (p : Expr) (c : Context) (stops : Bool) : Selection :=
  ⟨p, c.ambient, .ofPredicate p, p.dependencies.last, stops⟩

section judgements

/-- Deep enough, a filter accepts just what its predicate is judged to hold of. -/
theorem accepts_eq_judge (p : Expr) (c : Context) (stops : Bool) (n : Node) {position : Nat}
    (h0 : 0 < position) (h : position < 1 <<< 53) (last depth : Nat) :
    ∃ d d', depth ≤ d ∧ depth ≤ d' ∧
      accepts (engine T (depth + 2)) (selection p c stops) n position last =
        p.judge T (engine T d) (engine T d') (c.withFocus n position last) := by
  unfold accepts
  split
  · next least most hs =>
    refine ⟨depth + 2, depth, by omega, Nat.le_refl _, ?_⟩
    obtain ⟨x, rfl⟩ | rfl := Expr.of_positions hs
    · exact congrArg Pure.pure (Strategy.eq_of_constant hs h0 h).symm
    · cases hs
      rfl
  · next hs =>
    obtain ⟨d, hd, he⟩ := Expr.number_eq_judge (T := T) ((Strategy.type_ofPredicate p).1 hs)
      (engine T depth) (c.withFocus n position last) (depth + 1)
    exact ⟨d, depth, by omega, Nat.le_refl _, he⟩
  · next hs =>
    obtain ⟨d, hd, he⟩ := Expr.boolean_eq_judge (T := T) ((Strategy.type_ofPredicate p).2 hs)
      (engine T depth) (c.withFocus n position last) (depth + 1)
    exact ⟨d, depth, by omega, Nat.le_refl _, he⟩
  · refine ⟨depth + 2, depth + 1, by omega, by omega, ?_⟩
    refine bind_congr fun v => ?_
    cases v <;> rfl

theorem accepts_succeeds {Q : Bool → Prop} (stops : Bool) {position last : Nat} (h0 : 0 < position)
    (h : position < 1 <<< 53) (hp : K.Judges p (c.withFocus n position last) Q) :
    (K.deeper 2).Succeeds (fun E => accepts E (selection p c stops) n position last) Q :=
  hp.succeeds 2 fun depth => accepts_eq_judge p c stops n h0 h last depth

end judgements

section bases

variable {base : Cursor} {stops : Bool} {last : Option Nat}

/-- What the base of a filter supplies; it knows its size if the predicate asks for the last
position. -/
def Ready (K : Conditions) (taken : Nat) (ns : List Node) (base : Cursor) : (sized : Bool) → Prop
  | true => Sized K taken ns base
  | false => Supplies K ns base

theorem Ready.next {sized : Bool} (h : Ready K i (n :: ns) base sized) :
    (K.deeper 1).Gives (fun E => E.next base) fun q =>
      q.outcome = .ok (some n) ∧ Ready K (i + 1) ns q.rest sized := by
  cases sized with
  | true => exact Sized.next h
  | false => exact Gives.deeper (show Supplies K (n :: ns) base from h) 1

theorem Ready.ended {sized : Bool} (h : Ready K i [] base sized) :
    (K.deeper 1).Gives (fun E => E.next base) fun q => q.outcome = .ok none := by
  cases sized with
  | true => exact Sized.ended h
  | false => exact Gives.deeper (show Supplies K [] base from h) 1

/-- A predicate that does not ask for the last position is told the present one. -/
theorem baseSize_of_unsized (hl : p.dependencies.last = false) (E : Engine) :
    baseSize E base (selection p c stops) last i = pure ⟨.ok i, base⟩ := by
  simp only [baseSize, selection, hl]
  cases Strategy.ofPredicate p <;> rfl

theorem baseSize_of_sized (hl : p.dependencies.last = true) (E : Engine) :
    baseSize E base (selection p c stops) last i =
      match last with
      | some l => pure ⟨.ok l, base⟩
      | none => do
        let q ← E.size base
        return ⟨q.outcome.map (·.getD i), q.rest⟩ := by
  simp only [baseSize, selection, hl]
  cases hs : Strategy.ofPredicate p with
  | positions least most => cases (Strategy.last_of_positions hs).symm.trans hl
  | _ => cases last <;> rfl

/-- What a predicate is told as the size is that of the whole list, if it asks for it. -/
theorem baseSize_gives (hb : Ready K i ns base p.dependencies.last)
    (hlast : p.dependencies.last = true → ∀ l ∈ last, l = i + ns.length) :
    (K.deeper (ns.length + 1)).Gives
      (fun E => baseSize E base (selection p c stops) last i) fun q =>
        ∃ l, q.outcome = .ok l ∧ (p.dependencies.last = true → l = i + ns.length) ∧
          Ready K i ns q.rest p.dependencies.last := by
  cases hl : p.dependencies.last with
  | false =>
    rw [hl] at hb
    simp only [baseSize_of_unsized hl]
    exact Gives.pure ⟨i, rfl, nofun, hb⟩
  | true =>
    rw [hl] at hb
    simp only [baseSize_of_sized hl]
    cases last with
    | some l => exact Gives.pure ⟨l, rfl, fun _ => hlast hl l rfl, hb⟩
    | none =>
      refine Gives.bind (Sized.size hb) fun q hq => ?_
      obtain ⟨o, r⟩ := q
      obtain ⟨rfl, hr⟩ := hq
      exact Gives.pure ⟨i + ns.length, rfl, fun _ => rfl, hr⟩

end bases

section filters

variable {base : Cursor} {stops : Bool} {last : Option Nat}

/-- No position from here on is in the range of the predicate. -/
def Beyond (p : Expr) (i : Nat) : Prop :=
  ∃ least most, Strategy.ofPredicate p = .positions least most ∧ most ≤ i

/-- A predicate that is decided by the position says what the range of positions says. -/
theorem judged_of_positions {Q : Bool → Prop} {least most position size : Nat} {s : Session}
    (hs : Strategy.ofPredicate p = .positions least most) (h0 : 0 < position)
    (h : position < 1 <<< 53) (hp : K.Judges p (c.withFocus n position size) Q) (hmet : K.met s) :
    Q (least ≤ position && position ≤ most) := by
  obtain ⟨⟨b, hb, hq⟩, -⟩ :=
    accepts_succeeds false h0 h hp (K.depth + 2) (Nat.le_refl _) s hmet
  have haccepts (E : Engine) : accepts E (selection p c false) n position size =
      pure (least ≤ position && position ≤ most) := by
    rw [accepts, selection, hs]
  simp only [haccepts] at hb
  cases hb
  exact hq

/-- A filter reads no further once its range is passed or it has stopped. -/
theorem nextSelected_finished (E : Engine) (s : Selection) :
    nextSelected E base s last i true = pure ⟨.ok none, .filter base s last i true⟩ := by
  rw [nextSelected, Bool.true_or]
  rfl

theorem nextSelected_beyond (h : Beyond p i) (E : Engine) :
    nextSelected E base (selection p c stops) last i false =
      pure ⟨.ok none, .filter base (selection p c stops) last i true⟩ := by
  obtain ⟨least, most, hs, hmost⟩ := h
  rw [nextSelected, selection, hs]
  simp [hmost]

theorem not_passed (h : ¬ Beyond p i) : ¬ (false || match Strategy.ofPredicate p with
    | .positions _ most => decide (most ≤ i)
    | _ => false) = true := by
  intro hpassed
  rw [Bool.false_or] at hpassed
  split at hpassed
  · next least most hs => exact h ⟨least, most, hs, of_decide_eq_true hpassed⟩
  · cases hpassed

/-- One turn of a filter: the next node of its base is taken if the predicate holds of it, and passed
over if not. -/
theorem nextSelected_gives {Q : Pull (Option Node) → Prop} (hbeyond : ¬ Beyond p i)
    (htotal : total < 1 <<< 53) (hb : Ready K i (n :: ns) base p.dependencies.last)
    (hlast : p.dependencies.last = true → ∀ l ∈ last, l = total) (hi : i + 1 + ns.length = total)
    (hn : K.Judges p (c.withFocus n (i + 1) total) (J.truth p c n (i + 1) total))
    (hnext : ∀ rest last', Ready K (i + 1) ns rest p.dependencies.last →
      (p.dependencies.last = true → ∀ l ∈ last', l = total) →
      (J.truth p c n (i + 1) total true →
        Q ⟨.ok (some n), .filter rest (selection p c stops) last' (i + 1) false⟩) ∧
      (J.truth p c n (i + 1) total false → (K.deeper (ns.length + 4)).Gives
        (fun E => E.next (.filter rest (selection p c stops) last' (i + 1) stops)) Q)) :
    (K.deeper (ns.length + 4)).Gives
      (fun E => nextSelected E base (selection p c stops) last i false) Q := by
  unfold nextSelected
  refine Gives.ifNot (not_passed hbeyond) ?_
  refine Gives.bind (hb.next.atLeast (by omega)) fun q hq => ?_
  obtain ⟨o, rest⟩ := q
  obtain ⟨rfl, hrest⟩ := hq
  have hsize : (K.deeper (ns.length + 1)).Gives
      (fun E => baseSize E rest (selection p c stops) last (i + 1)) fun q =>
        ∃ l, q.outcome = .ok l ∧ (p.dependencies.last = true → l = i + 1 + ns.length) ∧
          Ready K (i + 1) ns q.rest p.dependencies.last :=
    baseSize_gives hrest fun hl l hm => (hlast hl l hm).trans hi.symm
  refine Gives.bind (hsize.atLeast (by omega)) fun q hq => ?_
  obtain ⟨o, rest⟩ := q
  obtain ⟨l, rfl, hl, hrest⟩ := hq
  have hjudged : K.Judges p (c.withFocus n (i + 1) l) (J.truth p c n (i + 1) total) := by
    cases hasks : p.dependencies.last with
    | true =>
      obtain rfl : l = total := (hl hasks).trans hi
      exact hn
    | false => exact hn.resized hasks
  refine Gives.bind ((accepts_succeeds stops (Nat.succ_pos i) (by omega) hjudged).atLeast (by omega))
    fun r hr => ?_
  obtain ⟨b, rfl, hb⟩ := hr
  obtain ⟨htaken, hpassed⟩ := hnext rest (if p.dependencies.last then some l else last) hrest
    fun hasks m hm => by
      rw [if_pos hasks] at hm
      exact Option.some.inj hm ▸ (hl hasks).trans hi
  cases b with
  | true => exact Gives.pure (htaken hb)
  | false => exact hpassed hb

theorem nextSelected_ended (hb : Ready K i [] base p.dependencies.last) :
    (K.deeper 1).Gives (fun E => nextSelected E base (selection p c stops) last i false)
      fun q => q.outcome = .ok none := by
  by_cases hbeyond : Beyond p i
  · simp only [nextSelected_beyond hbeyond]
    exact Gives.pure rfl
  · unfold nextSelected
    refine Gives.ifNot (not_passed hbeyond) ?_
    refine Gives.bind hb.ended fun q hq => ?_
    obtain ⟨o, rest⟩ := q
    obtain rfl : o = .ok none := hq
    exact Gives.pure rfl

/-- Beyond its range a predicate holds of no more nodes. -/
theorem keeps_beyond (hbeyond : Beyond p i) (htotal : total < 1 <<< 53) (hi : i + ns.length = total)
    (hp : ∀ j m, ns[j]? = some m →
      K.Judges p (c.withFocus m (i + j + 1) total) (J.truth p c m (i + j + 1) total))
    {s : Session} (hs : K.met s) : J.Keeps p c total stops i ns [] := by
  obtain ⟨least, most, hstrategy, hmost⟩ := hbeyond
  refine Oracle.keeps_none fun j m hm => ?_
  have hj : j < ns.length := (List.getElem?_eq_some_iff.mp hm).1
  have hjudged := judged_of_positions hstrategy (Nat.succ_pos _) (by omega) (hp j m hm) hs
  have hfar : ¬ i + j + 1 ≤ most := by omega
  rwa [decide_eq_false hfar, Bool.and_false] at hjudged

/-- A filter supplies what its predicate keeps of what its base supplies. -/
theorem streams_filter (htotal : total < 1 <<< 53) (hb : Ready K i ns base p.dependencies.last)
    (hlast : p.dependencies.last = true → ∀ l ∈ last, l = total) (hi : i + ns.length = total)
    (hp : ∀ j m, ns[j]? = some m →
      K.Judges p (c.withFocus m (i + j + 1) total) (J.truth p c m (i + j + 1) total)) :
    Streams (K.deeper (ns.length + 4)) ns.length (J.Keeps p c total stops i ns)
      (.filter base (selection p c stops) last i false) := by
  induction ns generalizing base last i with
  | nil =>
    refine Streams.ended (Gives.next (K := K.deeper 3) ?_) (Oracle.keeps_nil J p c total stops i)
    exact (nextSelected_ended hb).atLeast (by omega)
  | cons n ns ih =>
    have hi' : i + 1 + ns.length = total := by
      rw [List.length_cons] at hi
      omega
    have htail : ∀ j m, ns[j]? = some m → K.Judges p (c.withFocus m (i + 1 + j + 1) total)
        (J.truth p c m (i + 1 + j + 1) total) := by
      intro j m hm
      have hj := hp (j + 1) m hm
      rwa [show i + (j + 1) + 1 = i + 1 + j + 1 by omega] at hj
    refine Gives.next (K := K.deeper (ns.length + 4)) ?_
    by_cases hbeyond : Beyond p i
    · simp only [Cursor.next, nextSelected_beyond hbeyond]
      refine Gives.suppose fun hmet => Gives.pure (.inl ⟨rfl, ?_⟩)
      obtain ⟨s, hs⟩ := hmet
      exact keeps_beyond hbeyond htotal hi hp hs
    · refine nextSelected_gives (J := J) hbeyond htotal hb hlast hi' (hp 0 n rfl)
        fun rest last' hrest hlast' => ⟨fun ht => .inr ⟨n, rfl, ?_⟩, fun ht => ?_⟩
      · have hmore := (ih hrest hlast' hi' htail).deeper 1
        exact hmore.imp fun ms hms => hms.pick ht
      · cases stops with
        | true =>
          refine Gives.next (K := K.deeper (ns.length + 3)) ?_
          simp only [Cursor.next, nextSelected_finished]
          exact Gives.pure (.inl ⟨rfl, .stop ht⟩)
        | false =>
          refine Gives.imp (ih hrest hlast' hi' htail).next fun q hq => ?_
          rcases hq with ⟨ho, hr⟩ | ⟨m, ho, hr⟩
          · exact .inl ⟨ho, .pass ht hr⟩
          · exact .inr ⟨m, ho, (hr.deeper 1).imp fun ms hms => .pass ht hms⟩

end filters

section selections

variable {base : Cursor}

theorem ready_select (hb : Supplies K ns base) (ht : base.Tells 0) {s : Session} (hs : K.met s) :
    Ready K 0 ns
      (if p.dependencies.last && !base.counts then base.lookingAhead else base)
      p.dependencies.last := by
  cases p.dependencies.last with
  | false => exact hb
  | true =>
    cases hc : base.counts with
    | false => exact Sized.ahead (List.nil_append ns) hb
    | true => exact sized_of_tells hb hc ht hs

/-- A selection from a cursor of which nothing has been read. -/
theorem streams_select (stops : Bool) (hb : Supplies K ns base) (ht : base.Tells 0)
    (hk : ns.length < 1 <<< 53)
    (hp : ∀ i n, ns[i]? = some n →
      K.Judges p (c.withFocus n (i + 1) ns.length) (J.truth p c n (i + 1) ns.length)) :
    Streams (K.deeper (ns.length + 4)) ns.length (J.Keeps p c ns.length stops 0 ns)
      (base.select p c stops) := by
  refine Streams.suppose fun ⟨s, hs⟩ => ?_
  refine streams_filter (K := K) hk (ready_select hb ht hs) nofun (Nat.zero_add _) fun j m hm => ?_
  rw [Nat.zero_add]
  exact hp j m hm

/-- A filter over a cursor that supplies some nodes delivers, in their order, those of which its
predicate holds in their focus: a number that is the position, or another value that is true as a
boolean. One that stops at the first rejected node delivers the nodes before it. -/
theorem select_delivers (K : Conditions) (J : Oracle) {base : Cursor} {p : Expr} {c : Context}
    {ns : List Node} (hb : Supplies K ns base) (ht : base.Tells 0) (hk : ns.length < 1 <<< 53)
    (hp : ∀ i n, ns[i]? = some n →
      K.Judges p (c.withFocus n (i + 1) ns.length) (J.truth p c n (i + 1) ns.length)) :
    (K.deeper (2 * ns.length + 5)).Succeeds (fun E => E.drain (base.select p c false))
        (J.Picks p c ns.length 0 ns) ∧
      (K.deeper (2 * ns.length + 5)).Succeeds (fun E => E.drain (base.select p c true))
        (J.Leads p c ns.length 0 ns) := by
  have hdrain (stops : Bool) :
      (K.deeper (2 * ns.length + 5)).Succeeds (fun E => E.drain (base.select p c stops))
        (J.Keeps p c ns.length stops 0 ns) := by
    have hread := (streams_select (J := J) stops hb ht hk hp).drain
    intro n hn
    refine hread n ?_
    change K.depth + (ns.length + 4) + (ns.length + 1) ≤ n
    have hn' : K.depth + (2 * ns.length + 5) ≤ n := hn
    omega
  exact ⟨hdrain false, hdrain true⟩

/-- The test for the last position leaves the second one of two nodes whose number is not told. -/
theorem select_delivers_second : ∃ m n : Node, m ≠ n ∧
    (Conditions.mk .bare (fun _ => True) 12).Succeeds
      (fun E => E.drain ((Cursor.listed {} none [m, n]).select (.isLast true) .blank false))
      (· = [n]) := by
  let m : Node := .root ⟨0, false, .text "a"⟩
  let n : Node := .root ⟨1, false, .text "b"⟩
  let J : Oracle := ⟨fun _ _ _ i k b => b = ((i == k) == true), fun _ _ _ _ => True,
    fun _ _ _ => True, fun _ _ => True⟩
  refine ⟨m, n, by simp [m, n], ?_⟩
  have hbase := supplies_listed ⟨.bare, fun _ => True, 2⟩ {} none [m, n]
  have hp : ∀ i k : Nat, ∀ o : Node, Conditions.Judges ⟨.bare, fun _ => True, 3⟩ (.isLast true)
      (Context.blank.withFocus o i k) (J.truth (.isLast true) .blank o i k) := by
    intro i k o d d' hd hd' s hs
    obtain ⟨d, rfl⟩ := Nat.exists_eq_add_of_le' hd
    exact ⟨(i == k) == true, s, rfl, rfl, trivial⟩
  have hdelivers := (select_delivers ⟨.bare, fun _ => True, 3⟩ J (c := .blank) hbase nofun
    (by decide) fun i o _ => hp (i + 1) 2 o).1
  refine hdelivers.imp fun ms hms => ?_
  cases hms with
  | pick ht => exact nomatch ht
  | pass _ hms =>
    cases hms with
    | pick _ hms => cases hms; rfl
    | pass ht => exact nomatch ht

end selections

end Cursor

end PathLanguage
