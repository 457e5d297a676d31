/- What a cursor tells of its size: how many nodes it has delivered and how many are still to come.
Lists know their size; lookaheads read the rest of their base for it and keep what they have
read. -/
import PathLanguage.Proofs.Cursor.Stream
import PathLanguage.Proofs.Cursor.Yields

namespace PathLanguage

/-- A selection as a filter makes it from its predicate. -/
structure Selection.Proper (s : Selection) : Prop where
  strategy : s.strategy = .ofPredicate s.predicate
  usesLast : s.usesLast = s.predicate.dependencies.last
  goesOn : s.stopsAtReject = false

/-- A predicate that is decided by the position alone does not ask for the last one. -/
theorem Strategy.last_of_positions {p : Expr} {least most : Nat}
    (h : ofPredicate p = .positions least most) : p.dependencies.last = false := by
  unfold ofPredicate at h
  split at h
  · rfl
  · rfl
  · split at h <;> cases h

namespace Cursor

variable {J : Oracle}

/-- After `taken` nodes a cursor that tells its size knows how many have been taken. -/
def Tells (taken : Nat) : Cursor → Prop
  | .listed _ size rest => ∀ k ∈ size, k = taken + rest.length
  | .lookahead _ _ delivered _ => delivered = taken
  | _ => True

/-- After `taken` nodes of a cursor there will have been `total` of them at its end. -/
def Settled (total taken : Nat) : Cursor → Prop
  | .listed _ _ rest => total = taken + rest.length
  | .lookahead _ buffer _ exhausted => exhausted = true ∧ total = taken + buffer.length
  | _ => False

/-- Every filter within a cursor knows its position, and the size of its base if it has to. -/
def Counted : Cursor → Prop
  | .listed .. => True
  | .lookahead base _ _ _ => base.Counted
  | .filter base s last position _ => base.Counted ∧ s.Proper ∧
    (s.usesLast = true → base.counts = true ∧ base.Tells position) ∧
    ∀ l ∈ last, base.Settled l position
  | .merge _ left _ right _ => left.Counted ∧ right.Counted
  | .distinct base _ _ => base.Counted
  | .steps start _ _ current _ => start.Counted ∧ current.Counted

/-- A cursor of which nothing has been read. -/
structure Fresh (c : Cursor) : Prop where
  counted : c.Counted
  tells : c.Tells 0

theorem Settled.eq {c : Cursor} {total taken : Nat} {ns : List Node} (h : c.Settled total taken)
    (hy : c.Yields J ns) : total = taken + ns.length := by
  cases c with
  | listed f size rest => exact hy ▸ h
  | lookahead base buffer delivered exhausted =>
    obtain ⟨rfl, h⟩ := h
    exact (show ns = buffer from hy) ▸ h
  | filter | merge | distinct | steps => exact h.elim

theorem fresh_ofOption (n : Option Node) : (Cursor.ofOption n).Fresh :=
  ⟨trivial, by simp [ofOption, Tells]⟩

theorem fresh_slice (ns : List Node) (sorted reverse : Bool) :
    (Cursor.slice ns sorted reverse).Fresh :=
  ⟨trivial, by simp [slice, Tells]⟩

theorem fresh_ofExtent (e : Extent) : (Cursor.ofExtent e).Fresh := fresh_slice _ _ _

theorem fresh_onAxis (o : Node) (axis : Axis) (test : NodeTest) : (onAxis o axis test).Fresh := by
  refine ⟨trivial, ?_⟩
  simp only [onAxis, Tells]
  split <;> simp

theorem Fresh.select {base : Cursor} (h : base.Fresh) (p : Expr) (c : Context) :
    (base.select p c false).Fresh := by
  refine ⟨?_, trivial⟩
  simp only [Cursor.select, Counted]
  refine ⟨?_, ⟨rfl, rfl, rfl⟩, fun hl => ?_, by simp⟩
  · split
    · exact h.counted
    · exact h.counted
  · split
    · exact ⟨rfl, rfl⟩
    · next hc =>
      rw [hl, Bool.true_and, Bool.not_eq_true', Bool.not_eq_false] at hc
      exact ⟨hc, h.tells⟩

theorem fresh_ofStep (plan : StepPlan) (o : Node) (c : Context) : (ofStep plan o c).Fresh := by
  have key : ∀ (ps : List Expr) (base : Cursor), base.Fresh →
      (ps.foldl (fun r p => r.select p c false) base).Fresh := by
    intro ps
    induction ps with
    | nil => exact fun _ h => h
    | cons p ps ih => exact fun base h => ih _ (h.select p c)
  exact key plan.predicates _ (fresh_onAxis o plan.axis plan.test)

/-- What reading makes of what a cursor tells of its size. -/
structure Counts (c : Cursor) (o : Option Node) (r : Cursor) : Prop where
  counted : r.Counted
  counts : c.counts = true → r.counts = true
  tells : c.counts = true → ∀ taken, c.Tells taken → r.Tells (taken + o.toList.length)
  settled : ∀ total taken, c.Settled total taken → r.Settled total (taken + o.toList.length)

theorem Counts.refl {c : Cursor} (h : c.Counted) : c.Counts none c :=
  ⟨h, id, fun _ _ h => h, fun _ _ h => h⟩

/-- Only what is counted matters to a cursor that does not tell its size. -/
theorem Counts.of_counted {c r : Cursor} {o : Option Node} (h : r.Counted)
    (hc : c.counts = false) (hs : ∀ total taken, ¬ c.Settled total taken) : c.Counts o r :=
  ⟨h, fun h' => by simp [hc] at h', fun h' => by simp [hc] at h',
    fun total taken h' => (hs total taken h').elim⟩

/-- A node read from a cursor, if any, and then what the rest yields is what the cursor yields. -/
structure Foresees (J : Oracle) (c : Cursor) (o : Option Node) (r : Cursor) : Prop where
  more : ∀ n ns, o = some n → r.Yields J ns → c.Yields J (n :: ns)
  done : o = none → c.Yields J []

/-- A cursor that stands for another one, of which it yields the same. -/
theorem Foresees.of_yields {c r q : Cursor} {o : Option Node} (h : Foresees J r o q)
    (hr : ∀ ns, r.Yields J ns → c.Yields J ns) : Foresees J c o q :=
  ⟨fun n ns ho hq => hr _ (h.more n ns ho hq), fun ho => hr _ (h.done ho)⟩

end Cursor

namespace Cursor

open Conditions

variable {K : Conditions} {c base : Cursor} {n : Node} {ns : List Node} {taken : Nat}

/-- A cursor that supplies some nodes after `taken` others and can tell how many there are in all. -/
inductive Sized (K : Conditions) (taken : Nat) (ns : List Node) : Cursor → Prop
  | listed (f : Flags) : Sized K taken ns (.listed f (some (taken + ns.length)) ns)
  | ahead {base : Cursor} {buffer rest : List Node} : buffer ++ rest = ns →
      Supplies K rest base → Sized K taken ns (.lookahead base buffer taken false)
  | read (base : Cursor) : Sized K taken ns (.lookahead base ns taken true)

/-- The next node of a lookahead is the first of its buffer, or the next one of its base. -/
theorem Sized.next (h : Sized K taken (n :: ns) c) : (K.deeper 1).Gives (fun E => E.next c)
    fun p => p.outcome = .ok (some n) ∧ Sized K (taken + 1) ns p.rest := by
  refine Gives.next ?_
  cases h with
  | listed f =>
    refine Gives.pure ⟨rfl, ?_⟩
    rw [List.length_cons, Nat.add_comm ns.length, ← Nat.add_assoc]
    exact .listed f
  | read base => exact Gives.pure ⟨rfl, .read base⟩
  | @ahead base buffer rest hns hbase =>
    cases buffer with
    | nil =>
      obtain rfl : rest = n :: ns := hns
      refine Gives.bind hbase fun p hp => ?_
      obtain ⟨o, r⟩ := p
      obtain ⟨rfl, hr⟩ := hp
      exact Gives.pure ⟨rfl, .ahead rfl hr⟩
    | cons m buffer =>
      obtain ⟨rfl, rfl⟩ := List.cons.inj hns
      exact Gives.pure ⟨rfl, .ahead rfl hbase⟩

theorem Sized.ended (h : Sized K taken [] c) :
    (K.deeper 1).Gives (fun E => E.next c) fun p => p.outcome = .ok none := by
  refine Gives.next ?_
  cases h with
  | listed f => exact Gives.pure rfl
  | read base => exact Gives.pure rfl
  | ahead hns hbase =>
    obtain ⟨rfl, rfl⟩ := List.append_eq_nil_iff.mp hns
    refine Gives.bind hbase fun p hp => ?_
    obtain ⟨o, r⟩ := p
    obtain rfl : o = .ok none := hp
    exact Gives.pure rfl

/-- For its size a lookahead reads its base to the end. -/
theorem size_ahead {buffer rest : List Node} (hbase : Supplies K rest base) :
    (K.deeper (rest.length + 1)).Gives (fun E => E.size (.lookahead base buffer taken false))
      fun p => p.outcome = .ok (some (taken + (buffer ++ rest).length)) ∧
        Sized K taken (buffer ++ rest) p.rest := by
  induction rest generalizing base buffer with
  | nil =>
    refine Gives.size (Gives.bind hbase fun p hp => ?_)
    obtain ⟨o, r⟩ := p
    obtain rfl : o = .ok none := hp
    rw [List.append_nil]
    exact Gives.pure ⟨rfl, .read r⟩
  | cons n rest ih =>
    refine Gives.size (K := K.deeper (rest.length + 1)) ?_
    refine Gives.bind (Gives.deeper hbase _) fun p hp => ?_
    obtain ⟨o, r⟩ := p
    obtain ⟨rfl, hr⟩ := hp
    have hrest := @ih r (buffer ++ [n]) hr
    rwa [List.append_assoc, List.singleton_append] at hrest

/-- What is told is the number of nodes taken and still to come, which is known again afterwards. -/
theorem Sized.size (h : Sized K taken ns c) :
    (K.deeper (ns.length + 1)).Gives (fun E => E.size c) fun p =>
      p.outcome = .ok (some (taken + ns.length)) ∧ Sized K taken ns p.rest := by
  cases h with
  | listed f => exact Gives.size (K := K.deeper ns.length) (Gives.pure ⟨rfl, .listed f⟩)
  | read base => exact Gives.size (K := K.deeper ns.length) (Gives.pure ⟨rfl, .read base⟩)
  | ahead hns hbase =>
    subst hns
    exact (size_ahead hbase).atLeast (by simp)

/-- With an empty buffer a lookahead is read by reading its base. -/
theorem next_unread (E : Engine) (base : Cursor) (delivered : Nat) (s : Session) :
    ((Cursor.next E (.lookahead base [] delivered false)).run s).1.outcome =
        ((E.next base).run s).1.outcome ∧
      ((Cursor.next E (.lookahead base [] delivered false)).run s).2 = ((E.next base).run s).2 ∧
      ∀ n, ((E.next base).run s).1.outcome = .ok (some n) →
        ((Cursor.next E (.lookahead base [] delivered false)).run s).1.rest =
          .lookahead ((E.next base).run s).1.rest [] (delivered + 1) false := by
  simp only [Cursor.next, nextAhead, Bool.false_eq_true, if_false, StateT.run_bind]
  generalize (E.next base).run s = q
  obtain ⟨⟨o, r⟩, t⟩ := q
  rcases o with f | _ | m
  · exact ⟨rfl, rfl, nofun⟩
  · exact ⟨rfl, rfl, nofun⟩
  · exact ⟨rfl, rfl, fun _ _ => rfl⟩

/-- With an empty buffer a lookahead hands on what its base supplies. -/
theorem Supplies.unread {delivered : Nat}
    (h : Supplies K ns (.lookahead base [] delivered false)) : Supplies K ns base := by
  induction ns generalizing base delivered with
  | nil =>
    intro k hk s hs
    obtain ⟨ho, ht, -⟩ := next_unread (engine K.transformation k) base delivered s
    obtain ⟨hread, hmet⟩ := Gives.ofNext h k hk s hs
    exact ⟨ho.symm.trans hread, ht ▸ hmet⟩
  | cons n ns ih =>
    intro k hk s hs
    obtain ⟨ho, ht, hrest⟩ := next_unread (engine K.transformation k) base delivered s
    obtain ⟨⟨hread, hmore⟩, hmet⟩ := Gives.ofNext h k hk s hs
    rw [ho] at hread
    rw [hrest n hread] at hmore
    exact ⟨⟨hread, ih hmore⟩, ht ▸ hmet⟩

/-- A lookahead supplies its buffer first. -/
theorem Supplies.buffered {buffer : List Node} {delivered : Nat} {exhausted : Bool}
    (h : Supplies K ns (.lookahead base buffer delivered exhausted)) {s : Session} (hs : K.met s) :
    ∃ rest, buffer ++ rest = ns ∧
      Supplies K rest (.lookahead base [] (delivered + buffer.length) exhausted) := by
  induction buffer generalizing ns delivered with
  | nil => exact ⟨ns, rfl, h⟩
  | cons m buffer ih =>
    cases ns with
    | nil => cases (h (K.depth + 1) (Nat.le_succ _) s hs).1
    | cons n ns =>
      obtain ⟨ho, hrest⟩ := (h (K.depth + 1) (Nat.le_succ _) s hs).1
      obtain rfl : m = n := Option.some.inj (Except.ok.inj ho)
      obtain ⟨rest, rfl, hsupplies⟩ := ih hrest
      refine ⟨rest, rfl, ?_⟩
      rwa [List.length_cons, Nat.add_comm buffer.length, ← Nat.add_assoc]

/-- A cursor of which nothing has been read knows its size, if it tells one at all. -/
theorem sized_of_tells (h : Supplies K ns c) (hc : c.counts = true) (ht : c.Tells 0) {s : Session}
    (hs : K.met s) : Sized K 0 ns c := by
  cases c with
  | listed f size rest =>
    obtain rfl := h.listed hs
    obtain ⟨k, rfl⟩ := Option.isSome_iff_exists.mp hc
    obtain rfl : k = 0 + ns.length := ht k rfl
    exact .listed f
  | lookahead base buffer delivered exhausted =>
    obtain rfl : delivered = 0 := ht
    obtain ⟨rest, rfl, hrest⟩ := h.buffered hs
    cases exhausted with
    | false => exact .ahead rfl hrest.unread
    | true =>
      cases rest with
      | nil =>
        rw [List.append_nil]
        exact .read base
      | cons n rest => cases (hrest (K.depth + 1) (Nat.le_succ _) s hs).1.1
  | filter | merge | distinct | steps => cases hc

end Cursor

end PathLanguage
