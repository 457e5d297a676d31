/- Reading a cursor keeps it ordered, and sets each delivered node before what is still to come. -/
import PathLanguage.Proofs.Cursor.Flags

namespace PathLanguage

namespace Cursor

/-- A cursor after some reading: it says the same of its order, and reaches nothing new. -/
structure Advance (F : Forest) (c r : Cursor) : Prop where
  ordered : r.Ordered F
  flags : r.flags = c.flags
  subset : ∀ n, r.reach n → c.reach n
  single : c.IsSingle → r.IsSingle

/-- The outcome of reading one node. -/
structure Reads (F : Forest) (c : Cursor) (p : Pull (Option Node)) : Prop where
  advance : Advance F c p.rest
  delivered : ∀ n, p.outcome = .ok (some n) → c.reach n ∧ ∀ m, p.rest.reach m → c.flags.Relates n m
  last : ∀ n, p.outcome = .ok (some n) → c.IsSingle → ∀ m, ¬ p.rest.reach m

end Cursor

/-- An engine that reads ordered cursors in order. -/
structure Engine.Orderly (F : Forest) (E : Engine) : Prop where
  next : ∀ {c : Cursor}, c.Ordered F → Always (E.next c) (c.Reads F)
  size : ∀ {c : Cursor}, c.Ordered F → Always (E.size c) fun p => c.Advance F p.rest

namespace Cursor

variable {F : Forest} {E : Engine}

theorem Advance.refl {c : Cursor} (h : c.Ordered F) : Advance F c c :=
  ⟨h, rfl, fun _ hn => hn, fun hs => hs⟩

theorem Advance.trans {c r q : Cursor} (h : Advance F c r) (h' : Advance F r q) :
    Advance F c q where
  ordered := h'.ordered
  flags := h'.flags.trans h.flags
  subset n hn := h.subset n (h'.subset n hn)
  single hs := h'.single (h.single hs)

/-- Reading that delivers nothing. -/
theorem Advance.reads {c : Cursor} {p : Pull (Option Node)} (h : Advance F c p.rest)
    (hp : ∀ n, p.outcome ≠ .ok (some n)) : c.Reads F p :=
  ⟨h, fun n hn => absurd hn (hp n), fun n hn => absurd hn (hp n)⟩

/-- Reading goes on from a cursor reached before. -/
theorem Reads.after {c r : Cursor} {p : Pull (Option Node)} (ha : Advance F c r)
    (h : r.Reads F p) : c.Reads F p where
  advance := ha.trans h.advance
  delivered n hn := by
    obtain ⟨hr, hm⟩ := h.delivered n hn
    exact ⟨ha.subset n hr, ha.flags ▸ hm⟩
  last n hn hs := h.last n hn (ha.single hs)

theorem next_listed {f : Flags} {size : Option Nat} {rest : List Node}
    (h : Ordered F (.listed f size rest)) :
    Always (Cursor.next E (.listed f size rest)) (Reads F (.listed f size rest)) := by
  cases rest with
  | nil => exact .pure ((Advance.refl h).reads (by simp))
  | cons n rest =>
    obtain ⟨hh, hp⟩ := h
    rw [Forest.holdsAll_cons] at hh
    rw [List.pairwise_cons] at hp
    refine .pure ⟨⟨⟨hh.2, hp.2⟩, rfl, fun m hm => List.mem_cons_of_mem _ hm, ?_⟩, ?_, ?_⟩
    · intro hs
      have := show (n :: rest).length ≤ 1 from hs
      exact show rest.length ≤ 1 by simp only [List.length_cons] at this; omega
    · rintro m ⟨⟩
      exact ⟨List.mem_cons_self, fun k hk => hp.1 k hk⟩
    · rintro m ⟨⟩ hs k hk
      have := show (n :: rest).length ≤ 1 from hs
      have hr : rest = [] := by
        rw [← List.length_eq_zero_iff]
        simp only [List.length_cons] at this
        omega
      subst hr
      simp [reach] at hk

theorem nextAhead_reads (hE : E.Orderly F) {base : Cursor} {buffer : List Node} {delivered : Nat}
    {exhausted : Bool} (h : Ordered F (.lookahead base buffer delivered exhausted)) :
    Always (nextAhead E base buffer delivered exhausted)
      (Reads F (.lookahead base buffer delivered exhausted)) := by
  obtain ⟨hb, hh, hp, hr⟩ := h
  cases buffer with
  | cons n rest =>
    rw [Forest.holdsAll_cons] at hh
    rw [List.pairwise_cons] at hp
    refine .pure ⟨⟨⟨hb, hh.2, hp.2, fun a ha => hr a (by simp [ha])⟩, rfl, ?_, fun hs => hs⟩, ?_,
      fun _ _ hs => hs.elim⟩
    · rintro m (hm | hm)
      · exact .inl (by simp [hm])
      · exact .inr hm
    · rintro m ⟨⟩
      refine ⟨.inl (by simp), ?_⟩
      rintro k (hk | hk)
      · exact hp.1 k hk
      · exact hr n (by simp) k hk
  | nil =>
    have hbase : ∀ {r : Cursor} (d : Nat) (e : Bool), Advance F base r →
        Advance F (.lookahead base [] delivered exhausted) (.lookahead r [] d e) := fun d e hr =>
      ⟨⟨hr.ordered, by simp, .nil, by simp⟩, hr.flags, fun n hn => hn.imp id (hr.subset n),
        fun hs => hs⟩
    cases exhausted with
    | true => exact .pure ((hbase _ _ (.refl hb)).reads (by simp))
    | false =>
      refine (hE.next hb).bind fun p hpull => ?_
      have ha := hpull.advance
      split
      · next n hn =>
        refine .pure ⟨hbase _ _ ha, ?_, fun _ _ hs => hs.elim⟩
        rintro m ⟨⟩
        obtain ⟨hm, hrel⟩ := hpull.delivered n hn
        exact ⟨.inr hm, fun k hk => hrel k (hk.resolve_left (by simp))⟩
      · exact .pure ((hbase _ _ ha).reads (by simp))
      · exact .pure ((hbase _ _ ha).reads (by simp))

/-- Reading ahead puts the node that was read at the end of the buffer. -/
theorem Advance.grow {base : Cursor} {buffer : List Node} (delivered : Nat)
    (h : Ordered F (.lookahead base buffer delivered false)) {p : Pull (Option Node)}
    (hpull : base.Reads F p) {n : Node} (hn : p.outcome = .ok (some n)) :
    Advance F (.lookahead base buffer delivered false)
      (.lookahead p.rest (buffer ++ [n]) delivered false) := by
  obtain ⟨hb, hh, hp, hr⟩ := h
  have ha := hpull.advance
  obtain ⟨hm, hrel⟩ := hpull.delivered n hn
  refine ⟨⟨ha.ordered, ?_, ?_, ?_⟩, ha.flags, ?_, fun hs => hs⟩
  · exact Forest.holdsAll_append.mpr ⟨hh, by simpa using hb.holds hm⟩
  · rw [ha.flags]
    refine List.pairwise_append.mpr ⟨hp, by simp, ?_⟩
    intro a ha b hb
    rw [List.mem_singleton.mp hb]
    exact hr a ha n hm
  · rw [ha.flags]
    intro a hbuf m hm'
    rcases List.mem_append.mp hbuf with hbuf | hbuf
    · exact hr a hbuf m (ha.subset m hm')
    · rw [List.mem_singleton.mp hbuf]
      exact hrel m hm'
  · rintro m (hm' | hm')
    · rcases List.mem_append.mp hm' with hm' | hm'
      · exact .inl hm'
      · rw [List.mem_singleton.mp hm']
        exact .inr hm
    · exact .inr (ha.subset m hm')

theorem size_advance (hE : E.Orderly F) {c : Cursor} (h : c.Ordered F) :
    Always (Cursor.size E c) fun p => c.Advance F p.rest := by
  cases c with
  | lookahead base buffer delivered exhausted =>
    obtain ⟨hb, hh, hp, hr⟩ := h
    have hbase : ∀ {r : Cursor} (e : Bool), Advance F base r →
        Advance F (.lookahead base buffer delivered exhausted)
          (.lookahead r buffer delivered e) := fun e hadv =>
      ⟨⟨hadv.ordered, hh, hadv.flags ▸ hp,
          fun a ha n hn => hadv.flags ▸ hr a ha n (hadv.subset n hn)⟩,
        hadv.flags, fun n hn => hn.imp id (hadv.subset n), fun hs => hs⟩
    cases exhausted with
    | true => exact .pure (hbase _ (.refl hb))
    | false =>
      refine (hE.next hb).bind fun p hpull => ?_
      have ha := hpull.advance
      split
      · exact .pure (hbase _ ha)
      · exact .pure (hbase _ ha)
      · next n hn =>
        have hgrown := Advance.grow delivered ⟨hb, hh, hp, hr⟩ hpull hn
        exact (hE.size hgrown.ordered).imp fun q hq => hgrown.trans hq
  | listed => exact .pure (.refl h)
  | filter => exact .pure (.refl h)
  | merge => exact .pure (.refl h)
  | distinct => exact .pure (.refl h)
  | steps => exact .pure (.refl h)

theorem Advance.filter {base r : Cursor} (h : Advance F base r) (s : Selection)
    (last last' : Option Nat) (position position' : Nat) (finished finished' : Bool) :
    Advance F (.filter base s last position finished) (.filter r s last' position' finished') :=
  ⟨h.ordered, h.flags, h.subset, fun hs => hs⟩

theorem baseSize_advance (hE : E.Orderly F) {base : Cursor} (h : base.Ordered F) (s : Selection)
    (last : Option Nat) (position : Nat) :
    Always (baseSize E base s last position) fun q => base.Advance F q.rest := by
  unfold baseSize
  split
  · exact .pure (.refl h)
  · exact .pure (.refl h)
  · exact .pure (.refl h)
  · exact (hE.size h).bind fun p hp => .pure hp

theorem nextSelected_reads (hE : E.Orderly F) {base : Cursor} (h : base.Ordered F) (s : Selection)
    (last : Option Nat) (position : Nat) (finished : Bool) :
    Always (nextSelected E base s last position finished)
      (Reads F (.filter base s last position finished)) := by
  have hbase : ∀ {r : Cursor} (l : Option Nat) (i : Nat) (e : Bool), Advance F base r →
      Advance F (.filter base s last position finished) (.filter r s l i e) :=
    fun l i e hr => hr.filter s last l position i finished e
  unfold nextSelected
  extract_lets beyond
  split
  · exact .pure ((hbase _ _ _ (.refl h)).reads (by simp))
  · refine (hE.next h).bind fun p hpull => ?_
    have ha := hpull.advance
    split
    · exact .pure ((hbase _ _ _ ha).reads (by simp))
    · exact .pure ((hbase _ _ _ ha).reads (by simp))
    · next n hn =>
      obtain ⟨hm, hrel⟩ := hpull.delivered n hn
      refine (baseSize_advance hE ha.ordered s last _).bind fun q hq => ?_
      split
      · exact .pure ((hbase _ _ _ (ha.trans hq)).reads (by simp))
      · refine .bind_any fun r => ?_
        split
        · exact .pure ((hbase _ _ _ (ha.trans hq)).reads (by simp))
        · refine .pure ⟨hbase _ _ _ (ha.trans hq), ?_, fun _ _ hs => hs.elim⟩
          rintro m ⟨⟩
          exact ⟨hm, fun k hk => hrel k (hq.subset k hk)⟩
        · refine (hE.next ?_).imp fun r hr => hr.after (hbase _ _ _ (ha.trans hq))
          exact (ha.trans hq).ordered

/-- The nodes of one side of a merge: the head that was read already, and those behind it. -/
def side (h : Option Node) (c : Cursor) (n : Node) : Prop := ∃ a ∈ h, n = a ∨ c.reach n

/-- A side of a merge is sorted behind its head. -/
def SideOrdered (F : Forest) (h : Option Node) (c : Cursor) : Prop :=
  c.Ordered F ∧ c.flags.sorted = true ∧ ∀ a ∈ h, F.Holds a ∧ ∀ n, c.reach n → a.Before n

theorem SideOrdered.step {h : Option Node} {c : Cursor} (hs : SideOrdered F h c)
    {p : Pull (Option Node)} (hp : c.Reads F p) {o : Option Node} (ho : p.outcome = .ok o) :
    SideOrdered F o p.rest ∧ ∀ n, side o p.rest n → c.reach n := by
  refine ⟨⟨hp.advance.ordered, hp.advance.flags ▸ hs.2.1, ?_⟩, ?_⟩
  · rintro a ⟨⟩
    obtain ⟨ha, hrel⟩ := hp.delivered a ho
    exact ⟨hs.1.holds ha, fun n hn => (hrel n hn).sorted hs.2.1⟩
  · rintro n ⟨a, ⟨⟩, rfl | hn⟩
    · exact (hp.delivered n ho).1
    · exact hp.advance.subset n hn

theorem SideOrdered.advance {h : Option Node} {c r : Cursor} (hs : SideOrdered F h c)
    (hr : Advance F c r) : SideOrdered F h r :=
  ⟨hr.ordered, hr.flags ▸ hs.2.1, fun a ha => ⟨(hs.2.2 a ha).1,
    fun n hn => (hs.2.2 a ha).2 n (hr.subset n hn)⟩⟩

/-- The outcome of reading past heads of a merge: what is reached then lies behind the heads that
were passed. -/
structure Passes (F : Forest) (op : SetOperator) (left : Cursor) (lh : Option Node) (right : Cursor)
    (rh : Option Node) (behind : Node → Prop) (q : Pull Unit) : Prop where
  advance : Advance F (.merge op left lh right rh) q.rest
  behind : q.outcome = .ok () → ∀ n, q.rest.reach n → behind n

theorem passLeft_passes (hE : E.Orderly F) (op : SetOperator) {left right : Cursor}
    {lh rh : Option Node} {a : Node} (ha : a ∈ lh) (hl : SideOrdered F lh left)
    (hr : SideOrdered F rh right) :
    Always (passLeft E op left lh right rh) fun q =>
      Passes F op left lh right rh (fun n => left.reach n ∨ side rh right n) q ∧
      (q.outcome = .ok () → ∃ l h, q.rest = .merge op l h right rh ∧ SideOrdered F h l ∧
        ∀ n, side h l n → left.reach n) := by
  refine (hE.next hl.1).bind fun p hp => ?_
  split
  · next o ho =>
    obtain ⟨hside, hsub⟩ := hl.step hp ho
    refine .pure ⟨⟨⟨⟨hside, hr⟩, rfl, ?_, fun hs => hs⟩, ?_⟩,
      fun _ => ⟨p.rest, o, rfl, hside, hsub⟩⟩
    · exact fun n hn => hn.imp (fun hn => ⟨a, ha, .inr (hsub n hn)⟩) id
    · exact fun _ n hn => hn.imp (hsub n) id
  · refine .pure ⟨⟨⟨⟨hl.advance hp.advance, hr⟩, rfl, ?_, fun hs => hs⟩, by simp⟩, by simp⟩
    exact fun n hn => hn.imp
      (fun ⟨b, hb, hn⟩ => ⟨b, hb, hn.imp id (hp.advance.subset n)⟩) id

theorem passRight_passes (hE : E.Orderly F) (op : SetOperator) {left right : Cursor}
    {lh rh : Option Node} {b : Node} (hb : b ∈ rh) (hl : SideOrdered F lh left)
    (hr : SideOrdered F rh right) :
    Always (passRight E op left lh right rh) fun q =>
      Passes F op left lh right rh (fun n => side lh left n ∨ right.reach n) q ∧
      (q.outcome = .ok () → ∃ r h, q.rest = .merge op left lh r h ∧ SideOrdered F h r ∧
        ∀ n, side h r n → right.reach n) := by
  refine (hE.next hr.1).bind fun p hp => ?_
  split
  · next o ho =>
    obtain ⟨hside, hsub⟩ := hr.step hp ho
    refine .pure ⟨⟨⟨⟨hl, hside⟩, rfl, ?_, fun hs => hs⟩, ?_⟩,
      fun _ => ⟨p.rest, o, rfl, hside, hsub⟩⟩
    · exact fun n hn => hn.imp id (fun hn => ⟨b, hb, .inr (hsub n hn)⟩)
    · exact fun _ n hn => hn.imp id (hsub n)
  · refine .pure ⟨⟨⟨⟨hl, hr.advance hp.advance⟩, rfl, ?_, fun hs => hs⟩, by simp⟩, by simp⟩
    exact fun n hn => hn.imp id
      (fun ⟨c, hc, hn⟩ => ⟨c, hc, hn.imp id (hp.advance.subset n)⟩)

theorem passBoth_passes (hE : E.Orderly F) (leftFirst : Bool) (op : SetOperator)
    {left right : Cursor} {lh rh : Option Node} {a b : Node} (ha : a ∈ lh) (hb : b ∈ rh)
    (hl : SideOrdered F lh left) (hr : SideOrdered F rh right) :
    Always (passBoth E leftFirst op left lh right rh)
      (Passes F op left lh right rh fun n => left.reach n ∨ right.reach n) := by
  cases leftFirst with
  | true =>
    refine (passLeft_passes hE op ha hl hr).bind fun q ⟨hq, hok⟩ => ?_
    split
    · next heq hrest =>
      obtain ⟨l, h, he, hs, hsub⟩ := hok heq
      obtain ⟨rfl, rfl, rfl, rfl, rfl⟩ := Cursor.merge.inj (hrest.symm.trans he)
      refine (passRight_passes hE _ hb hs hr).imp fun r ⟨hp, _⟩ => ?_
      have hadv := hq.advance
      rw [he] at hadv
      exact ⟨hadv.trans hp.advance, fun ho n hn => (hp.behind ho n hn).imp (hsub n) id⟩
    · next hno =>
      refine .pure ⟨hq.advance, fun ho => ?_⟩
      obtain ⟨l, h, he, -⟩ := hok ho
      exact (hno _ _ _ _ _ ho he).elim
  | false =>
    refine (passRight_passes hE op hb hl hr).bind fun q ⟨hq, hok⟩ => ?_
    split
    · next heq hrest =>
      obtain ⟨r, h, he, hs, hsub⟩ := hok heq
      obtain ⟨rfl, rfl, rfl, rfl, rfl⟩ := Cursor.merge.inj (hrest.symm.trans he)
      refine (passLeft_passes hE _ ha hl hs).imp fun r ⟨hp, _⟩ => ?_
      have hadv := hq.advance
      rw [he] at hadv
      exact ⟨hadv.trans hp.advance, fun ho n hn => (hp.behind ho n hn).imp id (hsub n)⟩
    · next hno =>
      refine .pure ⟨hq.advance, fun ho => ?_⟩
      obtain ⟨r, h, he, -⟩ := hok ho
      exact (hno _ _ _ _ _ ho he).elim

theorem Passes.deliver {op : SetOperator} {left right : Cursor} {lh rh : Option Node}
    {behind : Node → Prop} {q : Pull Unit} (h : Passes F op left lh right rh behind q) {a : Node}
    (ha : reach (.merge op left lh right rh) a) (hb : ∀ n, behind n → a.Before n) :
    Reads F (.merge op left lh right rh) (deliver a q) := by
  refine ⟨h.advance, ?_, fun _ _ hs => hs.elim⟩
  intro n hn
  cases ho : q.outcome with
  | error f => simp [Cursor.deliver, ho, Except.map] at hn
  | ok u =>
    simp only [Cursor.deliver, ho, Except.map, Except.ok.injEq, Option.some.injEq] at hn
    subst hn
    exact ⟨ha, fun m hm => ⟨fun _ => hb m (h.behind ho m hm), nofun, nofun⟩⟩

theorem Passes.goOn (hE : E.Orderly F) {op : SetOperator} {left right : Cursor}
    {lh rh : Option Node} {behind : Node → Prop} {q : Pull Unit}
    (h : Passes F op left lh right rh behind q) :
    Always (goOn E q) (Reads F (.merge op left lh right rh)) := by
  unfold Cursor.goOn
  split
  · exact (hE.next h.advance.ordered).imp fun p hp => hp.after h.advance
  · exact .pure (h.advance.reads (by simp))

theorem nextMerged_reads (hE : E.Orderly F) {op : SetOperator} {left right : Cursor}
    {lh rh : Option Node} (h : Ordered F (.merge op left lh right rh)) :
    Always (nextMerged E op left lh right rh) (Reads F (.merge op left lh right rh)) := by
  have hstop : Always (pure ⟨.ok none, .merge op left lh right rh⟩)
      (Reads F (.merge op left lh right rh)) := .pure ((Advance.refl h).reads (by simp))
  have hunordered : Always (pure ⟨.error .unordered, .merge op left lh right rh⟩)
      (Reads F (.merge op left lh right rh)) := .pure ((Advance.refl h).reads (by simp))
  obtain ⟨hl, hr⟩ := h
  cases lh with
  | none =>
    cases rh with
    | none => exact hstop
    | some b =>
      have hb := hr.2.2 b rfl
      have hpass := passRight_passes hE op (b := b) rfl hl hr
      have hdeliver : Always (do return deliver b (← passRight E op left none right (some b)))
          (Reads F (.merge op left none right (some b))) :=
        hpass.bind fun q ⟨hq, _⟩ => .pure (hq.deliver (.inr ⟨b, rfl, .inl rfl⟩) fun n hn =>
          hn.elim (fun ⟨_, hn, _⟩ => by cases hn) (hb.2 n))
      cases op with
      | union => exact hdeliver
      | intersect => exact hstop
      | except => exact hstop
  | some a =>
    have ha := hl.2.2 a rfl
    cases rh with
    | none =>
      have hpass := passLeft_passes hE op (a := a) rfl hl hr
      have hdeliver : Always (do return deliver a (← passLeft E op left (some a) right none))
          (Reads F (.merge op left (some a) right none)) :=
        hpass.bind fun q ⟨hq, _⟩ => .pure (hq.deliver (.inl ⟨a, rfl, .inl rfl⟩) fun n hn =>
          hn.elim (ha.2 n) (fun ⟨_, hn, _⟩ => by cases hn))
      cases op with
      | union => exact hdeliver
      | intersect => exact hstop
      | except => exact hdeliver
    | some b =>
      have hb := hr.2.2 b rfl
      have hleft := passLeft_passes hE op (a := a) rfl hl hr
      have hright := passRight_passes hE op (b := b) rfl hl hr
      have hboth := fun first => passBoth_passes hE first op (a := a) (b := b) rfl rfl hl hr
      -- What lies behind one head comes after the other head as well if that is first.
      have hbefore : ∀ {a b : Node} {c : Cursor}, F.Holds a → a.Before b → F.Holds b →
          (∀ n, c.reach n → b.Before n) → ∀ n, side (some b) c n → a.Before n := by
        rintro a b c ha hab hb hc n ⟨_, ⟨⟩, rfl | hn⟩
        · exact hab
        · exact ha.before_trans hb hab (hc n hn)
      cases ho : a.order? b with
      | none => simpa [nextMerged, ho] using hunordered
      | some o =>
        cases o with
        | lt =>
          have hdeliver : Always
              (do return deliver a (← passLeft E op left (some a) right (some b)))
              (Reads F (.merge op left (some a) right (some b))) :=
            hleft.bind fun q ⟨hq, _⟩ => .pure (hq.deliver (.inl ⟨a, rfl, .inl rfl⟩) fun n hn =>
              hn.elim (ha.2 n) (hbefore ha.1 ho hb.1 hb.2 n))
          have hgo : Always (passLeft E op left (some a) right (some b) >>= goOn E)
              (Reads F (.merge op left (some a) right (some b))) :=
            hleft.bind fun q ⟨hq, _⟩ => hq.goOn hE
          cases op with
          | union => simpa [nextMerged, ho] using hdeliver
          | intersect => simpa [nextMerged, ho] using hgo
          | except => simpa [nextMerged, ho] using hdeliver
        | gt =>
          have hba : b.Before a := by
            have hlt := Node.order?_eq_some.mp ho
            exact Node.before_iff.mpr ⟨ha.1.comparable_symm hb.1 hlt.1,
              Node.order_lt_iff_gt.mpr hlt.2⟩
          have hdeliver : Always
              (do return deliver b (← passRight E op left (some a) right (some b)))
              (Reads F (.merge op left (some a) right (some b))) :=
            hright.bind fun q ⟨hq, _⟩ => .pure (hq.deliver (.inr ⟨b, rfl, .inl rfl⟩) fun n hn =>
              hn.elim (hbefore hb.1 hba ha.1 ha.2 n) (hb.2 n))
          have hgo : Always (passRight E op left (some a) right (some b) >>= goOn E)
              (Reads F (.merge op left (some a) right (some b))) :=
            hright.bind fun q ⟨hq, _⟩ => hq.goOn hE
          cases op with
          | union => simpa [nextMerged, ho] using hdeliver
          | intersect => simpa [nextMerged, ho] using hgo
          | except => simpa [nextMerged, ho] using hgo
        | eq =>
          obtain rfl := (ha.1.order?_eq_iff hb.1).mp ho
          have hdeliver : Always
              (do return deliver a (← passBoth E false op left (some a) right (some a)))
              (Reads F (.merge op left (some a) right (some a))) :=
            (hboth false).bind fun q hq => .pure (hq.deliver (.inl ⟨a, rfl, .inl rfl⟩) fun n hn =>
              hn.elim (ha.2 n) (hb.2 n))
          have hgo : Always (passBoth E true op left (some a) right (some a) >>= goOn E)
              (Reads F (.merge op left (some a) right (some a))) :=
            (hboth true).bind fun q hq => hq.goOn hE
          cases op with
          | union => simpa [nextMerged, ho] using hdeliver
          | intersect => simpa [nextMerged, ho] using hdeliver
          | except => simpa [nextMerged, ho] using hgo

theorem nextDistinct_reads (hE : E.Orderly F) {base : Cursor} {key : Option (Expr × Context)}
    {seen : List String} (h : Ordered F (.distinct base key seen)) :
    Always (nextDistinct E base key seen) (Reads F (.distinct base key seen)) := by
  have hbase : ∀ {r : Cursor} (ks : List String), Advance F base r →
      Advance F (.distinct base key seen) (.distinct r key ks) := fun ks hr =>
    ⟨⟨hr.ordered, hr.flags ▸ h.2⟩, rfl, hr.subset, fun hs => hs⟩
  refine (hE.next h.1).bind fun p hpull => ?_
  have ha := hpull.advance
  split
  · exact .pure ((hbase _ ha).reads (by simp))
  · exact .pure ((hbase _ ha).reads (by simp))
  · next n hn =>
    obtain ⟨hm, hrel⟩ := hpull.delivered n hn
    refine .bind_any fun r => ?_
    split
    · exact .pure ((hbase _ ha).reads (by simp))
    · split
      · exact (hE.next (hbase seen ha).ordered).imp fun q hq => hq.after (hbase _ ha)
      · refine .pure ⟨hbase _ ha, ?_, fun _ _ hs => hs.elim⟩
        rintro m ⟨⟩
        exact ⟨hm, fun k hk => ⟨fun _ => (hrel k hk).sorted h.2, nofun, nofun⟩⟩

theorem ofStep_ordered {o : Node} (ho : F.Holds o) (plan : StepPlan) (context : Context) :
    (ofStep plan o context).Ordered F ∧
      (ofStep plan o context).flags = ⟨plan.axis.isForward, plan.axis.isReverse, plan.axis.isPeer⟩ ∧
      ∀ n, (ofStep plan o context).reach n → n ∈ o.along plan.axis := by
  have key : ∀ (ps : List Expr) (c : Cursor), c.Ordered F →
      (ps.foldl (fun c p => c.select p context false) c).Ordered F ∧
      (ps.foldl (fun c p => c.select p context false) c).flags = c.flags ∧
      ∀ n, (ps.foldl (fun c p => c.select p context false) c).reach n → c.reach n := by
    intro ps
    induction ps with
    | nil => exact fun c hc => ⟨hc, rfl, fun _ hn => hn⟩
    | cons p ps ih =>
      intro c hc
      obtain ⟨h1, h2, h3⟩ := ih (c.select p context false) (hc.select p context false)
      exact ⟨h1, h2.trans (flags_select c p context false), fun n hn => reach_select.mp (h3 n hn)⟩
  obtain ⟨h1, h2, h3⟩ := key plan.predicates _ (onAxis_ordered ho plan.axis plan.test)
  refine ⟨h1, h2, fun n hn => ?_⟩
  rw [← Walk.nodes_start ho.2]
  exact List.mem_of_mem_filter (h3 n hn)

/-- The nodes of a step from one origin come before those from a later origin, and none of them is
above or below another if the step has peers only. -/
theorem StaysOrdered.relates {start : Cursor} {axis : Axis} (hs : StaysOrdered start axis)
    {o o' : Node} (ho : F.Holds o) (ho' : F.Holds o') (hsingle : ¬ start.IsSingle)
    (hrel : start.flags.Relates o o') {x y : Node} (hx : x ∈ o.along axis) (hy : y ∈ o'.along axis)
    (f : Flags) (hf : f.reverse = false) : f.Relates x y := by
  obtain ⟨hsorted, hpeer, hsub⟩ := hs.origins.resolve_left hsingle
  have hb := hrel.sorted hsorted
  have hsep := hrel.peer hpeer
  have hx := Node.within_of_mem_along hsub hx
  have hy := Node.within_of_mem_along hsub hy
  have hne : o ≠ o' := fun he => Node.Before.irrefl o (he ▸ hb)
  refine ⟨fun _ => Forest.before_of_within ho ho' hb hsep.1 hx hy, fun h => ?_, fun _ => ?_⟩
  · rw [hf] at h
    cases h
  · exact Node.separate_of_within hne hsep hx hy

theorem StaysOrdered.advance {start r : Cursor} {axis : Axis} (hs : StaysOrdered start axis)
    (hr : Advance F start r) : StaysOrdered r axis :=
  ⟨hs.forward, hs.origins.imp hr.single fun h => hr.flags ▸ h⟩

theorem steps_flags_relates {start current : Cursor} {plan : StepPlan} {context : Context}
    {x y : Node} : (flags (.steps start plan context current false)).Relates x y :=
  ⟨nofun, nofun, nofun⟩

/-- The next origin makes a step deliver for it. -/
theorem Advance.origin {start : Cursor} {plan : StepPlan} {context : Context} {current : Cursor}
    {sorted : Bool} (h : Ordered F (.steps start plan context current sorted))
    {q : Pull (Option Node)} (hq : start.Reads F q) {o : Node} (ho : q.outcome = .ok (some o)) :
    Advance F (.steps start plan context current sorted)
      (.steps q.rest plan context (ofStep plan o context) sorted) := by
  obtain ⟨hs, -, hkeep⟩ := h
  have hqa := hq.advance
  obtain ⟨hreach, hlater⟩ := hq.delivered o ho
  have hoh := hs.holds hreach
  obtain ⟨hstep, hflags, hsub⟩ := ofStep_ordered hoh plan context
  refine ⟨⟨hqa.ordered, hstep, fun ht => ⟨(hkeep ht).1.advance hqa, ?_, ?_⟩⟩, rfl, ?_,
    fun hs => hs⟩
  · rw [hflags]
    refine ⟨fun _ => (hkeep ht).1.forward, nofun, fun hp => ?_⟩
    have hp : ((sorted && plan.axis.isPeer) && plan.axis != .namespaces) = true := hp
    rw [Bool.and_eq_true, Bool.and_eq_true] at hp
    exact hp.1.2
  · intro o' ho' x hx y hy
    have hsingle : ¬ start.IsSingle := fun h1 => hq.last o ho h1 o' ho'
    exact (hkeep ht).1.relates hoh (hqa.ordered.holds ho') hsingle (hlater o' ho')
      (hsub x hx) hy _ rfl
  · rintro n (hn | ⟨o', ho', hn⟩)
    · exact .inr ⟨o, hreach, hsub n hn⟩
    · exact .inr ⟨o', hqa.subset o' ho', hn⟩

theorem nextStep_reads (hE : E.Orderly F) {start : Cursor} {plan : StepPlan} {context : Context}
    {current : Cursor} {sorted : Bool} (h : Ordered F (.steps start plan context current sorted)) :
    Always (nextStep E start plan context current sorted)
      (Reads F (.steps start plan context current sorted)) := by
  obtain ⟨hs, hc, hkeep⟩ := id h
  have hcurrent : ∀ {r : Cursor}, Advance F current r →
      Advance F (.steps start plan context current sorted) (.steps start plan context r sorted) :=
    fun hr => ⟨⟨hs, hr.ordered, fun ht => ⟨(hkeep ht).1, hr.flags ▸ (hkeep ht).2.1,
      fun o ho x hx => (hkeep ht).2.2 o ho x (hr.subset x hx)⟩⟩, rfl,
      fun n hn => hn.imp (hr.subset n) id, fun hs => hs⟩
  refine (hE.next hc).bind fun p hpull => ?_
  have ha := hpull.advance
  split
  · exact .pure ((hcurrent ha).reads (by simp))
  · next n hn =>
    obtain ⟨hm, hrel⟩ := hpull.delivered n hn
    refine .pure ⟨hcurrent ha, ?_, fun _ _ hs => hs.elim⟩
    rintro m ⟨⟩
    refine ⟨.inl hm, fun k hk => ?_⟩
    cases sorted with
    | false => exact steps_flags_relates
    | true =>
      obtain ⟨-, hcovers, hcross⟩ := hkeep rfl
      rcases hk with hk | ⟨o, ho, hk⟩
      · exact (hrel k hk).mono hcovers
      · exact hcross o ho n hm k hk
  · -- The nodes of the latest origin are exhausted, so the next origin is read.
    refine (hE.next hs).bind fun q hq => ?_
    have hqa := hq.advance
    have hempty : Advance F (.steps start plan context current sorted)
        (.steps q.rest plan context .empty sorted) := by
      refine ⟨⟨hqa.ordered, ⟨by simp, .nil⟩, fun ht => ⟨(hkeep ht).1.advance hqa, ?_, ?_⟩⟩, rfl, ?_,
        fun hs => hs⟩
      · exact ⟨fun _ => rfl, nofun, fun _ => rfl⟩
      · exact fun o ho x hx => absurd hx (by simp [empty, ofOption, reach])
      · rintro n (hn | ⟨o, ho, hn⟩)
        · simp [empty, ofOption, reach] at hn
        · exact .inr ⟨o, hqa.subset o ho, hn⟩
    split
    · exact .pure (hempty.reads (by simp))
    · exact .pure (hempty.reads (by simp))
    · next o ho =>
      have hnext := Advance.origin h hq ho
      exact (hE.next hnext.ordered).imp fun r hr => hr.after hnext

theorem next_reads (hE : E.Orderly F) {c : Cursor} (h : c.Ordered F) :
    Always (Cursor.next E c) (c.Reads F) := by
  cases c with
  | listed f size rest => exact next_listed h
  | lookahead => exact nextAhead_reads hE h
  | filter base s last position finished =>
    exact nextSelected_reads hE (show base.Ordered F from h) s last position finished
  | merge => exact nextMerged_reads hE h
  | distinct => exact nextDistinct_reads hE h
  | steps => exact nextStep_reads hE h

end Cursor

/-- At every depth the engine reads ordered cursors in order. -/
theorem engine_orderly (F : Forest) (T : Transformation) (n : Nat) : (engine T n).Orderly F := by
  induction n with
  | zero =>
    exact ⟨fun h => .pure ((Cursor.Advance.refl h).reads (by simp)), fun h => .pure (.refl h)⟩
  | succ n ih => exact ⟨Cursor.next_reads ih, Cursor.size_advance ih⟩

namespace Cursor

variable {F : Forest} {T : Transformation} {c : Cursor} {s t : Session} {ns : List Node}

theorem pull_reads {E : Engine} (hE : E.Orderly F) (h : c.Ordered F) :
    Returns (E.pull c) fun q => c.Advance F q.2 ∧ ∀ n ∈ q.1, c.reach n := by
  refine (Returns.lift (hE.next h)).bind fun p hp => ?_
  split
  · next o ho =>
    refine .pure ⟨hp.advance, ?_⟩
    rintro n rfl
    exact (hp.delivered n ho).1
  · exact .throw

/-- An ordered cursor that is read out delivers nodes within its reach. -/
theorem drain_reaches (T : Transformation) (depth : Nat) (h : c.Ordered F) :
    Returns ((engine T depth).drain c) fun ns => ∀ n ∈ ns, c.reach n := by
  induction depth generalizing c with
  | zero => exact .fail
  | succ k ih =>
    refine .bind (pull_reads (engine_orderly F T k) h) fun ⟨o, rest⟩ ⟨ha, hn⟩ => ?_
    cases o with
    | none => exact .pure nofun
    | some n =>
      refine .bind (ih ha.ordered) fun ns hns => .pure fun m hm => ?_
      rcases List.mem_cons.mp hm with rfl | hm
      · exact hn m rfl
      · exact ha.subset m (hns m hm)

/-- A search reads on just until a node passes the test, so that it succeeds wherever reading out
does. -/
theorem find_of_drain (test : Node → Bool) {depth : Nat}
    (h : ((engine T depth).drain c).attempt.run s = (.ok ns, t)) :
    ∃ u, ((engine T depth).find test c).attempt.run s = (.ok (ns.any test), u) := by
  induction depth generalizing c s ns with
  | zero => cases h
  | succ k ih =>
    obtain ⟨⟨o, rest⟩, u, hpull, hrest⟩ := Action.bind_ok.mp h
    have hfind : ((engine T (k + 1)).find test c).attempt.run s = _ :=
      Action.run_bind_ok hpull
    rw [hfind]
    cases o with
    | none =>
      cases hrest
      exact ⟨_, rfl⟩
    | some n =>
      obtain ⟨ms, v, hms, hpure⟩ := Action.bind_ok.mp hrest
      cases hpure
      rw [List.any_cons]
      cases htest : test n with
      | true => exact ⟨u, by simp [htest]; rfl⟩
      | false =>
        obtain ⟨w, hw⟩ := ih hms
        exact ⟨w, by simpa [htest] using hw⟩

end Cursor

/-- Reading a cursor node by node: other evaluations may change the session between two reads, an
attempt may fail and be repeated, and each may be followed to a depth of its own. -/
inductive Cursor.Delivers (T : Transformation) : Cursor → List Node → Prop
  | stop (c : Cursor) : Delivers T c []
  | deliver {c : Cursor} {depth : Nat} {s : Session} {n : Node} {ns : List Node} :
      (((engine T depth).next c).run s).1.outcome = .ok (some n) →
      Delivers T (((engine T depth).next c).run s).1.rest ns → Delivers T c (n :: ns)
  | other {c : Cursor} {depth : Nat} {s : Session} {ns : List Node} :
      (∀ n, (((engine T depth).next c).run s).1.outcome ≠ .ok (some n)) →
      Delivers T (((engine T depth).next c).run s).1.rest ns → Delivers T c ns
  | size {c : Cursor} {depth : Nat} {s : Session} {ns : List Node} :
      Delivers T (((engine T depth).size c).run s).1.rest ns → Delivers T c ns

/-- The nodes delivered from an ordered cursor, however it is read, are in the order and as far
apart as its flags say. -/
theorem Cursor.Delivers.relates {F : Forest} {T : Transformation} {c : Cursor} {ns : List Node}
    (h : c.Delivers T ns) (hc : c.Ordered F) :
    (∀ n ∈ ns, c.reach n) ∧ ns.Pairwise c.flags.Relates := by
  induction h with
  | stop c => simp
  | @deliver c depth s n ns ho _ ih =>
    have hr := (engine_orderly F T depth).next hc s
    obtain ⟨hn, hrel⟩ := hr.delivered n ho
    obtain ⟨hmem, hpair⟩ := ih hr.advance.ordered
    refine ⟨?_, List.pairwise_cons.mpr ⟨fun m hm => hrel m (hmem m hm), hr.advance.flags ▸ hpair⟩⟩
    intro m hm
    rcases List.mem_cons.mp hm with rfl | hm
    · exact hn
    · exact hr.advance.subset m (hmem m hm)
  | @other c depth s ns _ _ ih =>
    have hr := ((engine_orderly F T depth).next hc s).advance
    obtain ⟨hmem, hpair⟩ := ih hr.ordered
    exact ⟨fun n hn => hr.subset n (hmem n hn), hr.flags ▸ hpair⟩
  | @size c depth s ns _ ih =>
    have hr := (engine_orderly F T depth).size hc s
    obtain ⟨hmem, hpair⟩ := ih hr.ordered
    exact ⟨fun n hn => hr.subset n (hmem n hn), hr.flags ▸ hpair⟩

end PathLanguage
