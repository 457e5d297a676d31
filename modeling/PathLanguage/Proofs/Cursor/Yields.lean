/- What a cursor will have delivered when it is read to its end, told from its state alone. -/
import PathLanguage.Proofs.Cursor.Flags
import PathLanguage.Proofs.Selection.Lists

namespace PathLanguage

open Node (InOrder)

namespace Flags

/-- What the flags of a cursor say of one node that it yields and a later one, documents coming by
their identities. -/
structure Arranges (f : Flags) (a b : Node) : Prop where
  sorted : f.sorted = true → a.order b = .lt
  reverse : f.reverse = true → b.order a = .lt
  peer : f.peer = true → a.Separate b

theorem Relates.arranges {f : Flags} {a b : Node} (h : f.Relates a b) : f.Arranges a b :=
  ⟨fun hs => (Node.before_iff.mp (h.sorted hs)).2, fun hr => (Node.before_iff.mp (h.reverse hr)).2,
    h.peer⟩

theorem Arranges.mono {f g : Flags} {a b : Node} (h : f.Arranges a b) (hc : f.Covers g) :
    g.Arranges a b :=
  ⟨fun hs => h.sorted (hc.sorted hs), fun hr => h.reverse (hc.reverse hr),
    fun hp => h.peer (hc.peer hp)⟩

end Flags

/-- A list that begins with a head, if there is one, and is empty otherwise. -/
def Heads (head : Option Node) (rest : List Node → Prop) (ns : List Node) : Prop :=
  match head with
  | none => ns = []
  | some a => ∃ ms, rest ms ∧ ns = a :: ms

namespace Cursor

/-- The nodes that a cursor has still to deliver. -/
def Yields (J : Oracle) : Cursor → List Node → Prop
  | .listed _ _ rest, ns => ns = rest
  | .lookahead base buffer _ exhausted, ns =>
    if exhausted then ns = buffer else ∃ ms, base.Yields J ms ∧ ns = buffer ++ ms
  | .filter base s _ position finished, ns =>
    if finished then ns = []
    else ∃ ms, base.Yields J ms ∧
      J.Picks s.predicate s.context (position + ms.length) position ms ns
  | .merge op left leftHead right rightHead, ns =>
    ∃ ls rs, Heads leftHead (left.Yields J) ls ∧ Heads rightHead (right.Yields J) rs ∧
      ns = op.combine ls rs
  | .distinct base key seen, ns => ∃ ms, base.Yields J ms ∧ Firsts (J.textBy key) seen ms ns
  | .steps start plan context current _, ns =>
    ∃ ms origins reached, current.Yields J ms ∧ start.Yields J origins ∧
      List.Forall₂ (fun o rs =>
        J.Narrows context.ambient plan.predicates (o.step plan.axis plan.test) rs)
        origins reached ∧ ns = ms ++ reached.flatten

variable {J : Oracle} {F : Forest}

theorem yields_ofOption {n : Option Node} {ns : List Node} :
    (Cursor.ofOption n).Yields J ns ↔ ns = n.toList := Iff.rfl

theorem yields_onAxis {o : Node} (h : o.Valid) {axis : Axis} {test : NodeTest} {ns : List Node} :
    (onAxis o axis test).Yields J ns ↔ ns = o.step axis test := by
  simp only [onAxis, Yields, Walk.nodes_start h]
  rfl

theorem yields_select {base : Cursor} {p : Expr} {c : Context} {stop : Bool} {ns : List Node} :
    (base.select p c stop).Yields J ns ↔
      ∃ ms, base.Yields J ms ∧ J.Picks p c.ambient ms.length 0 ms ns := by
  simp only [select, Yields, Bool.false_eq_true, if_false, Nat.zero_add]
  split
  · simp [lookingAhead, Yields]
  · rfl

theorem yields_ofStep {plan : StepPlan} {o : Node} (h : o.Valid) {c : Context} {ns : List Node} :
    (ofStep plan o c).Yields J ns ↔
      J.Narrows c.ambient plan.predicates (o.step plan.axis plan.test) ns := by
  have key : ∀ (ps : List Expr) (base : Cursor),
      (ps.foldl (fun r p => r.select p c false) base).Yields J ns ↔
        ∃ ms, base.Yields J ms ∧ J.Narrows c.ambient ps ms ns := by
    intro ps
    induction ps with
    | nil =>
      intro base
      refine ⟨fun h => ⟨ns, h, .nil ns⟩, ?_⟩
      rintro ⟨ms, hms, hn⟩
      cases hn
      exact hms
    | cons p ps ih =>
      intro base
      rw [List.foldl_cons, ih]
      constructor
      · rintro ⟨ms, hms, hn⟩
        obtain ⟨ks, hks, hp⟩ := yields_select.mp hms
        exact ⟨ks, hks, .cons hp hn⟩
      · rintro ⟨ks, hks, hn⟩
        cases hn with
        | cons hp hn => exact ⟨_, yields_select.mpr ⟨ks, hks, hp⟩, hn⟩
  rw [ofStep, key]
  simp only [yields_onAxis h, exists_eq_left]

theorem exists_heads {h : Option Node} {c : Cursor} (hc : ∃ ns, c.Yields J ns) :
    ∃ ns, Heads h (c.Yields J) ns := by
  obtain ⟨ns, hns⟩ := hc
  cases h with
  | none => exact ⟨[], rfl⟩
  | some a => exact ⟨a :: ns, ns, hns, rfl⟩

theorem exists_narrows (hJ : J.Total) (c : Context) (plan : StepPlan) (os : List Node) :
    ∃ reached, List.Forall₂ (fun o rs =>
      J.Narrows c plan.predicates (o.step plan.axis plan.test) rs) os reached := by
  induction os with
  | nil => exact ⟨[], .nil⟩
  | cons o os ih =>
    obtain ⟨rs, hrs⟩ := hJ.narrows c plan.predicates (o.step plan.axis plan.test)
    obtain ⟨reached, hreached⟩ := ih
    exact ⟨rs :: reached, .cons hrs hreached⟩

/-- Where every evaluation has an answer, every cursor has nodes to deliver, if only none. -/
theorem exists_yields (hJ : J.Total) (c : Cursor) : ∃ ns, c.Yields J ns := by
  induction c with
  | listed f size rest => exact ⟨rest, rfl⟩
  | lookahead base buffer delivered exhausted ih =>
    obtain ⟨ms, hms⟩ := ih
    cases exhausted with
    | true => exact ⟨buffer, rfl⟩
    | false => exact ⟨buffer ++ ms, ms, hms, rfl⟩
  | filter base s last position finished ih =>
    obtain ⟨ms, hms⟩ := ih
    obtain ⟨ns, hns⟩ := hJ.picks s.predicate s.context (position + ms.length) position ms
    cases finished with
    | true => exact ⟨[], rfl⟩
    | false => exact ⟨ns, ms, hms, hns⟩
  | merge op left lh right rh ihl ihr =>
    obtain ⟨ls, hls⟩ := exists_heads (h := lh) ihl
    obtain ⟨rs, hrs⟩ := exists_heads (h := rh) ihr
    exact ⟨_, ls, rs, hls, hrs, rfl⟩
  | distinct base key seen ih =>
    obtain ⟨ms, hms⟩ := ih
    obtain ⟨ns, hns⟩ := Firsts.total (hJ.textBy key) seen ms
    exact ⟨ns, ms, hms, hns⟩
  | steps start plan context current sorted ihs ihc =>
    obtain ⟨ms, hms⟩ := ihc
    obtain ⟨os, hos⟩ := ihs
    obtain ⟨reached, hreached⟩ := exists_narrows hJ context.ambient plan os
    exact ⟨_, ms, os, reached, hms, hos, hreached, rfl⟩

theorem IsSingle.length_le {c : Cursor} {ns : List Node} (h : c.IsSingle) (hy : c.Yields J ns) :
    ns.length ≤ 1 := by
  cases c with
  | listed f size rest => exact hy ▸ h
  | lookahead | filter | merge | distinct | steps => exact h.elim

/-- The list of one side of a merge is in order, within reach, and made of nodes of the
documents. -/
theorem heads_arranged {c : Cursor} {h : Option Node} {ns : List Node} (ho : c.Ordered F)
    (hs : c.flags.sorted = true) (hh : ∀ a ∈ h, F.Holds a ∧ ∀ n, c.reach n → a.Before n)
    (ih : ∀ {ms}, c.Yields J ms → (∀ n ∈ ms, c.reach n) ∧ ms.Pairwise c.flags.Arranges)
    (hy : Heads h (c.Yields J) ns) :
    F.HoldsAll ns ∧ InOrder ns ∧ ∀ n ∈ ns, ∃ a ∈ h, n = a ∨ c.reach n := by
  cases h with
  | none =>
    obtain rfl : ns = [] := hy
    exact ⟨by simp, .nil, by simp⟩
  | some a =>
    obtain ⟨ms, hms, rfl⟩ := hy
    obtain ⟨hreach, hpair⟩ := ih hms
    obtain ⟨ha, hbefore⟩ := hh a rfl
    refine ⟨?_, ?_, ?_⟩
    · exact Forest.holdsAll_cons.mpr ⟨ha, fun n hn => ho.holds (hreach n hn)⟩
    · refine List.pairwise_cons.mpr ⟨fun n hn => ?_, hpair.imp fun hab => hab.sorted hs⟩
      exact (Node.before_iff.mp (hbefore n (hreach n hn))).2
    · intro n hn
      exact ⟨a, rfl, (List.mem_cons.mp hn).imp id (hreach n)⟩

/-- What steps deliver origin by origin is arranged as their flags say. -/
theorem reached_arranged {start : Cursor} {plan : StepPlan} {c : Context} {f : Flags}
    {os : List Node} {reached : List (List Node)}
    (hos : F.HoldsAll os) (hpair : os.Pairwise start.flags.Arranges)
    (hsingle : start.IsSingle → os.length ≤ 1)
    (h : List.Forall₂ (fun o rs =>
      J.Narrows c plan.predicates (o.step plan.axis plan.test) rs) os reached)
    (hf : f.reverse = false) (hfs : f.sorted = true → StaysOrdered start plan.axis)
    (hfp : f.peer = true → f.sorted = true ∧ plan.axis.isPeer = true) :
    (∀ n ∈ reached.flatten, ∃ o ∈ os, n ∈ o.along plan.axis) ∧
      reached.flatten.Pairwise f.Arranges := by
  induction h with
  | nil => simp
  | @cons o rs os reached hn _ ih =>
    rw [Forest.holdsAll_cons] at hos
    rw [List.pairwise_cons] at hpair
    have hsub : rs.Sublist (o.along plan.axis) := hn.sublist.trans List.filter_sublist
    obtain ⟨hmem, hrest⟩ := ih hos.2 hpair.2 fun h1 =>
      (Nat.le_succ _).trans (show os.length + 1 ≤ 1 from hsingle h1)
    refine ⟨?_, ?_⟩
    · intro n hn
      rcases List.mem_append.mp hn with hn | hn
      · exact ⟨o, List.mem_cons_self, hsub.subset hn⟩
      · obtain ⟨o', ho', hn⟩ := hmem n hn
        exact ⟨o', List.mem_cons_of_mem _ ho', hn⟩
    · refine List.pairwise_append.mpr ⟨?_, hrest, ?_⟩
      · refine ((along_relates o plan.axis).sublist hsub).imp fun hab => ?_
        exact hab.arranges.mono ⟨fun hs => (hfs hs).forward, by simp [hf], fun hp => (hfp hp).2⟩
      · intro x hx y hy
        obtain ⟨o', ho', hy⟩ := hmem y hy
        have hrel := hpair.1 o' ho'
        have hkeep : f.sorted = true → x.order y = .lt ∧ x.Separate y := by
          intro hs
          -- Two origins in a row are no single one, so they are peers with subtrees apart.
          have hlen : ¬ start.IsSingle := fun h1 => by
            have := List.length_pos_of_mem ho'
            have : os.length + 1 ≤ 1 := hsingle h1
            omega
          obtain ⟨hsorted, hpeer, hsubtree⟩ := (hfs hs).origins.resolve_left hlen
          have hord := hrel.sorted hsorted
          have hsep := hrel.peer hpeer
          have hx := Node.within_of_mem_along hsubtree (hsub.subset hx)
          have hy := Node.within_of_mem_along hsubtree hy
          have hne : o ≠ o' := by
            rintro rfl
            simp at hord
          exact ⟨Forest.order_of_within hos.1 (hos.2 o' ho') hord hsep.1 hx hy,
            Node.separate_of_within hne hsep hx hy⟩
        exact ⟨fun hs => (hkeep hs).1, by simp [hf], fun hp => (hkeep (hfp hp).1).2⟩

/-- The nodes that an ordered cursor yields are within its reach, and as its flags say. -/
theorem Yields.arranged {c : Cursor} {ns : List Node} (hy : c.Yields J ns) (ho : c.Ordered F) :
    (∀ n ∈ ns, c.reach n) ∧ ns.Pairwise c.flags.Arranges := by
  induction c generalizing ns with
  | listed f size rest =>
    obtain rfl : ns = rest := hy
    exact ⟨fun _ hn => hn, ho.2.imp fun hab => hab.arranges⟩
  | lookahead base buffer delivered exhausted ih =>
    obtain ⟨hbase, hbuf, hpair, hcross⟩ := ho
    cases exhausted with
    | true =>
      obtain rfl : ns = buffer := hy
      exact ⟨fun _ hn => .inl hn, hpair.imp fun hab => hab.arranges⟩
    | false =>
      obtain ⟨ms, hms, rfl⟩ := hy
      obtain ⟨hreach, harr⟩ := ih hms hbase
      refine ⟨fun n hn => (List.mem_append.mp hn).imp id (hreach n), ?_⟩
      exact List.pairwise_append.mpr ⟨hpair.imp fun hab => hab.arranges, harr,
        fun a ha b hb => (hcross a ha b (hreach b hb)).arranges⟩
  | filter base s last position finished ih =>
    cases finished with
    | true =>
      obtain rfl : ns = [] := hy
      exact ⟨by simp, .nil⟩
    | false =>
      obtain ⟨ms, hms, hp⟩ := hy
      obtain ⟨hreach, harr⟩ := ih hms ho
      exact ⟨fun n hn => hreach n (hp.sublist.subset hn), harr.sublist hp.sublist⟩
  | merge op left lh right rh ihl ihr =>
    obtain ⟨ls, rs, hls, hrs, rfl⟩ := hy
    obtain ⟨hlh, hlo, hlr⟩ := heads_arranged ho.1.1 ho.1.2.1 ho.1.2.2 (ihl · ho.1.1) hls
    obtain ⟨hrh, -, hrr⟩ := heads_arranged ho.2.1 ho.2.2.1 ho.2.2.2 (ihr · ho.2.1) hrs
    refine ⟨fun n hn => ?_, (op.combine_inOrder hlo).imp fun hab => ⟨fun _ => hab, nofun, nofun⟩⟩
    exact (op.mem_or_of_mem_combine hlh hrh hn).imp (hlr n) (hrr n)
  | distinct base key seen ih =>
    obtain ⟨ms, hms, hf⟩ := hy
    obtain ⟨hreach, harr⟩ := ih hms ho.1
    refine ⟨fun n hn => hreach n (hf.sublist.subset hn), ?_⟩
    exact (harr.sublist hf.sublist).imp fun hab => ⟨fun _ => hab.sorted ho.2, nofun, nofun⟩
  | steps start plan context current sorted ihs ihc =>
    obtain ⟨ms, os, reached, hms, hos, hreached, rfl⟩ := hy
    obtain ⟨hstart, hcurrent, hkeep⟩ := ho
    obtain ⟨hcr, hca⟩ := ihc hms hcurrent
    obtain ⟨hor, hoa⟩ := ihs hos hstart
    obtain ⟨hmem, harr⟩ := reached_arranged
      (f := flags (.steps start plan context current sorted))
      (fun o ho => hstart.holds (hor o ho)) hoa (fun h => h.length_le hos) hreached rfl
      (fun hs => (hkeep hs).1) (fun hp => by
        have hp : ((sorted && plan.axis.isPeer) && plan.axis != .namespaces) = true := hp
        rw [Bool.and_eq_true, Bool.and_eq_true] at hp
        exact hp.1)
    refine ⟨fun n hn => ?_, List.pairwise_append.mpr ⟨?_, harr, fun x hx y hy => ?_⟩⟩
    · rcases List.mem_append.mp hn with hn | hn
      · exact .inl (hcr n hn)
      · obtain ⟨o, ho, hn⟩ := hmem n hn
        exact .inr ⟨o, hor o ho, hn⟩
    · cases sorted with
      | false => exact List.pairwise_of_forall fun _ _ => ⟨nofun, nofun, nofun⟩
      | true => exact hca.imp fun hab => hab.mono (hkeep rfl).2.1
    · cases sorted with
      | false => exact ⟨nofun, nofun, nofun⟩
      | true =>
        obtain ⟨o, ho, hy⟩ := hmem y hy
        exact ((hkeep rfl).2.2 o (hor o ho) x (hcr x hx) y hy).arranges

/-- What a sorted cursor yields is in document order. -/
theorem Yields.inOrder {c : Cursor} {ns : List Node} (hy : c.Yields J ns) (ho : c.Ordered F)
    (hs : c.flags.sorted = true) : InOrder ns :=
  (hy.arranged ho).2.imp fun hab => hab.sorted hs

theorem Yields.holds {c : Cursor} {ns : List Node} (hy : c.Yields J ns) (ho : c.Ordered F) :
    F.HoldsAll ns :=
  fun n hn => ho.holds ((hy.arranged ho).1 n hn)

end Cursor

end PathLanguage
