/- Every enumeration that evaluation can produce keeps what it says of its order. -/
import PathLanguage.Proofs.Safety.Evaluation

namespace PathLanguage

/-- The enumerations of a run: those of expressions and node-set values in any sound session, those
of axes and extents, and what filters, set operations and reading make of them, nested in any
way. -/
inductive Setting.Enumerates (S : Setting) : Session → Cursor → Prop
  | expression {s t : Session} {depth : Nat} {e : Expr} {c : Context} {sort : Bool} {r : Cursor} :
      S.Sound s → e.Fits S.forest s → c.Fits S.forest s →
      ((engine S.transformation depth).cursor e c sort).attempt.run s = (.ok r, t) →
      Enumerates S t r
  | nodeSet {s t : Session} {depth : Nat} {ns : NodeSet} {a : Action Cursor} {r : Cursor} :
      S.Sound s → ns.Fits S.forest s →
      (a = ns.scan S.transformation (engine S.transformation depth) ∨
        a = ns.enumerate S.transformation (engine S.transformation depth) ∨
        ∃ sort, a = ns.enumerateSorted S.transformation (engine S.transformation depth) sort) →
      a.attempt.run s = (.ok r, t) → Enumerates S t r
  | axis {s : Session} {o : Node} (along : Axis) (test : NodeTest) :
      S.Sound s → S.forest.Holds o → Enumerates S s (.onAxis o along test)
  | extent {s : Session} {e : Extent} : S.Sound s → e.Fits S.forest →
      Enumerates S s (.ofExtent e)
  | option {s : Session} {n : Option Node} : S.Sound s → (∀ m ∈ n, S.forest.Holds m) →
      Enumerates S s (.ofOption n)
  | filter {s : Session} {base : Cursor} {p : Expr} {c : Context} (stopsAtReject : Bool) :
      Enumerates S s base → p.Fits S.forest s → c.Fits S.forest s →
      Enumerates S s (base.select p c stopsAtReject)
  | lookahead {s : Session} {base : Cursor} : Enumerates S s base →
      Enumerates S s base.lookingAhead
  | set {s t : Session} {depth : Nat} {op : SetOperator} {left right r : Cursor} :
      Enumerates S s left → Enumerates S s right →
      (Cursor.startMerge (engine S.transformation depth) op left right).attempt.run s =
        (.ok r, t) → Enumerates S t r
  | distinct {s t : Session} {depth : Nat} {base : Cursor} {key : Option Expr} {c : Context}
      {r : Cursor} : Enumerates S s base → (∀ k ∈ key, k.Fits S.forest s) → c.Fits S.forest s →
      (Cursor.startDistinct (engine S.transformation depth) base key c).attempt.run s =
        (.ok r, t) → Enumerates S t r
  | read {s : Session} {depth : Nat} {c : Cursor} : Enumerates S s c →
      Enumerates S (((engine S.transformation depth).next c).run s).2
        (((engine S.transformation depth).next c).run s).1.rest
  | later {s t : Session} {c : Cursor} : Enumerates S s c → S.Sound t → s.LeadsTo t →
      Enumerates S t c

namespace Setting

variable {S : Setting} {s t : Session}

theorem Enumerates.sound {r : Cursor} (h : S.Enumerates s r) (hS : S.Safe) :
    S.Sound s ∧ r.Sound S s := by
  induction h with
  | @expression s t depth e c sort r hs he hc hr =>
    obtain ⟨ht, -, hp⟩ := ((engine_safe hS depth).cursor he hc).ok hs hr
    exact ⟨ht, hp.1⟩
  | @nodeSet s t depth ns a r hs hns ha hr =>
    have hE := engine_safe hS depth
    rcases ha with rfl | rfl | ⟨sort, rfl⟩
    · obtain ⟨ht, -, hp⟩ := (NodeSet.scan_safe hS hE hns).ok hs hr
      exact ⟨ht, hp⟩
    · obtain ⟨ht, -, hp⟩ := (NodeSet.enumerate_safe hS hE hns).ok hs hr
      exact ⟨ht, hp⟩
    · obtain ⟨ht, -, hp⟩ := (NodeSet.enumerateSorted_safe hS hE hns sort).ok hs hr
      exact ⟨ht, hp.1⟩
  | axis along test hs ho => exact ⟨hs, Cursor.onAxis_ordered ho along test, trivial⟩
  | extent hs he => exact ⟨hs, Cursor.sound_ofExtent he⟩
  | option hs hn => exact ⟨hs, Cursor.sound_ofOption hn⟩
  | filter stop _ hp hc ih => exact ⟨ih.1, ih.2.select hp hc stop⟩
  | lookahead _ ih => exact ⟨ih.1, ⟨ih.2.ordered, by simp, .nil, by simp⟩, ih.2.fits⟩
  | @set s t depth op left right r _ _ hr ihl ihr =>
    have hE := engine_safe hS depth
    obtain ⟨ht, -, hp⟩ := (Cursor.startMerge_safe hE op ihl.2 ihr.2).ok ihl.1 hr
    exact ⟨ht, hp.1⟩
  | @distinct s t depth base key c r _ hk hc hr ih =>
    have hE := engine_safe hS depth
    obtain ⟨ht, -, hp⟩ := (Cursor.startDistinct_safe hE ih.2 hk hc).ok ih.1 hr
    exact ⟨ht, hp.1⟩
  | @read s depth c _ ih =>
    obtain ⟨ht, -, -, hp⟩ := (engine_safe hS depth).read ih.2 ih.1
    exact ⟨ht, hp⟩
  | later _ ht hst ih => exact ⟨ht, ih.2.mono hst.toKeeps⟩

/-- The flags of every enumeration hold of the nodes it delivers, however and however far it is
read, and an enumeration in document order is always sorted. -/
theorem flags_hold (hS : S.Safe) :
    (∀ s r ns, S.Enumerates s r → r.Delivers S.transformation ns →
      (r.flags.sorted = true → ns.Pairwise Node.Before) ∧
      (r.flags.reverse = true → ns.Pairwise fun a b => b.Before a) ∧
      (r.flags.peer = true → ns.Pairwise fun a b => a ∉ b.ancestors ∧ b ∉ a.ancestors)) ∧
    (∀ s t depth e c r, S.Sound s → e.Fits S.forest s → c.Fits S.forest s →
      ((engine S.transformation depth).cursor e c true).attempt.run s = (.ok r, t) →
      r.flags.sorted = true) := by
  refine ⟨fun s r ns hr hd => ?_, fun s t depth e c r hs he hc hr => ?_⟩
  · have hp := (hd.relates (hr.sound hS).2.ordered).2
    exact ⟨fun h => hp.imp fun hab => hab.sorted h, fun h => hp.imp fun hab => hab.reverse h,
      fun h => hp.imp fun hab => hab.peer h⟩
  · obtain ⟨-, -, hp⟩ := ((engine_safe hS depth).cursor he hc).ok hs hr
    exact hp.2.1 (.inl rfl)

/-- The grandchildren of a root, read from a path one after the other. -/
theorem flags_hold_of_pair : ∃ r a b,
    ((engine .bare 3).cursor (.path (.axis .child .any none) .child .any [])
      (.onNode (some (.root .pair))) true).attempt.run {} = (.ok r, {}) ∧
    r.Delivers .bare [a, b] ∧ [a, b].Pairwise Node.Before := by
  have hread : ∃ r a b, ((engine .bare 3).cursor (.path (.axis .child .any none) .child .any [])
      (.onNode (some (.root .pair))) true).attempt.run {} = (.ok r, {}) ∧
      r.Delivers .bare [a, b] :=
    ⟨_, _, _, rfl, @Cursor.Delivers.deliver _ _ 5 {} _ _ rfl
      (@Cursor.Delivers.deliver _ _ 5 {} _ _ rfl (.stop _))⟩
  obtain ⟨r, a, b, hr, hd⟩ := hread
  have hroot : (Forest.single .pair).Holds (.root .pair) := by
    exact ⟨List.mem_singleton.mpr rfl, .root .pair⟩
  have hc : (Context.onNode (some (.root .pair))).Fits (Forest.single .pair) {} :=
    ⟨by rintro n ⟨⟩; exact hroot, by rintro n ⟨⟩; exact hroot, by simp [Context.onNode]⟩
  have he : (Expr.path (.axis .child .any none) .child .any []).Fits (Forest.single .pair) {} := by
    simp [Expr.Fits, Expr.leaves, leavesOfAll]
  obtain ⟨hflags, hsorted⟩ := flags_hold (bare_safe .pair)
  have hs := hsorted {} {} 3 _ _ r (bare_sound .pair) he hc hr
  exact ⟨r, a, b, hr, hd, (hflags {} r _ (.expression (bare_sound .pair) he hc hr) hd).1 hs⟩

end Setting

end PathLanguage
