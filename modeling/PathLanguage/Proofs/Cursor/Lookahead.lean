/- Cursors that tell their size: however requests for nodes and for the size are interleaved, the
size is that of the whole and no node is lost, also where the base of a lookahead fails. -/
import PathLanguage.Proofs.Cursor.Replies
import PathLanguage.Proofs.Cursor.Size

namespace PathLanguage.Cursor

variable {T : Transformation} {s t u : Session} {base c p : Cursor} {n : Node}
  {w ns : List Node} {taken delivered most k : Nat} {exhausted : Bool} {rs plain : List Reply}

/-- A cursor that holds no node back. -/
def Unread : Cursor → Prop
  | .listed .. => True
  | .lookahead _ buffer _ _ => buffer = []
  | _ => False

/-- Some nodes, a cursor that has read ahead and holds them back, and the cursor that it is when
they are delivered. -/
inductive Ahead : List Node → Cursor → Cursor → Prop
  | listed (f : Flags) (size : Option Nat) (rest : List Node) :
      Ahead [] (.listed f size rest) (.listed f size rest)
  | lookahead (base : Cursor) (buffer : List Node) (delivered : Nat) (exhausted : Bool) :
      Ahead buffer (.lookahead base buffer delivered exhausted)
        (.lookahead base [] (delivered + buffer.length) exhausted)

theorem Ahead.eq (h : Ahead [] c p) : c = p := by
  cases h <;> rfl

theorem Ahead.unread (h : Ahead w c p) : Unread p := by
  cases h with
  | listed => trivial
  | lookahead => rfl

theorem Unread.ahead (h : Unread c) : Ahead [] c c := by
  cases c with
  | listed f size rest => exact .listed f size rest
  | lookahead base buffer delivered exhausted =>
    obtain rfl : buffer = [] := h
    exact .lookahead base [] delivered exhausted
  | filter | merge | distinct | steps => exact h.elim

/-- A cursor that has come to its end stays there. -/
def Ended (c : Cursor) : Prop := ∀ E, next E c = pure ⟨.ok none, c⟩

theorem comes_next {q : Pull (Option Node)} (h : ∀ E, next E c = pure q) :
    Comes T (fun E => E.next c) s q s :=
  Comes.next ⟨0, fun k _ => congrArg (StateT.run · s) (h (engine T k))⟩

theorem Ended.reads (h : Ended c) (hr : Reading T c s k rs p t) : nodesOf rs = [] ∧ p = c := by
  induction k generalizing rs s with
  | zero =>
    cases hr
    exact ⟨rfl, rfl⟩
  | succ k ih =>
    cases hr with
    | next hp hr =>
      obtain ⟨rfl, rfl⟩ := (comes_next h).unique hp
      have hrest := ih hr
      exact hrest

/-- What a lookahead that holds nothing back makes of what is read from its base. -/
def handOn (delivered : Nat) (p : Pull (Option Node)) : Pull (Option Node) :=
  ⟨p.outcome, .lookahead p.rest [] (delivered + (nodesOf [.node p.outcome]).length)
    (match p.outcome with | .ok none => true | _ => false)⟩

theorem next_unread_run (E : Engine) (base : Cursor) (delivered : Nat) (s : Session) :
    (next E (.lookahead base [] delivered false)).run s =
      (handOn delivered ((E.next base).run s).1, ((E.next base).run s).2) := by
  simp only [next, nextAhead, Bool.false_eq_true, if_false, StateT.run_bind]
  generalize (E.next base).run s = q
  obtain ⟨⟨o, r⟩, t⟩ := q
  rcases o with f | _ | m <;> rfl

theorem handOn_injective {p q : Pull (Option Node)} (h : handOn delivered p = handOn delivered q) :
    p = q := by
  obtain ⟨o, r⟩ := p
  obtain ⟨o', r'⟩ := q
  simp only [handOn, Pull.mk.injEq, lookahead.injEq] at h
  rw [h.1, h.2.1]

/-- A lookahead that holds nothing back is read by reading its base. -/
theorem comes_unread {q : Pull (Option Node)}
    (h : Comes T (fun E => E.next (.lookahead base [] delivered false)) s q t) :
    ∃ p, Comes T (fun E => E.next base) s p t ∧ q = handOn delivered p := by
  obtain ⟨d, hd⟩ := h.ofNext
  have hrun (k : Nat) (hk : d ≤ k) :
      handOn delivered (((engine T k).next base).run s).1 = q ∧
        (((engine T k).next base).run s).2 = t := by
    rw [← Prod.mk.injEq, ← next_unread_run]
    exact hd k hk
  have hfirst := (hrun d (Nat.le_refl d)).1
  refine ⟨(((engine T d).next base).run s).1, ⟨d, fun k hk => Prod.ext ?_ (hrun k hk).2⟩,
    hfirst.symm⟩
  exact handOn_injective ((hrun k hk).1.trans hfirst.symm)

/-- What reading makes of a cursor that holds nothing back and knows how many nodes were taken. -/
structure Stepped (taken : Nat) (c : Cursor) (q : Pull (Option Node)) : Prop where
  unread : Unread q.rest
  ended : q.outcome = .ok none → Ended q.rest
  counts : c.counts = true → q.rest.counts = true
  tells : c.Tells taken → q.rest.Tells (taken + (nodesOf [.node q.outcome]).length)

theorem Unread.next {q : Pull (Option Node)} (h : Unread c)
    (hq : Comes T (fun E => E.next c) s q t) (taken : Nat) : Stepped taken c q := by
  cases c with
  | listed f size rest =>
    cases rest with
    | nil =>
      obtain ⟨rfl, rfl⟩ := (comes_next (c := .listed f size []) fun _ => rfl).unique hq
      exact ⟨trivial, fun _ _ => rfl, id, id⟩
    | cons n rest =>
      obtain ⟨rfl, rfl⟩ := (comes_next (c := .listed f size (n :: rest)) fun _ => rfl).unique hq
      refine ⟨trivial, nofun, id, fun ht k hk => ?_⟩
      rw [ht k hk, List.length_cons]
      show taken + (rest.length + 1) = taken + 1 + rest.length
      omega
  | lookahead base buffer delivered exhausted =>
    obtain rfl : buffer = [] := h
    cases exhausted with
    | true =>
      obtain ⟨rfl, rfl⟩ :=
        (comes_next (c := .lookahead base [] delivered true) fun _ => rfl).unique hq
      exact ⟨rfl, fun _ _ => rfl, id, id⟩
    | false =>
      obtain ⟨p, -, rfl⟩ := comes_unread hq
      refine ⟨rfl, fun ho => ?_, id, fun ht => ?_⟩
      · obtain ⟨o, r⟩ := p
        obtain rfl : o = .ok none := ho
        exact fun _ => rfl
      · obtain rfl : delivered = taken := ht
        rfl
  | filter | merge | distinct | steps => exact h.elim

theorem Ended.readsMore (h : Ended c) (T : Transformation) (s : Session) (k : Nat) :
    Reading T c s k (List.replicate k .ended) c s := by
  induction k with
  | zero => exact .done c s
  | succ k ih => exact .next (comes_next h) ih

theorem Unread.reads (h : Unread c) (hr : Reading T c s k rs p t) :
    Unread p ∧ (.ended ∈ rs → Ended p) := by
  induction k generalizing c s rs with
  | zero =>
    cases hr
    exact ⟨h, nofun⟩
  | succ k ih =>
    cases hr with
    | @next _ _ _ _ _ q _ rs hq hr =>
      have hread := h.next hq 0
      obtain ⟨hu, he⟩ := ih hread.unread hr
      refine ⟨hu, fun hmem => ?_⟩
      rcases List.mem_cons.mp hmem with ho | hmem
      · have hend := hread.ended (Reply.node.inj ho).symm
        exact (hend.reads hr).2 ▸ hend
      · exact he hmem

/-- A cursor that can be read to its end has replies ever after. -/
theorem Reading.yielding (hr : Reading T c s k rs p t) (h : Ended p) :
    Yielding T (nodesOf rs).length c s := by
  intro j
  rcases Nat.le_total j k with hjk | hkj
  · obtain ⟨i, rfl⟩ := Nat.exists_eq_add_of_le hjk
    obtain ⟨as, bs, c', u, rfl, ha, -⟩ := hr.split
    exact ⟨as, c', u, ha, by simp⟩
  · obtain ⟨i, rfl⟩ := Nat.exists_eq_add_of_le hkj
    have hmore := h.readsMore T t i
    refine ⟨_, _, _, hr.append hmore, ?_⟩
    rw [nodesOf_append, (h.reads hmore).1, List.append_nil]

theorem reads_listed (T : Transformation) (f : Flags) (size : Option Nat) (ns : List Node)
    (s : Session) :
    Reading T (.listed f size ns) s ns.length (deliveries ns) (.listed f size []) s := by
  induction ns with
  | nil => exact .done _ s
  | cons n ns ih =>
    exact .next (p := ⟨.ok (some n), .listed f size ns⟩) (comes_next fun _ => rfl) ih

theorem readsOut_listed (T : Transformation) (f : Flags) (size : Option Nat) (ns : List Node)
    (s : Session) : ReadsOut T (.listed f size ns) s ns := by
  have hend := comes_next (T := T) (s := s) (c := .listed f size []) fun _ => rfl
  refine ⟨_, _, _, _, (reads_listed T f size ns s).append (.once hend), ?_, ?_⟩
  · exact List.mem_append_right _ (List.mem_singleton.mpr rfl)
  · rw [nodesOf_append, nodesOf_deliveries]
    exact (List.append_nil ns).symm

/-- A lookahead has replies as long as its base has. -/
theorem Yielding.lookahead (h : Yielding T most base s) (delivered : Nat) :
    Yielding T most (.lookahead base [] delivered false) s := by
  intro k
  induction k generalizing base s delivered most with
  | zero => exact ⟨[], _, s, .done _ s, Nat.zero_le _⟩
  | succ k ih =>
    obtain ⟨q, t, hq⟩ := h.next
    obtain ⟨more, hmore, hrest⟩ := h.rest (.once hq)
    have hfirst : Comes T (fun E => E.next (.lookahead base [] delivered false)) s
        (handOn delivered q) t := by
      obtain ⟨d, hd⟩ := hq
      exact .next ⟨d, fun k hk => by rw [next_unread_run, hd k hk]⟩
    have hthen : ∃ rs r u, Reading T (handOn delivered q).rest t k rs r u ∧
        (nodesOf rs).length ≤ more := by
      obtain ⟨_ | _ | n, r⟩ := q
      · exact ih hrest _
      · refine ⟨_, _, _, Ended.readsMore (fun _ => rfl) T t k, ?_⟩
        simp [nodesOf_ended]
      · exact ih hrest _
    obtain ⟨rs, r, u, hr, hl⟩ := hthen
    refine ⟨_, r, u, .next hfirst hr, ?_⟩
    rw [← List.singleton_append, nodesOf_append, List.length_append, ← hmore]
    exact Nat.add_le_add_left hl _

/-- A conversation with a cursor that holds nodes back, against reading the cursor that it is when
they are delivered: `taken` nodes came before, `w` are held back then and `w'` in the end. -/
structure Accounts (T : Transformation) (taken : Nat) (w : List Node) (p : Cursor) (s : Session)
    (rs plain : List Reply) (w' : List Node) (p' : Cursor) (t : Session) : Prop where
  reads : ∃ k, Reading T p s k plain p' t
  nodes : w ++ nodesOf plain = nodesOf rs ++ w'
  faults : faultsOf plain = faultsOf rs
  ended : .ended ∈ rs → .ended ∈ plain ∧ w' = []
  totals : ∀ o, .total o ∈ rs → (∃ f, o = .error f) ∨
    ∃ ns, ReadsOut T p s ns ∧ o = .ok (some (taken + w.length + ns.length))

namespace Accounts

variable {w₁ w₂ : List Node} {p' p₁ p₂ : Cursor} {rs₁ rs₂ plain₁ plain₂ : List Reply}

/-- Nothing is asked. -/
theorem refl (T : Transformation) (taken : Nat) (w : List Node) (p : Cursor) (s : Session) :
    Accounts T taken w p s [] [] w p s :=
  ⟨⟨0, .done _ _⟩, by simp [nodesOf], rfl, nofun, nofun⟩

/-- The size is asked for, and whatever is read for it is held back already. -/
theorem total {o : Except Fault (Option Nat)} (hr : Reading T p s k plain p' t)
    (hn : nodesOf plain = []) (hf : faultsOf plain = faultsOf [.total o])
    (ho : (∃ f, o = .error f) ∨
      ∃ ns, ReadsOut T p s ns ∧ o = .ok (some (taken + w.length + ns.length))) :
    Accounts T taken w p s [.total o] plain w p' t where
  reads := ⟨k, hr⟩
  nodes := by rw [hn]; exact List.append_nil w
  faults := hf
  ended h := by simp [Reply.ended] at h
  totals o' h := by rwa [Reply.total.inj (List.mem_singleton.mp h)]

/-- One conversation after the other. -/
theorem trans (hp : Unread p) (h : Accounts T taken w p s rs₁ plain₁ w₁ p₁ t)
    (h' : Accounts T (taken + (nodesOf rs₁).length) w₁ p₁ t rs₂ plain₂ w₂ p₂ u) :
    Accounts T taken w p s (rs₁ ++ rs₂) (plain₁ ++ plain₂) w₂ p₂ u := by
  obtain ⟨j, hj⟩ := h.reads
  obtain ⟨k, hk⟩ := h'.reads
  refine ⟨⟨j + k, hj.append hk⟩, ?_, ?_, fun hmem => ?_, fun o ho => ?_⟩
  · rw [nodesOf_append, nodesOf_append, ← List.append_assoc, h.nodes, List.append_assoc, h'.nodes,
      List.append_assoc]
  · rw [faultsOf_append, faultsOf_append, h.faults, h'.faults]
  · rcases List.mem_append.mp hmem with hmem | hmem
    · obtain ⟨hplain, rfl⟩ := h.ended hmem
      refine ⟨List.mem_append_left _ hplain, ?_⟩
      -- Nothing comes after the end, so nothing can be held back there.
      have hn := h'.nodes
      rw [(((hp.reads hj).2 hplain).reads hk).1] at hn
      exact (List.append_eq_nil_iff.mp hn.symm).2
    · exact ⟨List.mem_append_right _ (h'.ended hmem).1, (h'.ended hmem).2⟩
  · rcases List.mem_append.mp ho with ho | ho
    · exact h.totals o ho
    · refine (h'.totals o ho).imp_right ?_
      rintro ⟨_, ⟨i, rs, r, v, hi, hend, rfl⟩, rfl⟩
      refine ⟨nodesOf plain₁ ++ nodesOf rs,
        ⟨j + i, _, _, _, hj.append hi, List.mem_append_right _ hend, by simp⟩, ?_⟩
      have hlen := congrArg List.length h.nodes
      simp only [List.length_append] at hlen ⊢
      congr 2
      omega

end Accounts

/-- For its size a lookahead reads its base until that ends or fails, and holds back what comes. -/
theorem comes_size (hy : Yielding T most (.lookahead base [] (delivered + w.length) false) s) :
    ∃ q plain w' p' t, Comes T (fun E => E.size (.lookahead base w delivered false)) s q t ∧
      Ahead w' q.rest p' ∧ q.rest.counts = true ∧ q.rest.Tells delivered ∧
      Accounts T delivered w (.lookahead base [] (delivered + w.length) false) s
        [.total q.outcome] plain w' p' t := by
  induction most using Nat.strong_induction_on generalizing base w s with
  | _ most ih =>
  obtain ⟨_, t, hq⟩ := hy.next
  obtain ⟨⟨o, r⟩, hr, rfl⟩ := comes_unread hq
  have honce := Reading.once hq
  rcases o with f | _ | n
  · exact ⟨⟨.error f, .lookahead r w delivered false⟩, _, w, _, t,
      Comes.size (Comes.bind hr .pure), .lookahead r w delivered false, rfl, rfl,
      .total honce rfl rfl (.inl ⟨f, rfl⟩)⟩
  · exact ⟨⟨.ok (some (delivered + w.length)), .lookahead r w delivered true⟩, _, w, _, t,
      Comes.size (Comes.bind hr .pure), .lookahead r w delivered true, rfl, rfl,
      .total honce rfl rfl (.inr ⟨[], ⟨1, _, _, _, honce, List.mem_singleton.mpr rfl, rfl⟩, rfl⟩)⟩
  · obtain ⟨more, hmore, hrest⟩ := hy.rest honce
    have hone : (nodesOf [.node (.ok (some n))]).length = 1 := rfl
    have hlt : more < most := by
      rw [← hmore]
      exact Nat.lt_add_of_pos_left (hone ▸ Nat.one_pos)
    have hlen : delivered + (w ++ [n]).length = delivered + w.length + 1 := by simp [Nat.add_assoc]
    have hstep : Accounts T delivered w (.lookahead base [] (delivered + w.length) false) s
        [] [.node (.ok (some n))] (w ++ [n])
        (.lookahead r [] (delivered + (w ++ [n]).length) false) t := by
      refine ⟨⟨1, ?_⟩, rfl, rfl, nofun, nofun⟩
      rw [hlen]
      exact honce
    obtain ⟨q, plain, w', p', v, hsize, ha, hc, ht, hacc⟩ := ih more hlt (by rw [hlen]; exact hrest)
    exact ⟨q, _, w', p', v, Comes.size (Comes.bind hr hsize), ha, hc, ht,
      Accounts.trans (show Unread (.lookahead ..) from rfl) hstep hacc⟩

/-- What is held back is delivered by the cursor alone, whatever the session. -/
theorem Ahead.heldBack (h : Ahead (n :: w) c p) (T : Transformation) (s : Session) (taken : Nat) :
    ∃ c', Comes T (fun E => E.next c) s ⟨.ok (some n), c'⟩ s ∧ Ahead w c' p ∧ c'.counts = true ∧
      (c.Tells taken → c'.Tells (taken + 1)) := by
  cases h with
  | lookahead base _ delivered exhausted =>
    refine ⟨.lookahead base w (delivered + 1) exhausted, comes_next fun _ => rfl, ?_, rfl,
      congrArg (· + 1)⟩
    have hlen : delivered + (n :: w).length = delivered + 1 + w.length := by
      rw [List.length_cons]
      omega
    exact hlen ▸ .lookahead base w (delivered + 1) exhausted

/-- One request is answered, and reading accounts for the reply. -/
theorem Ahead.reply (h : Ahead w c p) (hc : c.counts = true) (ht : c.Tells taken)
    (hy : Yielding T most p s) (q : Query) : ∃ rs plain c' w' p' t, Replies T c s [q] rs c' t ∧
      Ahead w' c' p' ∧ c'.counts = true ∧ c'.Tells (taken + (nodesOf rs).length) ∧
      Accounts T taken w p s rs plain w' p' t := by
  cases q with
  | next =>
    cases w with
    | nil =>
      obtain rfl := h.eq
      obtain ⟨q, t, hq⟩ := hy.next
      have hread := h.unread.next hq taken
      exact ⟨_, _, q.rest, [], q.rest, t, Reading.once hq, hread.unread.ahead, hread.counts hc,
        hread.tells ht, ⟨1, .once hq⟩, by simp, rfl, fun he => ⟨he, rfl⟩, by simp⟩
    | cons n w =>
      obtain ⟨c', hq, ha, hc', ht'⟩ := h.heldBack T s taken
      exact ⟨_, [], c', w, p, s, Reading.once hq, ha, hc', ht' ht, ⟨0, .done _ _⟩,
        List.append_nil _, rfl, by simp [Reply.ended], by simp⟩
  | size =>
    cases h with
    | listed f size rest =>
      obtain ⟨k, rfl⟩ := Option.isSome_iff_exists.mp hc
      refine ⟨_, [], _, [], _, s, .size (.size .pure) (.done _ _), .listed f (some k) rest, rfl, ht,
        .total (k := 0) (.done _ _) rfl rfl (.inr ⟨rest, readsOut_listed T f (some k) rest s, ?_⟩)⟩
      rw [ht k rfl]
      rfl
    | lookahead base w delivered exhausted =>
      obtain rfl : delivered = taken := ht
      cases exhausted with
      | true =>
        have hend := comes_next (T := T) (s := s)
          (c := .lookahead base [] (delivered + w.length) true) fun _ => rfl
        exact ⟨_, [], _, w, _, s, .size (.size .pure) (.done _ _),
          .lookahead base w delivered true, rfl, rfl, .total (k := 0) (.done _ _) rfl rfl
            (.inr ⟨[], ⟨1, _, _, _, .once hend, List.mem_singleton.mpr rfl, rfl⟩, rfl⟩)⟩
      | false =>
        obtain ⟨q, plain, w', p', t, hq, ha, hc', ht', hacc⟩ := comes_size hy
        exact ⟨_, plain, q.rest, w', p', t, .size hq (.done _ _), ha, hc', ht', hacc⟩

/-- However requests are interleaved there are replies, and reading accounts for them. -/
theorem Ahead.replies (h : Ahead w c p) (hc : c.counts = true) (ht : c.Tells taken)
    (hy : Yielding T most p s) (qs : List Query) : ∃ rs plain c' w' p' t, Replies T c s qs rs c' t ∧
      Ahead w' c' p' ∧ Accounts T taken w p s rs plain w' p' t := by
  induction qs generalizing c p w s taken most with
  | nil => exact ⟨[], [], c, w, p, s, .done c s, h, .refl T taken w p s⟩
  | cons q qs ih =>
    obtain ⟨rs₁, plain₁, c₁, w₁, p₁, t, hr₁, ha, hc₁, ht₁, hacc₁⟩ := h.reply hc ht hy q
    obtain ⟨k, hreads⟩ := hacc₁.reads
    obtain ⟨more, -, hy₁⟩ := hy.rest hreads
    obtain ⟨rs₂, plain₂, c₂, w₂, p₂, u, hr₂, ha₂, hacc₂⟩ := ih ha hc₁ ht₁ hy₁
    exact ⟨_, _, c₂, w₂, p₂, u, hr₁.append hr₂, ha₂, hacc₁.trans h.unread hacc₂⟩

/-- The nodes that are held back come next, and the session does not change. -/
theorem Ahead.reads (h : Ahead w c p) (T : Transformation) (s : Session) :
    Reading T c s w.length (deliveries w) p s := by
  induction w generalizing c with
  | nil => exact h.eq ▸ .done c s
  | cons n w ih =>
    obtain ⟨c', hq, ha, -, -⟩ := h.heldBack T s 0
    exact .next hq (ih ha)

/-- A cursor as it is made that tells its size: of no node or of one, of listed nodes, along an axis
that is listed at once, or a lookahead. -/
inductive Telling : Cursor → Prop
  | ofOption (n : Option Node) : Telling (.ofOption n)
  | slice (ns : List Node) (sorted reverse : Bool) : Telling (.slice ns sorted reverse)
  | onAxis (o : Node) (axis : Axis) (test : NodeTest) (h : (Walk.start o axis).isListed = true) :
      Telling (.onAxis o axis test)
  | lookingAhead (base : Cursor) : Telling base.lookingAhead

namespace Telling

theorem unread (h : c.Telling) : Unread c := by
  cases h with
  | ofOption | slice | onAxis => trivial
  | lookingAhead => rfl

theorem counts (h : c.Telling) : c.counts = true := by
  cases h with
  | ofOption | slice | lookingAhead => rfl
  | onAxis o axis test hl => simp [Cursor.onAxis, Cursor.counts, hl]

theorem tells (h : c.Telling) : c.Tells 0 := by
  cases h with
  | ofOption n => exact (fresh_ofOption n).tells
  | slice ns sorted reverse => exact (fresh_slice ns sorted reverse).tells
  | onAxis o axis test => exact (fresh_onAxis o axis test).tells
  | lookingAhead => rfl

/-- There is one list of nodes at most that a cursor delivers. -/
theorem readsOut_unique (h : c.Telling) {ms ns : List Node} (hm : ReadsOut T c s ms)
    (hn : ReadsOut T c s ns) : ms = ns := by
  have key : ∀ {j k : Nat} {as bs : List Reply} {r r' : Cursor} {t u : Session}, j ≤ k →
      Reading T c s j as r t → Reading T c s k bs r' u → .ended ∈ as → nodesOf as = nodesOf bs := by
    intro j k as bs r r' t u hjk ha hb hend
    obtain ⟨cs, rfl, hc⟩ := ha.goesOn hb hjk
    rw [nodesOf_append, (((h.unread.reads ha).2 hend).reads hc).1, List.append_nil]
  obtain ⟨j, as, r, t, ha, hea, rfl⟩ := hm
  obtain ⟨k, bs, r', u, hb, heb, rfl⟩ := hn
  rcases Nat.le_total j k with hjk | hjk
  · exact key hjk ha hb hea
  · exact (key hjk hb ha heb).symm

/-- A cursor that tells its size goes on to have replies if the base of a lookahead does. -/
theorem yielding (h : c.Telling) (hb : ∀ base, c = base.lookingAhead → Yielding T most base s) :
    ∃ most, Yielding T most c s := by
  cases h with
  | ofOption | slice | onAxis => exact ⟨_, (reads_listed T _ _ _ s).yielding fun _ => rfl⟩
  | lookingAhead base => exact ⟨most, (hb base rfl).lookahead 0⟩

/-- Whatever requests for nodes and for the size are made of a cursor that tells its size, there are
replies. The size that is told is the number of nodes that come when the cursor is only read, from
its start to its end. What is delivered, and the faults on the way, are what reading gives to some
point, but for nodes that the cursor holds back: these come next, in their order. -/
theorem replies_exact (h : c.Telling) (hb : ∀ base, c = base.lookingAhead → Yielding T most base s)
    (qs : List Query) :
    ∃ rs r t, Replies T c s qs rs r t ∧
      (∀ o, .total o ∈ rs → (∃ f, o = .error f) ∨
        ∃ ns, ReadsOut T c s ns ∧ o = .ok (some ns.length)) ∧
      (.ended ∈ rs → ReadsOut T c s (nodesOf rs)) ∧
      (∀ ms ns, ReadsOut T c s ms → ReadsOut T c s ns → ms = ns) ∧
      ∃ held k plain p, Reading T c s k plain p t ∧ nodesOf plain = nodesOf rs ++ held ∧
        faultsOf plain = faultsOf rs ∧ Reading T r t held.length (deliveries held) p t := by
  obtain ⟨most, hy⟩ := h.yielding hb
  obtain ⟨rs, plain, r, held, p, t, hr, ha, hacc⟩ := h.unread.ahead.replies h.counts h.tells hy qs
  obtain ⟨k, hk⟩ := hacc.reads
  refine ⟨rs, r, t, hr, ?_, fun hend => ?_, fun ms ns => h.readsOut_unique, held, k, plain, p, hk,
    hacc.nodes, hacc.faults, ha.reads T t⟩
  · simpa using hacc.totals
  · obtain ⟨hplain, rfl⟩ := hacc.ended hend
    exact ⟨k, plain, p, t, hk, hplain, by simpa using hacc.nodes.symm⟩

end Telling

/-- Two of three nodes are delivered although the base of a lookahead fails at the other one when
the size is asked for. -/
theorem replies_exact_of_fault : ∃ (c : Cursor) (m n : Node) (f : Fault) (r : Cursor) (t : Session),
    c.Telling ∧ ReadsOut .bare c {} [m, n] ∧
    Replies .bare c {} [.size, .next, .size, .next, .next] [.total (.error f),
      .node (.ok (some m)), .total (.ok (some 2)), .node (.ok (some n)), .ended] r t := by
  let m : Node := .root ⟨0, false, .text "a"⟩
  let n : Node := .root ⟨1, false, .text "b"⟩
  let predicate : Expr := .logical .or (.positionRange 1 1)
    (.logical .or (.positionRange 3 3) (.failure .noContextNode))
  let base (rest : List Node) (position : Nat) (finished : Bool) : Cursor :=
    .filter (.listed {} (some 3) rest) ⟨predicate, .blank, .boolean, false, false⟩ none position
      finished
  have hr : Replies .bare (base [m, m, n] 0 false).lookingAhead {}
      [.size, .next, .size, .next, .next] [.total (.error .noContextNode), .node (.ok (some m)),
        .total (.ok (some 2)), .node (.ok (some n)), .ended] (.lookahead (base [] 3 true) [] 2 true)
        {} :=
    .size (p := ⟨_, .lookahead (base [n] 2 false) [m] 0 false⟩) (.of 20 fun _ => rfl)
    (.next (p := ⟨_, .lookahead (base [n] 2 false) [] 1 false⟩) (.of 20 fun _ => rfl)
    (.size (p := ⟨_, .lookahead (base [] 3 true) [n] 1 true⟩) (.of 20 fun _ => rfl)
    (.next (p := ⟨_, .lookahead (base [] 3 true) [] 2 true⟩) (.of 20 fun _ => rfl)
    (.next (p := ⟨_, .lookahead (base [] 3 true) [] 2 true⟩) (.of 20 fun _ => rfl) (.done _ _)))))
  have hbase : Reading .bare (base [m, m, n] 0 false) {} 4 [.node (.ok (some m)),
      .node (.error .noContextNode), .node (.ok (some n)), .ended] (base [] 3 true) {} :=
    .next (p := ⟨_, base [m, n] 1 false⟩) (.of 20 fun _ => rfl)
    (.next (p := ⟨_, base [n] 2 false⟩) (.of 20 fun _ => rfl)
    (.next (p := ⟨_, base [] 3 false⟩) (.of 20 fun _ => rfl)
    (.next (p := ⟨_, base [] 3 true⟩) (.of 20 fun _ => rfl) (.done _ _))))
  have hc : (base [m, m, n] 0 false).lookingAhead.Telling := .lookingAhead _
  obtain ⟨rs, r, t, hreplies, -, hend, -⟩ := hc.replies_exact
    (fun b hb => (lookahead.inj hb).1 ▸ hbase.yielding fun _ => rfl)
    [.size, .next, .size, .next, .next]
  obtain ⟨rfl, rfl, rfl⟩ := hr.unique hreplies
  exact ⟨_, m, n, _, _, _, hc, hend (by simp), hr⟩

end PathLanguage.Cursor
