/- Conversations with a cursor: requests for its next node and for its size, and the replies to them
that come from every engine that is deep enough. -/
import PathLanguage.Evaluation

namespace PathLanguage

variable {T : Transformation} {α β : Type} {s t u : Session}

/-- Every engine that is deep enough gives a computation one result and one session after it. -/
def Comes (T : Transformation) (m : Engine → StateM Session α) (s : Session) (x : α)
    (t : Session) : Prop :=
  ∃ d, ∀ k, d ≤ k → (m (engine T k)).run s = (x, t)

namespace Comes

variable {m m' : Engine → StateM Session α} {f : Engine → α → StateM Session β} {x y : α} {z : β}

theorem of (d : Nat) (h : ∀ k, (m (engine T (k + d))).run s = (x, t)) : Comes T m s x t := by
  refine ⟨d, fun k hk => ?_⟩
  obtain ⟨k, rfl⟩ := Nat.exists_eq_add_of_le' hk
  exact h k

theorem pure : Comes T (fun _ => Pure.pure x) s x s := ⟨0, fun _ _ => rfl⟩

theorem bind (h : Comes T m s x t) (hf : Comes T (fun E => f E x) t z u) :
    Comes T (fun E => m E >>= f E) s z u := by
  obtain ⟨d, hd⟩ := h
  obtain ⟨e, he⟩ := hf
  refine ⟨max d e, fun k hk => ?_⟩
  rw [StateT.run_bind, hd k (by omega)]
  exact he k (by omega)

theorem unique (h : Comes T m s x t) (h' : Comes T m s y u) : x = y ∧ t = u := by
  obtain ⟨d, hd⟩ := h
  obtain ⟨e, he⟩ := h'
  exact Prod.ext_iff.mp ((hd _ (Nat.le_max_left d e)).symm.trans (he _ (Nat.le_max_right d e)))

/-- What one engine does, the next deeper one hands on to. -/
theorem handedOn (h : Comes T m s x t) (hm : ∀ n, m' (engine T (n + 1)) = m (engine T n)) :
    Comes T m' s x t := by
  obtain ⟨d, hd⟩ := h
  refine ⟨d + 1, fun k hk => ?_⟩
  obtain ⟨k, rfl⟩ := Nat.exists_eq_add_of_le' (Nat.le_trans (Nat.le_add_left 1 d) hk)
  rw [hm, hd k (by omega)]

theorem fromDeeper (h : Comes T m' s x t) (hm : ∀ n, m' (engine T (n + 1)) = m (engine T n)) :
    Comes T m s x t := by
  obtain ⟨d, hd⟩ := h
  exact ⟨d, fun k hk => by rw [← hm, hd (k + 1) (by omega)]⟩

theorem next {c : Cursor} {p : Pull (Option Node)} (h : Comes T (fun E => c.next E) s p t) :
    Comes T (fun E => E.next c) s p t :=
  h.handedOn fun _ => rfl

theorem size {c : Cursor} {p : Pull (Option Nat)} (h : Comes T (fun E => c.size E) s p t) :
    Comes T (fun E => E.size c) s p t :=
  h.handedOn fun _ => rfl

theorem ofNext {c : Cursor} {p : Pull (Option Node)} (h : Comes T (fun E => E.next c) s p t) :
    Comes T (fun E => c.next E) s p t :=
  h.fromDeeper fun _ => rfl

end Comes

namespace Cursor

/-- What may be asked of a cursor. -/
inductive Query where
  | next
  | size

inductive Reply where
  | node (outcome : Except Fault (Option Node))
  | total (outcome : Except Fault (Option Nat))

namespace Reply

def node? : Reply → Option Node
  | .node (.ok n) => n
  | _ => none

def fault? : Reply → Option Fault
  | .node (.error f) | .total (.error f) => some f
  | _ => none

/-- The reply that there are no more nodes. -/
def ended : Reply := .node (.ok none)

end Reply

/-- The nodes that are delivered in the course of some replies. -/
def nodesOf (replies : List Reply) : List Node := replies.filterMap Reply.node?

def faultsOf (replies : List Reply) : List Fault := replies.filterMap Reply.fault?

/-- The replies by which some nodes are delivered. -/
def deliveries (ns : List Node) : List Reply := ns.map fun n => .node (.ok (some n))

theorem nodesOf_deliveries (ns : List Node) : nodesOf (deliveries ns) = ns := by
  induction ns with
  | nil => rfl
  | cons n ns ih => exact congrArg (n :: ·) ih

theorem nodesOf_ended (k : Nat) : nodesOf (List.replicate k .ended) = [] := by
  induction k with
  | zero => rfl
  | succ k ih => exact ih

@[simp] theorem nodesOf_append (as bs : List Reply) :
    nodesOf (as ++ bs) = nodesOf as ++ nodesOf bs :=
  List.filterMap_append

@[simp] theorem faultsOf_append (as bs : List Reply) :
    faultsOf (as ++ bs) = faultsOf as ++ faultsOf bs :=
  List.filterMap_append

/-- A cursor is asked one thing after the other; each request finds it as the last one left it. -/
inductive Replies (T : Transformation) :
    Cursor → Session → List Query → List Reply → Cursor → Session → Prop
  | done (c : Cursor) (s : Session) : Replies T c s [] [] c s
  | next {c r : Cursor} {s t u : Session} {p : Pull (Option Node)} {qs : List Query}
      {rs : List Reply} : Comes T (fun E => E.next c) s p t → Replies T p.rest t qs rs r u →
        Replies T c s (.next :: qs) (.node p.outcome :: rs) r u
  | size {c r : Cursor} {s t u : Session} {p : Pull (Option Nat)} {qs : List Query}
      {rs : List Reply} : Comes T (fun E => E.size c) s p t → Replies T p.rest t qs rs r u →
        Replies T c s (.size :: qs) (.total p.outcome :: rs) r u

/-- A cursor is asked for its next node some times in succession, and for nothing else. -/
def Reading (T : Transformation) (c : Cursor) (s : Session) (times : Nat) (rs : List Reply)
    (r : Cursor) (t : Session) : Prop :=
  Replies T c s (List.replicate times .next) rs r t

/-- Read to its end a cursor delivers these nodes. -/
def ReadsOut (T : Transformation) (c : Cursor) (s : Session) (ns : List Node) : Prop :=
  ∃ k rs r t, Reading T c s k rs r t ∧ .ended ∈ rs ∧ ns = nodesOf rs

variable {c c' r r' : Cursor} {qs qs' : List Query} {rs rs' : List Reply}

namespace Replies

theorem append (h : Replies T c s qs rs c' t) (h' : Replies T c' t qs' rs' r u) :
    Replies T c s (qs ++ qs') (rs ++ rs') r u := by
  induction h with
  | done => exact h'
  | next hp _ ih => exact .next hp (ih h')
  | size hp _ ih => exact .size hp (ih h')

theorem split (h : Replies T c s (qs ++ qs') rs r u) : ∃ as bs c' t,
    rs = as ++ bs ∧ Replies T c s qs as c' t ∧ Replies T c' t qs' bs r u := by
  induction qs generalizing c s rs with
  | nil => exact ⟨[], rs, c, s, rfl, .done c s, h⟩
  | cons q qs ih =>
    cases h with
    | next hp h =>
      obtain ⟨as, bs, c', t, rfl, ha, hb⟩ := ih h
      exact ⟨_, bs, c', t, rfl, .next hp ha, hb⟩
    | size hp h =>
      obtain ⟨as, bs, c', t, rfl, ha, hb⟩ := ih h
      exact ⟨_, bs, c', t, rfl, .size hp ha, hb⟩

theorem unique (h : Replies T c s qs rs r t) (h' : Replies T c s qs rs' r' u) :
    rs = rs' ∧ r = r' ∧ t = u := by
  induction h generalizing rs' with
  | done =>
    cases h'
    exact ⟨rfl, rfl, rfl⟩
  | next hp _ ih =>
    cases h' with
    | next hp' h' =>
      obtain ⟨rfl, rfl⟩ := hp.unique hp'
      obtain ⟨rfl, rfl, rfl⟩ := ih h'
      exact ⟨rfl, rfl, rfl⟩
  | size hp _ ih =>
    cases h' with
    | size hp' h' =>
      obtain ⟨rfl, rfl⟩ := hp.unique hp'
      obtain ⟨rfl, rfl, rfl⟩ := ih h'
      exact ⟨rfl, rfl, rfl⟩

end Replies

namespace Reading

variable {j k : Nat}

theorem once {p : Pull (Option Node)} (h : Comes T (fun E => E.next c) s p t) :
    Reading T c s 1 [.node p.outcome] p.rest t :=
  .next h (.done _ _)

theorem append (h : Reading T c s j rs c' t) (h' : Reading T c' t k rs' r u) :
    Reading T c s (j + k) (rs ++ rs') r u := by
  rw [Reading, ← List.replicate_append_replicate]
  exact Replies.append h h'

theorem split (h : Reading T c s (j + k) rs r u) : ∃ as bs c' t,
    rs = as ++ bs ∧ Reading T c s j as c' t ∧ Reading T c' t k bs r u := by
  rw [Reading, ← List.replicate_append_replicate] at h
  exact Replies.split h

/-- Of two readings the longer one goes on where the shorter one ends. -/
theorem goesOn (h : Reading T c s j rs c' t) (h' : Reading T c s k rs' r u) (hjk : j ≤ k) :
    ∃ bs, rs' = rs ++ bs ∧ Reading T c' t (k - j) bs r u := by
  obtain ⟨i, rfl⟩ := Nat.exists_eq_add_of_le hjk
  obtain ⟨as, bs, _, _, rfl, ha, hb⟩ := h'.split
  obtain ⟨rfl, rfl, rfl⟩ := Replies.unique h ha
  exact ⟨bs, rfl, by rwa [Nat.add_sub_cancel_left]⟩

end Reading

/-- Each request for the next node has a reply, and at most some number of nodes come. -/
def Yielding (T : Transformation) (most : Nat) (c : Cursor) (s : Session) : Prop :=
  ∀ k, ∃ rs r t, Reading T c s k rs r t ∧ (nodesOf rs).length ≤ most

theorem Yielding.rest {most j : Nat} (h : Yielding T most c s) (hr : Reading T c s j rs c' t) :
    ∃ more, (nodesOf rs).length + more = most ∧ Yielding T more c' t := by
  have hle (k : Nat) : ∃ bs r u, Reading T c' t k bs r u ∧
      (nodesOf rs).length + (nodesOf bs).length ≤ most := by
    obtain ⟨as, r, u, ha, hl⟩ := h (j + k)
    obtain ⟨bs, rfl, hb⟩ := hr.goesOn ha (Nat.le_add_right j k)
    rw [Nat.add_sub_cancel_left] at hb
    exact ⟨bs, r, u, hb, by simpa using hl⟩
  obtain ⟨bs, -, -, -, h0⟩ := hle 0
  refine ⟨most - (nodesOf rs).length, by omega, fun k => ?_⟩
  obtain ⟨bs, r, u, hb, hl⟩ := hle k
  exact ⟨bs, r, u, hb, by omega⟩

theorem Yielding.next {most : Nat} (h : Yielding T most c s) : ∃ p t,
    Comes T (fun E => E.next c) s p t := by
  obtain ⟨rs, r, t, hr, -⟩ := h 1
  cases hr with
  | next hp _ => exact ⟨_, _, hp⟩

end Cursor

end PathLanguage
