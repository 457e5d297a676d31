/- Conditions under which computations succeed: a property of sessions that they keep, and a depth from
which on they are followed far enough. What comes from a cursor that is read to the end under such
conditions: the nodes of one list, or those of some list with a property. -/
import PathLanguage.Evaluation
import PathLanguage.Proofs.Session.Returns

namespace PathLanguage

/-- A property of sessions, and a depth of evaluation. -/
structure Conditions where
  transformation : Transformation
  met : Session → Prop
  depth : Nat

namespace Conditions

variable {K : Conditions} {α β : Type}

/-- The same conditions on sessions, at a greater depth. -/
def deeper (K : Conditions) (more : Nat) : Conditions := { K with depth := K.depth + more }

theorem deeper_deeper (K : Conditions) (j k : Nat) : (K.deeper j).deeper k = K.deeper (j + k) := by
  rw [deeper, deeper, deeper, Nat.add_assoc]

/-- Under the conditions the result of a computation has a property, and they are met afterwards. -/
def Gives (K : Conditions) (m : Engine → StateM Session α) (Q : α → Prop) : Prop :=
  ∀ n, K.depth ≤ n → ∀ s, K.met s →
    Q ((m (engine K.transformation n)).run s).1 ∧ K.met ((m (engine K.transformation n)).run s).2

/-- Under the conditions an action succeeds, with a result that has a property. -/
def Succeeds (K : Conditions) (a : Engine → Action α) (Q : α → Prop) : Prop :=
  K.Gives (fun E => (a E).attempt) fun r => ∃ x, r = .ok x ∧ Q x

section gives

variable {m m' : Engine → StateM Session α} {f : Engine → α → StateM Session β} {P Q : α → Prop}
  {R : β → Prop}

theorem Gives.pure {x : α} (h : Q x) : K.Gives (fun _ => pure x) Q := fun _ _ _ hs => ⟨h, hs⟩

theorem Gives.bind (h : K.Gives m P) (hf : ∀ x, P x → K.Gives (fun E => f E x) R) :
    K.Gives (fun E => m E >>= f E) R := by
  intro n hn s hs
  obtain ⟨hx, ht⟩ := h n hn s hs
  exact hf _ hx n hn _ ht

theorem Gives.imp (h : K.Gives m P) (hi : ∀ x, P x → Q x) : K.Gives m Q :=
  fun n hn s hs => ⟨hi _ (h n hn s hs).1, (h n hn s hs).2⟩

theorem Gives.deeper (h : K.Gives m Q) (more : Nat) : (K.deeper more).Gives m Q :=
  fun n hn => h n (Nat.le_trans (Nat.le_add_right _ _) hn)

theorem Gives.atLeast {j k : Nat} (h : (K.deeper j).Gives m Q) (hjk : j ≤ k) :
    (K.deeper k).Gives m Q :=
  fun n hn => h n (Nat.le_trans (Nat.add_le_add_left hjk _) hn)

/-- What one engine does, the next deeper one hands on to. -/
theorem Gives.handedOn (h : K.Gives m Q)
    (hm : ∀ n, m' (engine K.transformation (n + 1)) = m (engine K.transformation n)) :
    (K.deeper 1).Gives m' Q := by
  intro n hn s hs
  obtain ⟨k, rfl⟩ := Nat.exists_eq_add_of_le' (Nat.le_trans (Nat.le_add_left 1 _) hn)
  have hx := h k (Nat.le_of_add_le_add_right hn) s hs
  rwa [← hm] at hx

/-- What is known of a deeper engine is known of what it hands on. -/
theorem Gives.fromDeeper (h : K.Gives m' Q)
    (hm : ∀ n, m' (engine K.transformation (n + 1)) = m (engine K.transformation n)) :
    K.Gives m Q := by
  intro n hn s hs
  rw [← hm]
  exact h (n + 1) (Nat.le_succ_of_le hn) s hs

theorem Gives.next {c : Cursor} {Q : Pull (Option Node) → Prop}
    (h : K.Gives (fun E => Cursor.next E c) Q) : (K.deeper 1).Gives (fun E => E.next c) Q :=
  h.handedOn fun _ => rfl

theorem Gives.size {c : Cursor} {Q : Pull (Option Nat) → Prop}
    (h : K.Gives (fun E => Cursor.size E c) Q) : (K.deeper 1).Gives (fun E => E.size c) Q :=
  h.handedOn fun _ => rfl

theorem Gives.ofNext {c : Cursor} {Q : Pull (Option Node) → Prop}
    (h : K.Gives (fun E => E.next c) Q) : K.Gives (fun E => Cursor.next E c) Q :=
  h.fromDeeper fun _ => rfl

/-- Two computations that are the same from some depth on. -/
theorem Gives.of_eq (h : K.Gives m Q)
    (hm : ∀ n, K.depth ≤ n → m' (engine K.transformation n) = m (engine K.transformation n)) :
    K.Gives m' Q := by
  intro n hn
  rw [hm n hn]
  exact h n hn

theorem Gives.ifNot {p : Prop} [Decidable p] (hp : ¬ p) (h : K.Gives m Q) :
    K.Gives (fun E => if p then m' E else m E) Q := by
  simp only [if_neg hp]
  exact h

/-- It may be supposed that the conditions can be met. -/
theorem Gives.suppose (h : (∃ s, K.met s) → K.Gives m Q) : K.Gives m Q :=
  fun n hn s hs => h ⟨s, hs⟩ n hn s hs

/-- Conditions that can be met give a result. -/
theorem Gives.exists {s : Session} (h : K.Gives m Q) (hs : K.met s) : ∃ x, Q x :=
  ⟨_, (h K.depth (Nat.le_refl _) s hs).1⟩

end gives

section succeeds

variable {a : Engine → Action α} {f : Engine → α → Action β} {P Q : α → Prop} {R : β → Prop}

theorem Succeeds.pure {x : α} (h : Q x) : K.Succeeds (fun _ => Pure.pure x) Q :=
  Gives.pure ⟨x, rfl, h⟩

theorem Succeeds.bind (h : K.Succeeds a P) (hf : ∀ x, P x → K.Succeeds (fun E => f E x) R) :
    K.Succeeds (fun E => a E >>= f E) R := by
  have hcont : K.Gives (fun E => (a E).attempt >>= ExceptT.bindCont (f E)) fun r =>
      ∃ y, r = .ok y ∧ R y := by
    refine Gives.bind h fun r hr => ?_
    obtain ⟨x, rfl, hx⟩ := hr
    exact hf x hx
  exact hcont

theorem Succeeds.imp (h : K.Succeeds a P) (hi : ∀ x, P x → Q x) : K.Succeeds a Q :=
  Gives.imp h fun _ ⟨x, hr, hx⟩ => ⟨x, hr, hi x hx⟩

theorem Succeeds.atLeast {j k : Nat} (h : (K.deeper j).Succeeds a Q) (hjk : j ≤ k) :
    (K.deeper k).Succeeds a Q :=
  Gives.atLeast h hjk

theorem Succeeds.deeper (h : K.Succeeds a Q) (more : Nat) : (K.deeper more).Succeeds a Q :=
  Gives.deeper h more

end succeeds

/-- A cursor is read as an action without a fault. -/
theorem Succeeds.pull {c : Cursor} {Q : Option Node × Cursor → Prop}
    (h : K.Gives (fun E => E.next c) fun p => ∃ o, p.outcome = .ok o ∧ Q (o, p.rest)) :
    K.Succeeds (fun E => E.pull c) Q := by
  intro n hn s hs
  obtain ⟨⟨o, ho, hq⟩, ht⟩ := h n hn s hs
  simp only [Engine.pull_run, ho]
  exact ⟨⟨_, rfl, hq⟩, ht⟩

end Conditions

end PathLanguage

namespace PathLanguage

open Conditions

namespace Cursor

variable {K : Conditions} {c : Cursor} {n : Node} {ns : List Node} {R : List Node → Prop} {k : Nat}

/-- The nodes of a list come from the cursor, and then no more. -/
def Supplies (K : Conditions) : List Node → Cursor → Prop
  | [], c => K.Gives (fun E => E.next c) fun p => p.outcome = .ok none
  | n :: ns, c =>
    K.Gives (fun E => E.next c) fun p => p.outcome = .ok (some n) ∧ Supplies K ns p.rest

/-- Some list of nodes with a property comes from the cursor, at most `k` of them. -/
def Streams (K : Conditions) : (k : Nat) → (List Node → Prop) → Cursor → Prop
  | 0, R, c => K.Gives (fun E => E.next c) fun p => p.outcome = .ok none ∧ R []
  | k + 1, R, c => K.Gives (fun E => E.next c) fun p => (p.outcome = .ok none ∧ R []) ∨
    ∃ n, p.outcome = .ok (some n) ∧ Streams K k (fun ns => R (n :: ns)) p.rest

theorem Supplies.deeper (h : Supplies K ns c) (more : Nat) : Supplies (K.deeper more) ns c := by
  induction ns generalizing c with
  | nil => exact Gives.deeper h more
  | cons n ns ih => exact Gives.imp (Gives.deeper h more) fun p hp => ⟨hp.1, ih hp.2⟩

theorem Supplies.atLeast {j : Nat} (h : Supplies (K.deeper j) ns c) (hjk : j ≤ k) :
    Supplies (K.deeper k) ns c := by
  obtain ⟨d, rfl⟩ := Nat.exists_eq_add_of_le hjk
  exact K.deeper_deeper j d ▸ h.deeper d

/-- What is read first of a cursor that supplies a list, and what is left then. -/
def Begins (K : Conditions) : List Node → Pull (Option Node) → Prop
  | [], p => p.outcome = .ok none
  | n :: ns, p => p.outcome = .ok (some n) ∧ Supplies K ns p.rest

theorem supplies_iff : Supplies K ns c ↔ K.Gives (fun E => E.next c) (Begins K ns) := by
  cases ns <;> exact Iff.rfl

theorem Begins.deeper {p : Pull (Option Node)} (h : Begins K ns p) (more : Nat) :
    Begins (K.deeper more) ns p := by
  cases ns with
  | nil => exact h
  | cons n ns => exact ⟨h.1, h.2.deeper more⟩

theorem Begins.outcome {p : Pull (Option Node)} (h : Begins K ns p) :
    ∃ o, p.outcome = .ok o ∧ Begins K ns ⟨.ok o, p.rest⟩ := by
  cases ns with
  | nil => exact ⟨none, h, rfl⟩
  | cons m ns => exact ⟨some m, h.1, rfl, h.2⟩

theorem Streams.deeper (h : Streams K k R c) (more : Nat) : Streams (K.deeper more) k R c := by
  induction k generalizing R c with
  | zero => exact Gives.deeper h more
  | succ k ih =>
    refine Gives.imp (Gives.deeper h more) fun p hp => ?_
    rcases hp with hp | ⟨n, ho, hp⟩
    · exact .inl hp
    · exact .inr ⟨n, ho, ih hp⟩

theorem Streams.imp {R' : List Node → Prop} (h : Streams K k R c) (hi : ∀ ns, R ns → R' ns) :
    Streams K k R' c := by
  induction k generalizing R R' c with
  | zero => exact Gives.imp h fun p hp => ⟨hp.1, hi _ hp.2⟩
  | succ k ih =>
    refine Gives.imp h fun p hp => ?_
    rcases hp with ⟨ho, hr⟩ | ⟨n, ho, hp⟩
    · exact .inl ⟨ho, hi _ hr⟩
    · exact .inr ⟨n, ho, ih hp fun ns => hi (n :: ns)⟩

/-- It may be supposed that the conditions can be met. -/
theorem Streams.suppose (h : (∃ s, K.met s) → Streams K k R c) : Streams K k R c := by
  cases k with
  | zero => exact Gives.suppose h
  | succ k => exact Gives.suppose h

/-- The end of what comes from a cursor. -/
theorem Streams.ended (h : K.Gives (fun E => E.next c) fun p => p.outcome = .ok none)
    (hr : R []) : Streams K k R c := by
  cases k with
  | zero => exact Gives.imp h fun p hp => ⟨hp, hr⟩
  | succ k => exact Gives.imp h fun p hp => .inl ⟨hp, hr⟩

theorem Streams.more (h : Streams K k R c) : Streams K (k + 1) R c := by
  induction k generalizing R c with
  | zero => exact Gives.imp h fun _ => .inl
  | succ k ih =>
    refine Gives.imp h fun p hp => ?_
    rcases hp with hp | ⟨n, ho, hp⟩
    · exact .inl hp
    · exact .inr ⟨n, ho, ih hp⟩

/-- The next node, if any, and what comes after it. -/
theorem Streams.next (h : Streams K k R c) : K.Gives (fun E => E.next c) fun p =>
    (p.outcome = .ok none ∧ R []) ∨
      ∃ n, p.outcome = .ok (some n) ∧ Streams K k (fun ns => R (n :: ns)) p.rest := by
  cases k with
  | zero => exact Gives.imp h fun _ => .inl
  | succ k =>
    refine Gives.imp h fun p hp => ?_
    rcases hp with hp | ⟨n, ho, hp⟩
    · exact .inl hp
    · exact .inr ⟨n, ho, hp.more⟩

/-- There is a list with the property if the conditions can be met at all. -/
theorem Streams.exists {s : Session} (h : Streams K k R c) (hs : K.met s) : ∃ ns, R ns := by
  induction k generalizing R c s with
  | zero =>
    obtain ⟨p, -, hr⟩ := Gives.exists h hs
    exact ⟨[], hr⟩
  | succ k ih =>
    obtain ⟨hp, ht⟩ := h K.depth (Nat.le_refl _) s hs
    rcases hp with ⟨-, hr⟩ | ⟨n, -, hp⟩
    · exact ⟨[], hr⟩
    · obtain ⟨ns, hns⟩ := ih hp ht
      exact ⟨n :: ns, hns⟩

theorem Supplies.streams (h : Supplies K ns c) : Streams K ns.length (· = ns) c := by
  induction ns generalizing c with
  | nil => exact Gives.imp h fun p hp => ⟨hp, rfl⟩
  | cons n ns ih =>
    refine Gives.imp h fun p hp => .inr ⟨n, hp.1, ?_⟩
    exact (ih hp.2).imp fun ms hms => congrArg (n :: ·) hms

/-- If only one list has the property, it is the one that comes. -/
theorem Streams.supplies (h : Streams K k (· = ns) c) : Supplies K ns c := by
  induction k generalizing ns c with
  | zero =>
    cases ns with
    | nil => exact Gives.imp h fun p hp => hp.1
    | cons m ns => exact Gives.imp h fun p hp => nomatch hp.2
  | succ k ih =>
    cases ns with
    | nil =>
      refine Gives.suppose (m := fun E => E.next c) fun hmet => Gives.imp h fun p hp => ?_
      obtain ⟨s, hs⟩ := hmet
      rcases hp with ⟨ho, -⟩ | ⟨n, -, hp⟩
      · exact ho
      · obtain ⟨ms, hms⟩ := hp.exists hs
        cases hms
    | cons m ns =>
      refine Gives.suppose (m := fun E => E.next c) fun hmet => Gives.imp h fun p hp => ?_
      obtain ⟨s, hs⟩ := hmet
      rcases hp with ⟨-, hr⟩ | ⟨n, ho, hp⟩
      · cases hr
      · obtain ⟨ms, hms⟩ := hp.exists hs
        obtain rfl : n = m := (List.cons.inj hms).1
        exact ⟨ho, ih (hp.imp fun ks hks => (List.cons.inj hks).2)⟩

/-- What is listed comes as it is listed. -/
theorem supplies_listed (K : Conditions) (f : Flags) (size : Option Nat) (ns : List Node) :
    Supplies (K.deeper 1) ns (.listed f size ns) := by
  induction ns with
  | nil => exact Gives.next (Gives.pure rfl)
  | cons n ns ih => exact Gives.next (Gives.pure ⟨rfl, ih⟩)

/-- Nothing but what is listed comes from a list. -/
theorem Supplies.listed {f : Flags} {size : Option Nat} {rest : List Node}
    (h : Supplies K ns (.listed f size rest)) {s : Session} (hs : K.met s) : ns = rest := by
  induction ns generalizing rest with
  | nil =>
    have ho := (h (K.depth + 1) (Nat.le_succ _) s hs).1
    cases rest with
    | nil => rfl
    | cons n rest => cases ho
  | cons n ns ih =>
    have ho := (h (K.depth + 1) (Nat.le_succ _) s hs).1
    cases rest with
    | nil => cases ho.1
    | cons m rest =>
      obtain rfl : m = n := Option.some.inj (Except.ok.inj ho.1)
      rw [ih ho.2]

section reading

/-- A cursor is read to its end. -/
theorem Streams.drain (h : Streams K k R c) :
    (K.deeper (k + 1)).Succeeds (fun E => E.drain c) R := by
  induction k generalizing R c with
  | zero =>
    refine Gives.handedOn (m := fun E => (Cursor.drain E c).attempt) ?_ fun _ => rfl
    refine Succeeds.bind (P := fun q => q.1 = none ∧ R []) (Succeeds.pull ?_) fun q hq => ?_
    · exact Gives.imp h fun p hp => ⟨none, hp.1, rfl, hp.2⟩
    · obtain ⟨o, rest⟩ := q
      obtain ⟨rfl, hr⟩ := hq
      exact Succeeds.pure hr
  | succ k ih =>
    refine Gives.handedOn (K := K.deeper (k + 1)) (m := fun E => (Cursor.drain E c).attempt) ?_
      fun _ => rfl
    refine Succeeds.bind (P := fun q => (q.1 = none ∧ R []) ∨
      ∃ n, q.1 = some n ∧ Streams K k (fun ns => R (n :: ns)) q.2) (Succeeds.pull ?_) fun q hq => ?_
    · refine Gives.imp (Gives.deeper h _) fun p hp => ?_
      rcases hp with ⟨ho, hr⟩ | ⟨n, ho, hp⟩
      · exact ⟨none, ho, .inl ⟨rfl, hr⟩⟩
      · exact ⟨some n, ho, .inr ⟨n, rfl, hp⟩⟩
    · obtain ⟨o, rest⟩ := q
      rcases hq with ⟨rfl, hr⟩ | ⟨n, rfl, hp⟩
      · exact Succeeds.pure hr
      · exact Succeeds.bind (ih hp) fun ns hns => Succeeds.pure hns

theorem Supplies.pull (h : Supplies K ns c) :
    K.Succeeds (fun E => E.pull c) fun q => Begins K ns ⟨.ok q.1, q.2⟩ :=
  Succeeds.pull (Gives.imp (supplies_iff.mp h) fun _ hp => hp.outcome)

theorem Supplies.head (h : Supplies K ns c) : K.Succeeds (fun E => E.head c) (· = ns.head?) := by
  refine Succeeds.bind (P := fun q => q.1 = ns.head?) (Succeeds.pull ?_) fun q hq => Succeeds.pure hq
  refine Gives.imp (supplies_iff.mp h) fun p hp => ?_
  cases ns with
  | nil => exact ⟨none, hp, rfl⟩
  | cons n ns => exact ⟨some n, hp.1, rfl⟩

/-- A cursor is searched until a node passes the test. -/
theorem Supplies.find (h : Supplies K ns c) (test : Node → Bool) :
    (K.deeper (ns.length + 1)).Succeeds (fun E => E.find test c) (· = ns.any test) := by
  induction ns generalizing c with
  | nil =>
    refine Gives.handedOn (m := fun E => (Cursor.find E test c).attempt) ?_ fun _ => rfl
    refine Succeeds.bind (P := fun q => q.1 = none) (Succeeds.pull ?_) fun q hq => ?_
    · exact Gives.imp h fun p hp => ⟨none, hp, rfl⟩
    · obtain ⟨o, rest⟩ := q
      obtain rfl : o = none := hq
      exact Succeeds.pure rfl
  | cons n ns ih =>
    refine Gives.handedOn (K := K.deeper (ns.length + 1))
      (m := fun E => (Cursor.find E test c).attempt) ?_ fun _ => rfl
    refine Succeeds.bind (P := fun q => q.1 = some n ∧ Supplies K ns q.2) (Succeeds.pull ?_)
      fun q hq => ?_
    · exact Gives.imp (Gives.deeper h _) fun p hp => ⟨some n, hp.1, rfl, hp.2⟩
    · obtain ⟨o, rest⟩ := q
      obtain ⟨rfl, hrest⟩ := hq
      change (K.deeper (ns.length + 1)).Succeeds (fun E =>
        if test n then Pure.pure true else E.find test rest) _
      rw [List.any_cons]
      cases test n with
      | true => exact Succeeds.pure rfl
      | false => exact ih hrest

end reading

end Cursor

end PathLanguage
