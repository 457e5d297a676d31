/- Callers that share a pool and take turns with it. An allocation that misses its name needs a
second turn to enter it, and others may come in between; still the answers are those that the same
calls have when they are made one after the other. -/
import PathLanguage.Proofs.Name.Pool
import Mathlib.Logic.Function.Basic

namespace PathLanguage.NamePool

variable {pool : NamePool} {programs : Nat → List Call}

theorem run_append (pool : NamePool) (calls more : List Call) :
    pool.run (calls ++ more) =
      ((pool.run calls).1 ++ ((pool.run calls).2.run more).1, ((pool.run calls).2.run more).2) := by
  induction calls generalizing pool with
  | nil => rfl
  | cons call calls ih => rw [List.cons_append, run, ih]; rfl

/-- One of those who share a pool: the name that it has found missing and is to enter in its next
turn, and the calls that it has not begun. -/
structure Caller where
  missing : Option ExpandedName := none
  calls : List Call

/-- What comes of a turn: an answer, if a call has ended, the caller and the pool. -/
structure Turn where
  answer : Option Event
  caller : Caller
  pool : NamePool

namespace Caller

/-- The calls that have no answer yet. -/
def pending (c : Caller) : List Call := (c.missing.map Call.allocate).toList ++ c.calls

/-- The turns that a caller needs at most to have all its answers. -/
def turnsLeft (c : Caller) : Nat := c.missing.toList.length + 2 * c.calls.length

/-- One reading or one writing of the pool. -/
def turn (c : Caller) (pool : NamePool) : Turn :=
  match c.missing, c.calls with
  -- Others may have entered the name since it was missed, so `enter` looks for it again.
  | some n, calls => ⟨some (.allocated n (pool.enter n).1), ⟨none, calls⟩, (pool.enter n).2⟩
  | none, [] => ⟨none, c, pool⟩
  | none, .allocate n :: calls =>
    match pool.lookup n with
    | some id => ⟨some (.allocated n id), ⟨none, calls⟩, pool⟩
    | none => ⟨none, ⟨some n, calls⟩, pool⟩
  | none, call :: calls => ⟨some (pool.perform call).1, ⟨none, calls⟩, (pool.perform call).2⟩

variable {c : Caller}

/-- A turn of a caller that has calls to make either ends the first of them, as the pool would have
answered it at once, or finds that the name it allocates is missing. -/
theorem turn_cases (c : Caller) (pool : NamePool) :
    (c.pending = [] ∧ c.turn pool = ⟨none, c, pool⟩) ∨
    (∃ n calls, c = ⟨none, .allocate n :: calls⟩ ∧
      c.turn pool = ⟨none, ⟨some n, calls⟩, pool⟩) ∨
    ∃ call calls, c.pending = call :: calls ∧
      c.turn pool = ⟨some (pool.perform call).1, ⟨none, calls⟩, (pool.perform call).2⟩ := by
  obtain ⟨_ | n, calls⟩ := c
  · cases calls with
    | nil => exact .inl ⟨rfl, rfl⟩
    | cons call calls =>
      cases call with
      | allocate n =>
        cases hn : pool.lookup n with
        | none => exact .inr (.inl ⟨n, calls, rfl, by simp only [turn, hn]⟩)
        | some id =>
          exact .inr (.inr ⟨_, calls, rfl, by simp only [turn, perform, allocate, hn]⟩)
      | lookup n | name id => exact .inr (.inr ⟨_, calls, rfl, rfl⟩)
  · exact .inr (.inr ⟨.allocate n, calls, rfl, by simp only [turn, perform, allocate_eq_enter]⟩)

theorem turn_pending (c : Caller) (pool : NamePool) :
    (c.turn pool).answer.toList.map Event.call ++ (c.turn pool).caller.pending = c.pending := by
  obtain ⟨-, ht⟩ | ⟨n, calls, rfl, ht⟩ | ⟨call, calls, hc, ht⟩ := c.turn_cases pool
  · rw [ht]; rfl
  · rw [ht]; rfl
  · rw [ht, hc]
    exact congrArg (· :: calls) (call_perform pool call)

theorem turn_run (c : Caller) (pool : NamePool) :
    pool.run ((c.turn pool).answer.toList.map Event.call) =
      ((c.turn pool).answer.toList, (c.turn pool).pool) := by
  obtain ⟨-, ht⟩ | ⟨n, calls, -, ht⟩ | ⟨call, calls, -, ht⟩ := c.turn_cases pool
  · rw [ht]; rfl
  · rw [ht]; rfl
  · rw [ht]
    change pool.run [(pool.perform call).1.call] = _
    rw [call_perform]
    rfl

theorem two_mul_length_pending (c : Caller) :
    2 * c.pending.length = c.turnsLeft + c.missing.toList.length := by
  rw [pending, turnsLeft, List.length_append]
  cases c.missing with
  | none => exact Nat.mul_add ..
  | some n =>
    change 2 * (1 + c.calls.length) = 1 + 2 * c.calls.length + 1
    omega

theorem length_missing_le (c : Caller) : c.missing.toList.length ≤ 1 := by
  cases c.missing with
  | none => exact Nat.zero_le 1
  | some n => exact Nat.le_refl 1

theorem turnsLeft_turn (c : Caller) (pool : NamePool) :
    (c.turn pool).caller.turnsLeft ≤ c.turnsLeft - 1 := by
  have hpending := c.two_mul_length_pending
  have hmissing := c.length_missing_le
  obtain ⟨hc, ht⟩ | ⟨n, calls, rfl, ht⟩ | ⟨call, calls, hc, ht⟩ := c.turn_cases pool
  · rw [hc, List.length_nil] at hpending
    rw [ht]
    change c.turnsLeft ≤ c.turnsLeft - 1
    omega
  · rw [ht]
    change 1 + 2 * calls.length ≤ 0 + 2 * (calls.length + 1) - 1
    omega
  · rw [hc, List.length_cons] at hpending
    rw [ht]
    change 0 + 2 * calls.length ≤ _
    omega

theorem pending_of_turnsLeft (h : c.turnsLeft = 0) : c.pending = [] := by
  have hpending := c.two_mul_length_pending
  have hmissing := c.length_missing_le
  exact List.eq_nil_of_length_eq_zero (by omega)

end Caller

/-- A pool, those who share it and the answers that they have had, each with its caller. -/
structure Sharing where
  callers : Nat → Caller
  pool : NamePool := {}
  history : List (Nat × Event) := []

namespace Sharing

variable {s : Sharing}

/-- Every caller is about to make its calls on a new pool. -/
def start (programs : Nat → List Call) : Sharing := { callers := fun i => { calls := programs i } }

def give (s : Sharing) (i : Nat) : Sharing :=
  let turn := (s.callers i).turn s.pool
  ⟨Function.update s.callers i turn.caller, turn.pool, s.history ++ turn.answer.toList.map (i, ·)⟩

/-- Turns are given to callers in any order. -/
def giveAll (s : Sharing) (turns : List Nat) : Sharing := turns.foldl give s

/-- The answers in the order in which they were given. -/
def events (s : Sharing) : List Event := s.history.map Prod.snd

/-- The calls of a caller that have been answered. -/
def answered (s : Sharing) (i : Nat) : List Call :=
  (s.history.filter (·.1 == i)).map (·.2.call)

theorem callers_give_self (s : Sharing) (i : Nat) :
    (s.give i).callers i = ((s.callers i).turn s.pool).caller :=
  Function.update_self ..

theorem callers_give_of_ne {i j : Nat} (h : i ≠ j) : (s.give i).callers j = s.callers j :=
  Function.update_of_ne h.symm ..

theorem events_give (s : Sharing) (i : Nat) :
    (s.give i).events = s.events ++ ((s.callers i).turn s.pool).answer.toList := by
  simp [events, give, Function.comp_def]

theorem answered_give (s : Sharing) (i j : Nat) :
    (s.give i).answered j = s.answered j ++
      if i = j then ((s.callers i).turn s.pool).answer.toList.map Event.call else [] := by
  rw [answered, give, List.filter_append, List.map_append]
  congr 1
  by_cases h : i = j <;> simp [List.filter_map, h, Function.comp_def]

/-- The answers are those to the same calls one after the other, and every caller has had, or has
yet to get, the answers to its own calls in their order. -/
structure Explained (programs : Nat → List Call) (s : Sharing) : Prop where
  run_events : run {} (s.events.map Event.call) = (s.events, s.pool)
  in_order : ∀ i, s.answered i ++ (s.callers i).pending = programs i

namespace Explained

theorem start (programs : Nat → List Call) : Explained programs (start programs) :=
  ⟨rfl, fun _ => rfl⟩

theorem give (h : Explained programs s) (i : Nat) : Explained programs (s.give i) := by
  constructor
  · rw [events_give, List.map_append, run_append, h.run_events, Caller.turn_run]
    rfl
  · intro j
    rw [answered_give, ← h.in_order j, List.append_assoc]
    congr 1
    by_cases hj : i = j
    · subst hj
      rw [if_pos rfl, callers_give_self, Caller.turn_pending]
    · rw [if_neg hj, callers_give_of_ne hj, List.nil_append]

theorem giveAll (h : Explained programs s) (turns : List Nat) :
    Explained programs (s.giveAll turns) := by
  induction turns generalizing s with
  | nil => exact h
  | cons i turns ih => exact ih (h.give i)

end Explained

/-- Every turn of a caller is one that it needs, as long as it needs any. -/
theorem turnsLeft_giveAll (s : Sharing) (turns : List Nat) (i : Nat) :
    ((s.giveAll turns).callers i).turnsLeft ≤ (s.callers i).turnsLeft - turns.count i := by
  induction turns generalizing s with
  | nil => exact le_rfl
  | cons j turns ih =>
    refine (ih (s.give j)).trans ?_
    have hturn := Caller.turnsLeft_turn (s.callers j) s.pool
    by_cases hj : j = i
    · subst hj
      rw [List.count_cons_self, callers_give_self]
      omega
    · rw [List.count_cons_of_ne hj, callers_give_of_ne hj]

/-- Two turns are enough for each call. -/
theorem answered_of_turns {turns : List Nat} {i : Nat}
    (h : 2 * (programs i).length ≤ turns.count i) :
    ((start programs).giveAll turns).answered i = programs i := by
  have hturns := (start programs).turnsLeft_giveAll turns i
  have hpending : (((start programs).giveAll turns).callers i).pending = [] := by
    refine Caller.pending_of_turnsLeft (Nat.eq_zero_of_le_zero (hturns.trans ?_))
    change 0 + 2 * (programs i).length - _ ≤ 0
    omega
  rw [← ((Explained.start programs).giveAll turns).in_order i, hpending, List.append_nil]

end Sharing

open Sharing (start)

/-- For any calls on a new pool, names and numbers stand for each other as long as there are no
more names than numbers. The same is true of callers that share the pool, whatever turns they take:
their answers are those to some sequence of calls, with the calls of each caller in order, and a
caller has all its answers after two turns for each call. -/
theorem answers_consistent :
    (∀ calls : List Call, (allocatedNames (run {} calls).1).card ≤ UInt32.size →
      Consistent (run {} calls).1) ∧
    ∀ (programs : Nat → List Call) (turns : List Nat),
      let s := (start programs).giveAll turns
      (run {} (s.events.map Event.call)).1 = s.events ∧
      (∀ i, s.answered i <+: programs i) ∧
      (∀ i, 2 * (programs i).length ≤ turns.count i → s.answered i = programs i) ∧
      ((allocatedNames s.events).card ≤ UInt32.size → Consistent s.events) := by
  refine ⟨fun calls => run_consistent, fun programs turns => ?_⟩
  have h := (Sharing.Explained.start programs).giveAll turns
  have hrun : (run {} (((start programs).giveAll turns).events.map Event.call)).1 =
      ((start programs).giveAll turns).events := by
    rw [h.run_events]
  refine ⟨hrun, fun i => ⟨_, h.in_order i⟩, fun i => Sharing.answered_of_turns, fun hcard => ?_⟩
  rw [← hrun] at hcard ⊢
  exact run_consistent hcard

/-- Two callers allocate one name; both find it missing before either enters it. -/
def racing : Nat → List Call
  | 0 => [.allocate (.unqualified "a"), .name 0]
  | 1 => [.allocate (.unqualified "a"), .allocate (.make (some "urn:x") "a"),
      .lookup (.unqualified "a")]
  | _ => []

/-- The one that comes second to enter it is told the number that the first one has had. -/
theorem answers_consistent_racing :
    let turns := [1, 0, 0, 1, 1, 0, 1, 1, 0, 1]
    let s := (start racing).giveAll turns
    s.history = [(0, .allocated (.unqualified "a") 0), (1, .allocated (.unqualified "a") 0),
      (0, .named 0 (some (.unqualified "a"))), (1, .allocated (.make (some "urn:x") "a") 1),
      (1, .lookedUp (.unqualified "a") (some 0))] ∧
    2 * (racing 1).length ≤ turns.count 1 ∧ s.answered 1 = racing 1 ∧
    (allocatedNames s.events).card ≤ UInt32.size ∧ Consistent s.events ∧
    (allocatedNames (run {} (racing 1)).1).card ≤ UInt32.size ∧
    Consistent (run {} (racing 1)).1 := by
  intro turns s
  obtain ⟨halone, hshared⟩ := answers_consistent
  obtain ⟨-, -, hanswered, hconsistent⟩ := hshared racing turns
  have hturns : 2 * (racing 1).length ≤ turns.count 1 := by decide
  have hcard : (allocatedNames s.events).card ≤ UInt32.size := by decide
  have hcardAlone : (allocatedNames (run {} (racing 1)).1).card ≤ UInt32.size := by decide
  exact ⟨rfl, hturns, hanswered 1 hturns, hcard, hconsistent hcard, hcardAlone,
    halone (racing 1) hcardAlone⟩

end PathLanguage.NamePool
