/- What a pool answers to any calls: a number stands for a name from the call that allocates it on,
as long as there are no more names than numbers. -/
import PathLanguage.Name.Pool
import Mathlib.Data.Finset.Card

namespace PathLanguage

namespace Fingerprint

variable {k : Nat}

theorem ofPlace_lt (k : Nat) : ofPlace k < UInt32.size :=
  Nat.lt_of_le_of_lt (Nat.min_le_right k greatest) (by decide)

/-- The places that have numbers of their own. -/
theorem ofPlace_eq (h : k < UInt32.size) : ofPlace k = k := Nat.min_eq_left (Nat.le_pred_of_lt h)

end Fingerprint

namespace NamePool

open Fingerprint (ofPlace)

variable {pool : NamePool} {n m : ExpandedName} {id : Fingerprint}

/-- A writing does alone what the whole allocation does, since it looks for the name again. -/
theorem allocate_eq_enter (pool : NamePool) (n : ExpandedName) :
    pool.allocate n = pool.enter n := by
  unfold allocate enter
  cases pool.lookup n <;> rfl

theorem enter_of_some (h : pool.lookup n = some id) : pool.enter n = (id, pool) := by
  rw [enter, h]

theorem enter_of_none (h : pool.lookup n = none) :
    pool.enter n = (ofPlace pool.names.length,
      ⟨(n, ofPlace pool.names.length) :: pool.numbers, pool.names ++ [n]⟩) := by
  rw [enter, h]

/-- The name that is entered has the number that is given, and all others keep theirs. -/
theorem lookup_enter (pool : NamePool) (n m : ExpandedName) :
    (pool.enter n).2.lookup m = if m = n then some (pool.enter n).1 else pool.lookup m := by
  cases h : pool.lookup n with
  | some id =>
    rw [enter_of_some h]
    split
    · next he => rw [he, h]
    · rfl
  | none =>
    rw [enter_of_none h, lookup, List.lookup_cons]
    by_cases he : m = n
    · rw [beq_iff_eq.mpr he, if_pos he]
    · rw [beq_eq_false_iff_ne.mpr he, if_neg he]
      rfl

/-- The names and their numbers are each other's inverse: no name stands twice, and the number of a
name is that of its place. -/
structure Coherent (pool : NamePool) : Prop where
  nodup : pool.names.Nodup
  lookup_iff : ∀ n id, pool.lookup n = some id ↔ ∃ k, pool.names[k]? = some n ∧ id = ofPlace k

namespace Coherent

theorem empty : Coherent {} :=
  ⟨List.nodup_nil, fun _ _ => iff_of_false nofun fun ⟨_, h, _⟩ => nomatch h⟩

theorem mem_names_iff (h : pool.Coherent) : n ∈ pool.names ↔ ∃ id, pool.lookup n = some id := by
  rw [List.mem_iff_getElem?]
  constructor
  · rintro ⟨k, hk⟩
    exact ⟨ofPlace k, (h.lookup_iff n _).mpr ⟨k, hk, rfl⟩⟩
  · rintro ⟨id, hid⟩
    obtain ⟨k, hk, -⟩ := (h.lookup_iff n id).mp hid
    exact ⟨k, hk⟩

theorem enter (h : pool.Coherent) (n : ExpandedName) : (pool.enter n).2.Coherent := by
  cases hn : pool.lookup n with
  | some id =>
    rw [enter_of_some hn]
    exact h
  | none =>
    have hnew : n ∉ pool.names := fun hmem => by
      obtain ⟨id, hid⟩ := h.mem_names_iff.mp hmem
      exact nomatch hn.symm.trans hid
    have hplace (m : ExpandedName) (k : Nat) : (pool.names ++ [n])[k]? = some m ↔
        pool.names[k]? = some m ∨ k = pool.names.length ∧ m = n := by
      grind
    constructor
    · rw [enter_of_none hn]
      exact List.nodup_append_comm.mp (List.nodup_cons.mpr ⟨hnew, h.nodup⟩)
    · intro m id
      rw [lookup_enter, enter_of_none hn]
      simp only [hplace, or_and_right, exists_or, and_assoc, exists_eq_left, ← h.lookup_iff]
      by_cases he : m = n
      · rw [if_pos he, he, hn, Option.some_inj, eq_comm]
        exact ⟨fun hid => .inr ⟨rfl, hid⟩, fun hid => (hid.resolve_left nofun).2⟩
      · rw [if_neg he]
        exact ⟨.inl, fun hid => hid.resolve_right fun hr => he hr.1⟩

/-- A name can be read off its number while there are no more names than numbers. -/
theorem name_eq_some_iff (h : pool.Coherent) (hsize : pool.names.length ≤ UInt32.size) :
    pool.name id = some n ↔ pool.lookup n = some id := by
  have hown {k : Nat} (hk : pool.names[k]? = some n) : ofPlace k = k :=
    Fingerprint.ofPlace_eq (Nat.lt_of_lt_of_le (List.getElem?_eq_some_iff.mp hk).choose hsize)
  rw [h.lookup_iff, name]
  constructor
  · intro hid
    exact ⟨id, hid, (hown hid).symm⟩
  · rintro ⟨k, hk, rfl⟩
    rw [hown hk]
    exact hk

end Coherent

/-- A call on a pool. -/
inductive Call where
  | allocate (name : ExpandedName)
  | lookup (name : ExpandedName)
  | name (id : Fingerprint)

/-- A call with the answer to it. -/
inductive Event where
  | allocated (name : ExpandedName) (id : Fingerprint)
  | lookedUp (name : ExpandedName) (answer : Option Fingerprint)
  | named (id : Fingerprint) (answer : Option ExpandedName)

namespace Event

def call : Event → Call
  | .allocated name _ => .allocate name
  | .lookedUp name _ => .lookup name
  | .named id _ => .name id

def allocatedName? : Event → Option ExpandedName
  | .allocated name _ => some name
  | .lookedUp .. | .named .. => none

end Event

def perform (pool : NamePool) : Call → Event × NamePool
  | .allocate name => (.allocated name (pool.allocate name).1, (pool.allocate name).2)
  | .lookup name => (.lookedUp name (pool.lookup name), pool)
  | .name id => (.named id (pool.name id), pool)

/-- The answers to some calls, one after the other. -/
def run (pool : NamePool) : List Call → List Event × NamePool
  | [] => ([], pool)
  | call :: calls =>
    let first := pool.perform call
    let rest := first.2.run calls
    (first.1 :: rest.1, rest.2)

/-- The names that a pool has been given to allocate. -/
def allocatedNames (events : List Event) : Finset ExpandedName :=
  (events.filterMap Event.allocatedName?).toFinset

variable {past future events : List Event} {e : Event} {call : Call} {calls : List Call}

theorem mem_allocatedNames : n ∈ allocatedNames events ↔ ∃ id, .allocated n id ∈ events := by
  rw [allocatedNames, List.mem_toFinset, List.mem_filterMap]
  constructor
  · rintro ⟨e, he, hn⟩
    cases e <;> cases hn
    exact ⟨_, he⟩
  · rintro ⟨id, hid⟩
    exact ⟨_, hid, rfl⟩

theorem allocatedNames_mono (h : past ⊆ events) : allocatedNames past ⊆ allocatedNames events := by
  intro n hn
  obtain ⟨id, hid⟩ := mem_allocatedNames.mp hn
  exact mem_allocatedNames.mpr ⟨id, h hid⟩

theorem call_perform (pool : NamePool) (call : Call) : (pool.perform call).1.call = call := by
  cases call <;> rfl

/-- A pool is as its answers in the past have left it. -/
structure Reflects (pool : NamePool) (past : List Event) : Prop where
  coherent : pool.Coherent
  allocated_iff : ∀ n id, .allocated n id ∈ past ↔ pool.lookup n = some id

/-- The numbers that allocations give tell their names apart, and each name has one only. -/
def Distinguishes (events : List Event) : Prop :=
  ∀ n m a b, .allocated n a ∈ events → .allocated m b ∈ events → (a = b ↔ n = m)

namespace Reflects

theorem empty : Reflects {} [] := ⟨.empty, fun _ _ => iff_of_false nofun nofun⟩

theorem perform (h : pool.Reflects past) (call : Call) :
    (pool.perform call).2.Reflects (past ++ [(pool.perform call).1]) := by
  cases call with
  | allocate n =>
    simp only [NamePool.perform, allocate_eq_enter]
    refine ⟨h.coherent.enter n, fun m id => ?_⟩
    rw [lookup_enter, List.mem_append, List.mem_singleton, Event.allocated.injEq, h.allocated_iff]
    by_cases he : m = n
    · rw [if_pos he, he, Option.some_inj]
      constructor
      · rintro (hid | ⟨-, rfl⟩)
        · rw [enter_of_some hid]
        · rfl
      · exact fun hid => .inr ⟨rfl, hid.symm⟩
    · rw [if_neg he]
      exact ⟨fun hid => hid.resolve_right fun hr => he hr.1, .inl⟩
  | lookup n | name id =>
    refine ⟨h.coherent, fun m id => ?_⟩
    rw [List.mem_append, List.mem_singleton, h.allocated_iff]
    exact ⟨fun hid => hid.resolve_right nofun, .inl⟩

theorem run (h : pool.Reflects past) (calls : List Call) :
    (pool.run calls).2.Reflects (past ++ (pool.run calls).1) := by
  induction calls generalizing pool past with
  | nil => exact (List.append_nil past).symm ▸ h
  | cons call calls ih =>
    have hrest := ih (h.perform call)
    rw [List.append_assoc] at hrest
    exact hrest

theorem length_names (h : pool.Reflects past) :
    pool.names.length = (allocatedNames past).card := by
  rw [← List.toFinset_card_of_nodup h.coherent.nodup]
  congr 1
  ext n
  simp only [List.mem_toFinset, h.coherent.mem_names_iff, mem_allocatedNames, h.allocated_iff]

theorem allocated_lt (h : pool.Reflects past) (hid : .allocated n id ∈ past) :
    id < UInt32.size := by
  obtain ⟨k, -, rfl⟩ := (h.coherent.lookup_iff n id).mp ((h.allocated_iff n id).mp hid)
  exact Fingerprint.ofPlace_lt k

theorem name_eq_some_iff (h : pool.Reflects past)
    (hcard : (allocatedNames past).card ≤ UInt32.size) :
    pool.name id = some n ↔ .allocated n id ∈ past := by
  rw [h.allocated_iff, h.coherent.name_eq_some_iff (h.length_names.trans_le hcard)]

/-- The numbers tell the names apart just as long as there are enough of them. -/
theorem distinguishes_iff (h : pool.Reflects past) :
    Distinguishes past ↔ (allocatedNames past).card ≤ UInt32.size := by
  constructor
  · intro hd
    -- Each name has a number of its own, and there are no more than these.
    have hnumbered : ∀ n ∈ allocatedNames past, ∃ id, .allocated n id ∈ past :=
      fun _ => mem_allocatedNames.mp
    choose! number hnumber using hnumbered
    rw [← Finset.card_range UInt32.size]
    refine Finset.card_le_card_of_injOn number (fun n hn => ?_) fun n hn m hm he => ?_
    · exact Finset.mem_coe.mpr (Finset.mem_range.mpr (h.allocated_lt (hnumber n hn)))
    · exact (hd n m _ _ (hnumber n hn) (hnumber m hm)).mp he
  · intro hcard n m a b ha hb
    constructor
    · rintro rfl
      exact Option.some_inj.mp
        (((h.name_eq_some_iff hcard).mpr ha).symm.trans ((h.name_eq_some_iff hcard).mpr hb))
    · rintro rfl
      exact Option.some_inj.mp
        (((h.allocated_iff n a).mp ha).symm.trans ((h.allocated_iff n b).mp hb))

end Reflects

/-- What is answered in the course of some calls is the answer of the pool to the calls before. -/
theorem perform_of_run (h : (pool.run calls).1 = past ++ e :: future) :
    ∃ mid, pool.run (past.map Event.call) = (past, mid) ∧ (mid.perform e.call).1 = e := by
  induction past generalizing pool calls with
  | nil =>
    cases calls with
    | nil => cases h
    | cons call calls =>
      obtain ⟨he, -⟩ := List.cons.inj h
      refine ⟨pool, rfl, ?_⟩
      rw [← he, call_perform]
  | cons first past ih =>
    cases calls with
    | nil => cases h
    | cons call calls =>
      obtain ⟨hfirst, hrest⟩ := List.cons.inj h
      obtain ⟨mid, hmid, he⟩ := ih hrest
      refine ⟨mid, ?_, he⟩
      rw [List.map_cons, ← hfirst, call_perform, run, hmid]

/-- Names and numbers stand for each other in what a pool has answered. -/
structure Consistent (events : List Event) : Prop where
  /-- Two allocations give the same number just if they are of the same name. -/
  distinguishes : Distinguishes events
  /-- Numbers are 32 bits wide. -/
  allocated_lt : ∀ n id, .allocated n id ∈ events → id < UInt32.size
  /-- A name is found just if it has been allocated, and with the number that it has had since. -/
  lookedUp_iff : ∀ past future n answer, events = past ++ .lookedUp n answer :: future →
    ∀ id, answer = some id ↔ .allocated n id ∈ past
  /-- A number has a name just if an allocation has given it, and the name is that one's. -/
  named_iff : ∀ past future id answer, events = past ++ .named id answer :: future →
    ∀ n, answer = some n ↔ .allocated n id ∈ past

theorem run_consistent (h : (allocatedNames (run {} calls).1).card ≤ UInt32.size) :
    Consistent (run {} calls).1 := by
  have hall : (run {} calls).2.Reflects (run {} calls).1 := Reflects.empty.run calls
  have hpast {past : List Event} {mid : NamePool}
      (hmid : run {} (past.map Event.call) = (past, mid)) : mid.Reflects past := by
    have hrun := Reflects.empty.run (past.map Event.call)
    rw [hmid] at hrun
    exact hrun
  refine ⟨hall.distinguishes_iff.mpr h, fun _ _ => hall.allocated_lt, ?_, ?_⟩
  · intro past future n answer hsplit id
    obtain ⟨mid, hmid, he⟩ := perform_of_run hsplit
    cases he
    exact ((hpast hmid).allocated_iff n id).symm
  · intro past future id answer hsplit n
    obtain ⟨mid, hmid, he⟩ := perform_of_run hsplit
    cases he
    refine (hpast hmid).name_eq_some_iff (le_trans (Finset.card_le_card ?_) h)
    exact allocatedNames_mono (hsplit ▸ List.subset_append_left past _)

end NamePool

end PathLanguage
