/- A call runs the narrowest of the host functions that were registered for it, whatever the order
in which they were registered. -/
import PathLanguage.Evaluation.Transformation
import Mathlib.Data.Prod.Lex
import Mathlib.Data.List.Induction
import Mathlib.Data.List.Nodup
import Mathlib.Order.WithBot

namespace PathLanguage

/-- What a host says of a function when it registers it. -/
structure Registration where
  name : ExpandedName
  least : Nat
  most : Option Nat
  run : HostFunction

namespace Registration

/-- Whether calls of a function with a number of arguments are in the range of a registration. -/
def Serves (r : Registration) (name : ExpandedName) (arity : Nat) : Prop :=
  r.name = name ∧ r.least ≤ arity ∧ ∀ m, r.most = some m → arity ≤ m

/-- The greatest number of arguments, the largest of all where there is no limit. -/
def greatest (r : Registration) : WithTop Nat :=
  match r.most with
  | some m => WithTop.some m
  | none => ⊤

/-- Whether one range is narrower than another: by a higher least number of arguments, then by a
smaller greatest number. -/
def Narrower (r s : Registration) : Prop :=
  s.least < r.least ∨ r.least = s.least ∧ r.greatest < s.greatest

/-- The name and the range. -/
def signature (r : Registration) : ExpandedName × Nat × Option Nat := (r.name, r.least, r.most)

/-- Ranges along the line from the narrowest on. -/
def range (r : Registration) : Natᵒᵈ ×ₗ WithTop Nat :=
  toLex (OrderDual.toDual r.least, r.greatest)

theorem narrower_iff {r s : Registration} : r.Narrower s ↔ r.range < s.range := by
  rw [range, range, Prod.Lex.toLex_lt_toLex, OrderDual.toDual_lt_toDual,
    OrderDual.toDual_inj]
  rfl

theorem greatest_inj {r s : Registration} : r.greatest = s.greatest ↔ r.most = s.most := by
  unfold greatest
  cases r.most <;> cases s.most <;> simp

theorem range_inj {r s : Registration} :
    r.range = s.range ↔ r.least = s.least ∧ r.most = s.most := by
  rw [range, range, toLex_inj, Prod.mk.injEq, OrderDual.toDual_inj, greatest_inj]

theorem signature_inj {r s : Registration} :
    r.signature = s.signature ↔ r.name = s.name ∧ r.range = s.range := by
  rw [signature, signature, range_inj, Prod.mk.injEq, Prod.mk.injEq]

end Registration

namespace Overload

variable {o p : Overload} {l : List Overload}

/-- What an overload was registered with. -/
def registration (o : Overload) : Registration := ⟨o.name, o.least, o.most, o.run⟩

/-- Overloads along the line in which they are tried: by their ranges, then as they came. -/
def place (o : Overload) : (Natᵒᵈ ×ₗ WithTop Nat) ×ₗ Nat := toLex (o.registration.range, o.serial)

theorem place_le_iff : o.place ≤ p.place ↔
    o.registration.Narrower p.registration ∨
      (o.least = p.least ∧ o.most = p.most) ∧ o.serial ≤ p.serial := by
  rw [place, place, Prod.Lex.toLex_le_toLex, Registration.narrower_iff, Registration.range_inj]
  rfl

theorem ext_registration (h : o.registration = p.registration) (hs : o.serial = p.serial) :
    o = p := by
  cases o
  cases p
  cases hs
  cases h
  rfl

theorem ranksBefore_iff : o.ranksBefore p ↔ o.registration.Narrower p.registration := by
  unfold ranksBefore Registration.Narrower
  rw [Bool.or_eq_true, Bool.and_eq_true, decide_eq_true_iff, beq_iff_eq]
  refine or_congr Iff.rfl (and_congr Iff.rfl ?_)
  unfold Registration.greatest registration
  cases o.most with
  | none => exact iff_of_false nofun not_top_lt
  | some m =>
    cases p.most with
    | none => exact iff_of_true rfl (WithTop.coe_lt_top m)
    | some n => exact decide_eq_true_iff.trans WithTop.coe_lt_coe.symm

theorem serves_iff {name : ExpandedName} {arity : Nat} :
    (o.name == name && o.takes arity) = true ↔ o.registration.Serves name arity := by
  unfold takes Registration.Serves
  rw [Bool.and_eq_true, Bool.and_eq_true, beq_iff_eq, decide_eq_true_iff]
  refine and_congr Iff.rfl (and_congr Iff.rfl ?_)
  change _ ↔ ∀ m, o.most = some m → arity ≤ m
  cases o.most <;> simp

theorem insert_perm (o : Overload) (l : List Overload) : (insert o l).Perm (o :: l) := by
  induction l with
  | nil => exact .refl _
  | cons p rest ih =>
    rw [insert]
    split
    · exact .refl _
    · exact (ih.cons p).trans (.swap o p rest)

/-- A new overload goes behind those of the same range, all of which came before it. -/
theorem insert_ascends (hl : l.Pairwise (·.place < ·.place)) (hnew : ∀ p ∈ l, p.serial < o.serial) :
    (insert o l).Pairwise (·.place < ·.place) := by
  induction l with
  | nil => exact List.pairwise_singleton _ _
  | cons p rest ih =>
    obtain ⟨hp, hrest⟩ := List.pairwise_cons.mp hl
    rw [insert]
    split
    · next hbefore =>
      have hop : o.place < p.place :=
        Prod.Lex.toLex_lt_toLex.mpr
          (.inl (Registration.narrower_iff.mp (ranksBefore_iff.mp hbefore)))
      refine List.pairwise_cons.mpr ⟨fun q hq => ?_, hl⟩
      cases hq with
      | head => exact hop
      | tail _ hq => exact hop.trans (hp q hq)
    · next hbehind =>
      have hpo : p.place < o.place := by
        rw [ranksBefore_iff, Registration.narrower_iff, not_lt] at hbehind
        obtain hlt | heq := hbehind.lt_or_eq
        · exact Prod.Lex.toLex_lt_toLex.mpr (.inl hlt)
        · exact Prod.Lex.toLex_lt_toLex.mpr (.inr ⟨heq, hnew p (List.mem_cons_self ..)⟩)
      refine List.pairwise_cons.mpr ⟨fun q hq => ?_, ih hrest fun q hq => hnew q (.tail _ hq)⟩
      cases (insert_perm o rest).mem_iff.mp hq with
      | head => exact hpo
      | tail _ hq => exact hp q hq

/-- The first overload that passes a test is the foremost of all that do. -/
theorem find?_eq_some_iff (hl : l.Pairwise (·.place < ·.place)) {test : Overload → Bool} :
    l.find? test = some o ↔ o ∈ l ∧ test o ∧ ∀ p ∈ l, test p → o.place ≤ p.place := by
  induction l with
  | nil => simp
  | cons q rest ih =>
    obtain ⟨hq, hrest⟩ := List.pairwise_cons.mp hl
    by_cases htest : test q
    · rw [List.find?_cons_of_pos htest, Option.some.injEq]
      constructor
      · rintro rfl
        refine ⟨List.mem_cons_self .., htest, fun p hp _ => ?_⟩
        cases hp with
        | head => exact le_rfl
        | tail _ hp => exact (hq p hp).le
      · rintro ⟨ho, -, hleast⟩
        cases ho with
        | head => rfl
        | tail _ ho => exact absurd (hleast q (List.mem_cons_self ..) htest) (hq o ho).not_ge
    · rw [List.find?_cons_of_neg htest, ih hrest]
      constructor
      · rintro ⟨ho, hto, hleast⟩
        refine ⟨.tail _ ho, hto, fun p hp htp => ?_⟩
        cases hp with
        | head => exact absurd htp htest
        | tail _ hp => exact hleast p hp htp
      · rintro ⟨ho, hto, hleast⟩
        cases ho with
        | head => exact absurd hto htest
        | tail _ ho => exact ⟨ho, hto, fun p hp => hleast p (.tail _ hp)⟩

end Overload

namespace FunctionLibrary

variable {l : FunctionLibrary} {rs rs' : List Registration} {name : ExpandedName} {arity : Nat}

/-- The library of a host that registers functions one after another. -/
def registering (rs : List Registration) : FunctionLibrary :=
  rs.foldl (fun l r => l.register r.name r.least r.most r.run) {}

/-- A library has an overload for each of some registrations, the first to be tried in front. -/
structure Records (l : FunctionLibrary) (rs : List Registration) : Prop where
  length : l.overloads.length = rs.length
  mem_iff : ∀ o, o ∈ l.overloads ↔ rs[o.serial]? = some o.registration
  ascends : l.overloads.Pairwise (·.place < ·.place)

/-- A registration runs for a call: none that serves the call has a narrower range, and none of the
same range came earlier. -/
structure Prevails (rs : List Registration) (name : ExpandedName) (arity : Nat) (i : Nat)
    (r : Registration) : Prop where
  registered : rs[i]? = some r
  serves : r.Serves name arity
  foremost : ∀ j s, rs[j]? = some s → s.Serves name arity →
    r.Narrower s ∨ (r.least = s.least ∧ r.most = s.most) ∧ i ≤ j

theorem Prevails.range_le {i j : Nat} {r s : Registration} (h : Prevails rs name arity i r)
    (hj : rs[j]? = some s) (hs : s.Serves name arity) : r.range ≤ s.range := by
  obtain hlt | heq := h.foremost j s hj hs
  · exact (Registration.narrower_iff.mp hlt).le
  · exact (Registration.range_inj.mpr heq.1).le

/-- One more registration adds its overload. -/
theorem Records.register (h : l.Records rs) (r : Registration) :
    (l.register r.name r.least r.most r.run).Records (rs ++ [r]) := by
  set new : Overload := ⟨r.name, r.least, r.most, l.overloads.length, r.run⟩
  have hperm : (Overload.insert new l.overloads).Perm (new :: l.overloads) :=
    Overload.insert_perm new l.overloads
  have hserial : ∀ p ∈ l.overloads, p.serial < rs.length := by
    intro p hp
    exact (List.getElem?_eq_some_iff.mp ((h.mem_iff p).mp hp)).1
  constructor
  · change (Overload.insert new l.overloads).length = _
    rw [hperm.length_eq, List.length_cons, List.length_append, h.length, List.length_singleton]
  · intro o
    change o ∈ Overload.insert new l.overloads ↔ _
    rw [hperm.mem_iff, List.mem_cons, h.mem_iff]
    obtain hlt | heq | hgt := lt_trichotomy o.serial rs.length
    · rw [List.getElem?_append_left hlt]
      refine or_iff_right fun ho => hlt.ne ?_
      rw [ho]
      exact h.length
    · rw [heq, List.getElem?_concat_length, List.getElem?_eq_none le_rfl, Option.some.injEq]
      constructor
      · rintro (rfl | ⟨⟨⟩⟩)
        rfl
      · intro hr
        exact .inl (Overload.ext_registration hr.symm (heq.trans h.length.symm))
    · rw [List.getElem?_eq_none hgt.le,
        List.getElem?_eq_none (by rw [List.length_append, List.length_singleton]; omega)]
      refine iff_of_false ?_ nofun
      rintro (rfl | ⟨⟨⟩⟩)
      exact hgt.ne h.length.symm
  · refine Overload.insert_ascends h.ascends fun p hp => ?_
    change p.serial < l.overloads.length
    rw [h.length]
    exact hserial p hp

/-- A library records what was registered. -/
theorem registering_records (rs : List Registration) : (registering rs).Records rs := by
  induction rs using List.reverseRecOn with
  | nil => exact ⟨rfl, fun o => iff_of_false List.not_mem_nil nofun, .nil⟩
  | append_singleton rs r ih =>
    rw [registering, List.foldl_concat]
    exact ih.register r

namespace Records

theorem contains_iff (h : l.Records rs) : l.contains name ↔ ∃ r ∈ rs, r.name = name := by
  rw [contains, List.any_eq_true]
  constructor
  · rintro ⟨o, ho, hname⟩
    exact ⟨o.registration, List.mem_of_getElem? ((h.mem_iff o).mp ho), eq_of_beq hname⟩
  · rintro ⟨r, hr, rfl⟩
    obtain ⟨i, hi⟩ := List.mem_iff_getElem?.mp hr
    exact ⟨⟨r.name, r.least, r.most, i, r.run⟩, (h.mem_iff _).mpr hi, beq_self_eq_true _⟩

/-- A registration that serves a call is found. -/
theorem find?_eq_none_iff (h : l.Records rs) :
    (l.overloads.find? fun o => o.name == name && o.takes arity) = none ↔
      ∀ r ∈ rs, ¬ r.Serves name arity := by
  rw [List.find?_eq_none]
  constructor
  · intro hnone r hr hserves
    obtain ⟨i, hi⟩ := List.mem_iff_getElem?.mp hr
    exact hnone ⟨r.name, r.least, r.most, i, r.run⟩ ((h.mem_iff _).mpr hi)
      (Overload.serves_iff.mpr hserves)
  · intro hnone o ho htest
    exact hnone o.registration (List.mem_of_getElem? ((h.mem_iff o).mp ho))
      (Overload.serves_iff.mp htest)

theorem resolve_eq_ok_iff (h : l.Records rs) {o : Overload} :
    l.resolve name arity = .ok o ↔ Prevails rs name arity o.serial o.registration := by
  have hfind : l.resolve name arity = .ok o ↔
      (l.overloads.find? fun o => o.name == name && o.takes arity) = some o := by
    unfold resolve
    split
    · next p hp => rw [hp, Except.ok.injEq, Option.some.injEq]
    · next hp =>
      rw [hp]
      refine iff_of_false ?_ nofun
      split <;> exact nofun
  rw [hfind, Overload.find?_eq_some_iff h.ascends, h.mem_iff, Overload.serves_iff]
  constructor
  · rintro ⟨hreg, hserves, hleast⟩
    refine ⟨hreg, hserves, fun j r hj hr => ?_⟩
    exact Overload.place_le_iff.mp (hleast ⟨r.name, r.least, r.most, j, r.run⟩
      ((h.mem_iff _).mpr hj) (Overload.serves_iff.mpr hr))
  · intro hprevails
    refine ⟨hprevails.registered, hprevails.serves, fun p hp htest => ?_⟩
    exact Overload.place_le_iff.mpr (hprevails.foremost p.serial p.registration
      ((h.mem_iff p).mp hp) (Overload.serves_iff.mp htest))

theorem resolve_eq_unknown_iff (h : l.Records rs) :
    l.resolve name arity = .error (.unknown name) ↔ ∀ r ∈ rs, r.name ≠ name := by
  have hiff : (∀ r ∈ rs, r.name ≠ name) ↔ ¬ l.contains name := by
    rw [h.contains_iff]
    simp only [not_exists, not_and]
  rw [hiff]
  unfold resolve
  split
  · next o ho =>
    have htest := List.find?_some ho
    exact iff_of_false nofun (not_not_intro (List.any_eq_true.mpr
      ⟨o, List.mem_of_find?_eq_some ho, (Bool.and_eq_true_iff.mp htest).1⟩))
  · split
    · next hc => exact iff_of_false nofun (not_not_intro hc)
    · next hc => exact iff_of_true rfl hc

theorem resolve_eq_wrongArity_iff (h : l.Records rs) :
    l.resolve name arity = .error (.wrongArity name arity) ↔
      (∃ r ∈ rs, r.name = name) ∧ ∀ r ∈ rs, ¬ r.Serves name arity := by
  rw [← h.contains_iff, ← h.find?_eq_none_iff]
  unfold resolve
  split
  · next o ho => rw [ho]; exact iff_of_false nofun fun hn => nomatch hn.2
  · next hn =>
    split
    · next hc => exact iff_of_true rfl ⟨hc, hn⟩
    · next hc => exact iff_of_false nofun fun hn => hc hn.1

/-- A call that some registration serves runs. -/
theorem resolve_of_serves (h : l.Records rs) (hs : ∃ r ∈ rs, r.Serves name arity) :
    ∃ o, l.resolve name arity = .ok o := by
  obtain ⟨r, hr, hserves⟩ := hs
  cases hres : l.resolve name arity with
  | ok o => exact ⟨o, rfl⟩
  | error f =>
    exfalso
    unfold resolve at hres
    split at hres
    · cases hres
    · next hn => exact h.find?_eq_none_iff.mp hn r hr hserves

/-- Two libraries with the same registrations, no two of which have the same name and range, run the
same function for a call. -/
theorem resolve_ok_of_mem_iff {l' : FunctionLibrary} (h : l.Records rs) (h' : l'.Records rs')
    (hmem : ∀ r, r ∈ rs ↔ r ∈ rs') (hinj : ∀ r ∈ rs, ∀ s ∈ rs, r.signature = s.signature → r = s)
    {o o' : Overload} (ho : l.resolve name arity = .ok o) (ho' : l'.resolve name arity = .ok o') :
    o'.registration = o.registration := by
  have hp := h.resolve_eq_ok_iff.mp ho
  have hp' := h'.resolve_eq_ok_iff.mp ho'
  have hin : o.registration ∈ rs := List.mem_of_getElem? hp.registered
  have hin' : o'.registration ∈ rs := (hmem _).mpr (List.mem_of_getElem? hp'.registered)
  refine hinj _ hin' _ hin (Registration.signature_inj.mpr
    ⟨hp'.serves.1.trans hp.serves.1.symm, le_antisymm ?_ ?_⟩)
  · obtain ⟨j, hj⟩ := List.mem_iff_getElem?.mp ((hmem _).mp hin)
    exact hp'.range_le hj hp.serves
  · obtain ⟨j, hj⟩ := List.mem_iff_getElem?.mp hin'
    exact hp.range_le hj hp'.serves

end Records

/-- A call of a host function fails as unknown just if the name was never registered and for its
number of arguments just if no range of that name has it; else the earliest of the narrowest ranges
that have it answers, and where no two ranges are the same, the order of registering makes no
difference. -/
theorem resolve_registering (rs : List Registration) (name : ExpandedName) (arity : Nat) :
    ((registering rs).resolve name arity = .error (.unknown name) ↔ ∀ r ∈ rs, r.name ≠ name) ∧
    ((registering rs).resolve name arity = .error (.wrongArity name arity) ↔
      (∃ r ∈ rs, r.name = name) ∧ ∀ r ∈ rs, ¬ r.Serves name arity) ∧
    ((∃ r ∈ rs, r.Serves name arity) → ∃ o, (registering rs).resolve name arity = .ok o ∧
      Prevails rs name arity o.serial o.registration) ∧
    ∀ rs', rs.Perm rs' → (rs.map Registration.signature).Nodup →
      ((registering rs').resolve name arity).map Overload.registration =
        ((registering rs).resolve name arity).map Overload.registration := by
  have h := registering_records rs
  refine ⟨h.resolve_eq_unknown_iff, h.resolve_eq_wrongArity_iff, ?_, ?_⟩
  · intro hs
    obtain ⟨o, ho⟩ := h.resolve_of_serves hs
    exact ⟨o, ho, h.resolve_eq_ok_iff.mp ho⟩
  · intro rs' hperm hnodup
    have h' := registering_records rs'
    by_cases hs : ∃ r ∈ rs, r.Serves name arity
    · obtain ⟨o, ho⟩ := h.resolve_of_serves hs
      obtain ⟨r, hr, hserves⟩ := hs
      obtain ⟨o', ho'⟩ := h'.resolve_of_serves ⟨r, hperm.mem_iff.mp hr, hserves⟩
      rw [ho, ho']
      exact congrArg Except.ok (h.resolve_ok_of_mem_iff h' (fun _ => hperm.mem_iff)
        (fun _ hr _ hs => List.inj_on_of_nodup_map hnodup hr hs) ho ho')
    · have hnone : ∀ r ∈ rs, ¬ r.Serves name arity := fun r hr hserves => hs ⟨r, hr, hserves⟩
      have hnone' : ∀ r ∈ rs', ¬ r.Serves name arity := fun r hr => hnone r (hperm.mem_iff.mpr hr)
      by_cases hname : ∃ r ∈ rs, r.name = name
      · obtain ⟨r, hr, hrn⟩ := hname
        rw [h.resolve_eq_wrongArity_iff.mpr ⟨⟨r, hr, hrn⟩, hnone⟩,
          h'.resolve_eq_wrongArity_iff.mpr ⟨⟨r, hperm.mem_iff.mp hr, hrn⟩, hnone'⟩]
      · have hnever : ∀ r ∈ rs, r.name ≠ name := fun r hr hrn => hname ⟨r, hr, hrn⟩
        rw [h.resolve_eq_unknown_iff.mpr hnever,
          h'.resolve_eq_unknown_iff.mpr fun r hr => hnever r (hperm.mem_iff.mpr hr)]

/-- A function of one name for any call, one for calls with an argument and one for calls with
exactly one. -/
def overlapping : List Registration :=
  [(0, none, "any"), (1, none, "some"), (1, some 1, "one")].map fun (least, most, answer) =>
    ⟨⟨some "urn:host", "pick"⟩, least, most, fun _ _ => pure (.string answer)⟩

/-- Registered the other way round, they answer the same call. -/
theorem resolve_registering_overlapping :
    (∃ o, (registering overlapping).resolve ⟨some "urn:host", "pick"⟩ 1 = .ok o ∧
      Prevails overlapping ⟨some "urn:host", "pick"⟩ 1 o.serial o.registration ∧ o.serial = 2) ∧
    ((registering overlapping.reverse).resolve ⟨some "urn:host", "pick"⟩ 1).map
        Overload.registration =
      ((registering overlapping).resolve ⟨some "urn:host", "pick"⟩ 1).map
        Overload.registration := by
  have h := resolve_registering overlapping ⟨some "urn:host", "pick"⟩ 1
  have hserves : ∃ r ∈ overlapping, r.Serves ⟨some "urn:host", "pick"⟩ 1 :=
    ⟨_, .head _, rfl, by decide, nofun⟩
  constructor
  · obtain ⟨o, ho, hprevails⟩ := h.2.2.1 hserves
    refine ⟨o, ho, hprevails, ?_⟩
    cases ho
    rfl
  · exact h.2.2.2 overlapping.reverse overlapping.reverse_perm.symm (by decide)

end FunctionLibrary

end PathLanguage
