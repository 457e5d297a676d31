/- Lookups end if no key uses itself, and with them all evaluations: variables that refer to
themselves are noticed, keys that do are not. -/
import Mathlib.Data.Fintype.Card
import Mathlib.Data.Set.Finite.List
import Mathlib.Logic.Relation
import PathLanguage.Proofs.Bindings.Evaluation
import PathLanguage.Proofs.Key.Sharing
import PathLanguage.Proofs.Termination.Evaluation

namespace PathLanguage

variable {T : Transformation} {G : Globals → Prop} {A : Allowance} {c : Context}

def PositionCheck.Within (T : Transformation) (A : Allowance) : PositionCheck → Prop
  | .among e => e.Within T A
  | .none | .first | .last => True

structure PatternStep.Within (T : Transformation) (A : Allowance) (s : PatternStep) : Prop where
  predicates : ∀ p ∈ s.predicates, p.Within T A
  check : s.check.Within T A

namespace Pattern

/-- All that a pattern uses is allowed. -/
def Within (T : Transformation) (A : Allowance) : Pattern → Prop
  | .step s => s.Within T A
  | .under _ upper s => upper.Within T A ∧ s.Within T A
  | .key name _ => A.key name
  | .union a b => a.Within T A ∧ b.Within T A
  | .document | .test _ | .id _ => True

theorem holdAll_ends {ps : List Expr} (h : ∀ p ∈ ps, p.Answers T G) (hc : c.Readable T) :
    Ends T G (fun E => holdAll E c ps) fun _ => True := by
  induction ps with
  | nil => exact .pure trivial
  | cons p ps ih =>
    obtain ⟨hp, hps⟩ := List.forall_mem_cons.mp h
    exact (hp.boolean hc).bind fun _ _ => .ite (fun _ => ih hps) fun _ => .pure trivial

theorem passes_ends {s : PatternStep} (hP : Provided T G A) (hs : s.Within T A)
    (hc : c.Readable T) (n : Node) : Ends T G (fun E => passes E s n c) fun _ => True := by
  have hcheck := hs.check
  unfold passes
  cases hk : s.check with
  | none =>
    exact holdAll_ends (fun p hp => (Expr.terminates hP (hs.predicates p hp)).toAnswers)
      (hc.withNode n)
  | first => exact (Cursor.exhaustible_listed _ _ _).head.map fun _ _ => trivial
  | last => exact (Cursor.exhaustible_listed _ _ _).head.map fun _ _ => trivial
  | among e =>
    rw [hk] at hcheck
    exact ((Expr.terminates hP hcheck).cursor (hc.withNode n) false).bind fun x hx =>
      hx.exhaustible.find _

theorem anyOf_ends {holds : Engine → Node → Action Bool}
    (h : ∀ n, Ends T G (fun E => holds E n) fun _ => True) (nodes : List Node) :
    Ends T G (fun E => anyOf (holds E) nodes) fun _ => True := by
  induction nodes with
  | nil => exact .pure trivial
  | cons n nodes ih =>
    exact (h n).bind fun _ _ => .ite (fun _ => .pure trivial) fun _ => ih

theorem accepts_ends {p : Pattern} (hP : Provided T G A) (hp : p.Within T A) (hc : c.Readable T)
    (n : Node) : Ends T G (fun E => p.accepts E n c) fun _ => True := by
  induction p generalizing n with
  | document | test | id => exact .pure trivial
  | step s => exact .ite (fun _ => passes_ends hP hp hc n) fun _ => .pure trivial
  | under connector upper s ih =>
    refine .ite (fun _ => .pure trivial) fun _ => ?_
    refine (anyOf_ends (fun m => ih hp.1 m) _).bind fun _ _ => ?_
    exact .ite (fun _ => passes_ends hP hp.2 hc n) fun _ => .pure trivial
  | key name value => exact (hP.key name hp value n.top c hc).map fun _ _ => trivial
  | union a b iha ihb =>
    exact (iha hp.1 n).bind fun _ _ => .ite (fun _ => .pure trivial) fun _ => ihb hp.2 n

end Pattern

structure KeyDefinition.Within (T : Transformation) (A : Allowance) (d : KeyDefinition) : Prop where
  pattern : d.pattern.Within T A
  use : d.use.Within T A

namespace Key

theorem valuesOf_ends {d : KeyDefinition} (hP : Provided T G A) (hd : d.Within T A)
    (hc : c.Readable T) (n : Node) : Ends T G (fun E => valuesOf T E d n c) fun _ => True := by
  refine ((Expr.terminates hP hd.use).value ((hc.withNode n).withCurrent n)).bind fun v hv => ?_
  cases v with
  | nodeSet ns => exact (NodeSet.members_ends hv).map fun _ _ => trivial
  | _ => exact (Value.asString_ends hv).map fun _ _ => trivial

theorem enterNode_ends {ds : List KeyDefinition} (hP : Provided T G A) (hd : ∀ d ∈ ds, d.Within T A)
    (hc : c.Readable T) (n : Node) (entries : Entries) :
    Ends T G (fun E => enterNode T E c n ds entries) fun _ => True := by
  induction ds generalizing entries with
  | nil => exact .pure trivial
  | cons d ds ih =>
    obtain ⟨hd, hds⟩ := List.forall_mem_cons.mp hd
    refine (Pattern.accepts_ends hP hd.pattern hc n).bind fun _ _ => .ite (fun _ => ?_) fun _ =>
      ih hds entries
    exact (valuesOf_ends hP hd hc n).bind fun _ _ => ih hds _

theorem enterNodes_ends {ds : List KeyDefinition} (hP : Provided T G A)
    (hd : ∀ d ∈ ds, d.Within T A) (hc : c.Readable T) (nodes : List Node) (entries : Entries) :
    Ends T G (fun E => enterNodes T E c ds nodes entries) fun _ => True := by
  induction nodes generalizing entries with
  | nil => exact .pure trivial
  | cons n nodes ih => exact (enterNode_ends hP hd hc n entries).bind fun _ _ => ih _

/-- A lookup ends if what the definitions of the key use is settled. -/
theorem search_ends {name : ExpandedName} (hP : Provided T G A)
    (hd : ∀ d ∈ T.keysNamed name, d.Within T A) (hc : c.Readable T) (value : String) (root : Node) :
    Ends T G (fun E => E.search name value root c) fun _ => True := by
  refine .deeper (a := fun E => search T E name value root c) ?_ fun _ => rfl
  refine .ite (fun _ => .bind (P := fun _ => False) .throw nofun) fun _ => .get fun s => ?_
  cases s.index? name root with
  | some index => exact .pure trivial
  | none =>
    refine (enterNodes_ends hP hd hc _ []).bind fun entries _ => ?_
    refine .bind (.modify fun s => ?_) fun _ _ => .pure trivial
    split <;> rfl

end Key

/-- Conversions that host functions are given, one set for each engine, end. -/
structure HostCall.Settled (T : Transformation) (G : Globals → Prop) (call : Engine → HostCall) :
    Prop where
  context : ∃ c n, c.Readable T ∧ ∀ E, (call E).context = c ∧ (call E).number = n
  asString : ∀ v, v.Readable T → Ends T G (fun E => (call E).asString v) fun _ => True
  asNumber : ∀ v, v.Readable T → Ends T G (fun E => (call E).asNumber v) fun _ => True
  asBoolean : ∀ v, v.Readable T → Ends T G (fun E => (call E).asBoolean v) fun _ => True
  firstNode : ∀ ns, ns.Readable T → Ends T G (fun E => (call E).firstNode ns) fun _ => True

/-- Host functions end if the conversions that they are given do, and come to values that can be
read. -/
def FunctionLibrary.End (T : Transformation) (l : FunctionLibrary) : Prop :=
  ∀ o ∈ l.overloads, ∀ G call, HostCall.Settled T G call → ∀ args, (∀ v ∈ args, v.Readable T) →
    Ends T G (fun E => o.run (call E) args) (Value.Readable T)

theorem Expr.callHost_ends (hosts : T.functions.End T) (name : ExpandedName) {args : List Value}
    (ha : ∀ v ∈ args, v.Readable T) (hc : c.Readable T) :
    Ends T G (fun E => callHost T E name args c) (Value.Readable T) := by
  unfold callHost
  cases ho : T.functions.resolve name args.length with
  | error f => exact .bind (P := fun _ => False) .throw nofun
  | ok o =>
    refine (Ends.ofExcept (Q := (o = ·)) fun _ hx => Except.ok.inj hx).bind fun _ hx => ?_
    subst hx
    refine .bind (.update (Q := fun _ => True) fun s => ⟨rfl, trivial⟩) fun number _ => ?_
    refine hosts o (FunctionLibrary.resolve_mem ho) G (fun E => ⟨c, number, Value.asString T E,
      Value.asNumber T E, Value.asBoolean T E, NodeSet.first T E⟩)
      ⟨⟨c, number, hc, ?_⟩, ?_, ?_, ?_, ?_⟩ args ha
    · exact fun _ => ⟨rfl, rfl⟩
    · exact fun v => Value.asString_ends
    · exact fun v => Value.asNumber_ends
    · exact fun v => Value.asBoolean_ends
    · exact fun ns => NodeSet.first_ends

/-- Everything may be used. -/
def Allowance.everything : Allowance := ⟨True, fun _ => True⟩

def Slot.isPending : Slot → Bool
  | .pending _ => true
  | .evaluating | .evaluated _ => false

/-- Globals of which no more than a number are still to be computed. -/
structure Globals.Await (T : Transformation) (p : Nat) (globals : Globals) : Prop where
  definitions : ∀ name d, (name, .pending d) ∈ globals → d.Within T .everything
  values : ∀ name v, (name, .evaluated v) ∈ globals → v.Readable T
  count : globals.countP (·.2.isPending) ≤ p

namespace Globals

variable {globals : Globals} {name : ExpandedName} {slot : Slot} {d : Expr} {p : Nat}

theorem mem_assocSet {q : ExpandedName × Slot} (h : q ∈ assocSet name slot globals) :
    q = (name, slot) ∨ q ∈ globals := by
  induction globals with
  | nil => exact .inl (List.mem_singleton.mp h)
  | cons r globals ih =>
    rw [assocSet] at h
    split at h
    · exact (List.mem_cons.mp h).imp_right (List.mem_cons_of_mem _)
    · obtain h | h := List.mem_cons.mp h
      · exact .inr (h ▸ List.mem_cons_self)
      · exact (ih h).imp_right (List.mem_cons_of_mem _)

theorem countP_assocSet_le (name : ExpandedName) (slot : Slot) (globals : Globals) :
    (assocSet name slot globals).countP (·.2.isPending) ≤
      globals.countP (·.2.isPending) + slot.isPending.toNat := by
  induction globals with
  | nil => cases slot <;> rfl
  | cons r globals ih =>
    rw [assocSet]
    split
    · simp only [List.countP_cons]
      cases slot <;> simp [Slot.isPending]
    · simp only [List.countP_cons]
      omega

/-- One less is still to be computed under the mark. -/
theorem countP_evaluating (h : globals.lookup name = some (.pending d)) :
    (assocSet name .evaluating globals).countP (·.2.isPending) + 1 =
      globals.countP (·.2.isPending) := by
  induction globals with
  | nil => cases h
  | cons r globals ih =>
    obtain ⟨k, slot⟩ := r
    rw [List.lookup_cons] at h
    rw [assocSet]
    cases hk : name == k with
    | true =>
      obtain rfl := eq_of_beq hk
      rw [hk] at h
      obtain rfl := Option.some.inj h
      simp [Slot.isPending]
    | false =>
      rw [hk] at h
      have hk' : (k == name) = false := by rw [BEq.comm, hk]
      rw [hk']
      simp only [List.countP_cons, Bool.false_eq_true, if_false]
      have := ih h
      omega

theorem mem_of_lookup (h : globals.lookup name = some slot) : (name, slot) ∈ globals := by
  obtain ⟨before, after, rfl, -⟩ := List.lookup_eq_some_iff.mp h
  simp

namespace Await

variable {q : Nat} {marked : Globals}

/-- The state of a global is replaced by another one. -/
theorem assocSet (h : Await T p globals)
    (hcount : (assocSet name slot globals).countP (·.2.isPending) ≤ q)
    (hd : ∀ d, slot = .pending d → d.Within T .everything)
    (hv : ∀ v, slot = .evaluated v → v.Readable T) : Await T q (assocSet name slot globals) := by
  refine ⟨fun name' d hm => ?_, fun name' v hm => ?_, hcount⟩
  · obtain hm | hm := mem_assocSet hm
    · exact hd d (congrArg Prod.snd hm).symm
    · exact h.definitions name' d hm
  · obtain hm | hm := mem_assocSet hm
    · exact hv v (congrArg Prod.snd hm).symm
    · exact h.values name' v hm

end Await

end Globals

/-- A global variable is computed, or its definition refers to it, if all expressions terminate
while fewer variables are still to be computed. -/
theorem globalValue_ends {p : Nat} (h : ∀ q < p, ∀ d : Expr, d.Within T .everything →
      d.Terminates T (Globals.Await T q) .everything) (name : ExpandedName) :
    Ends T (Globals.Await T p) (fun E => globalValue T E name) (Value.Readable T) := by
  intro s hs
  cases hslot : s.slot? name with
  | none => exact ⟨_, s, ⟨0, fun _ _ _ => globalValue_undefined hslot⟩, hs, nofun⟩
  | some slot =>
    have hmem := Globals.mem_of_lookup hslot
    cases slot with
    | evaluating => exact ⟨_, s, ⟨0, fun _ _ _ => globalValue_evaluating hslot⟩, hs, nofun⟩
    | evaluated v =>
      refine ⟨_, s, ⟨0, fun _ _ _ => globalValue_evaluated hslot⟩, hs, ?_⟩
      rintro _ ⟨⟩
      exact hs.values name v hmem
    | pending d =>
      have hd := hs.definitions name d hmem
      have hcount := Globals.countP_evaluating hslot
      have hle := hs.count
      obtain ⟨q, rfl⟩ : ∃ q, p = q + 1 := ⟨p - 1, by omega⟩
      have hmarked : Globals.Await T q (s.setSlot name .evaluating).globals :=
        hs.assocSet (by omega) nofun nofun
      obtain ⟨r, t, ⟨k, hk⟩, ht, hr⟩ := (h q (Nat.lt_succ_self q) d hd).value
        (Context.readable_onNode T.globalNode) _ hmarked
      have hk (B : Engine) (n : Nat) (hn : k ≤ n) :
          ((engineOver T B n).value d T.globalContext).attempt.run (s.setSlot name .evaluating) =
            (r, t) := hk B n hn
      cases r with
      | ok v =>
        refine ⟨.ok v, t.setSlot name (.evaluated v), ⟨k, fun B n hn => ?_⟩,
          ht.assocSet ?_ nofun ?_, hr⟩
        · rw [globalValue_pending hslot, guarded_run, hk B n hn]
        · exact Nat.le_trans (Globals.countP_assocSet_le name _ _) (Nat.le_succ_of_le ht.count)
        · rintro _ ⟨⟩
          exact hr v rfl
      | error f =>
        refine ⟨.error f, t.setSlot name (.pending d), ⟨k, fun B n hn => ?_⟩,
          ht.assocSet ?_ ?_ nofun, nofun⟩
        · rw [globalValue_pending hslot, guarded_run, hk B n hn]
        · exact Nat.le_trans (Globals.countP_assocSet_le name _ _) (Nat.succ_le_succ ht.count)
        · rintro _ ⟨⟩
          exact hd

/-- A lazy node-set is defined without dependencies. -/
def Leaf.Closed : Leaf → Prop
  | .lazy _ d => d.dependencies = ∅
  | .node _ | .extent _ | .call _ | .host _ | .variable _ => True

namespace Expr

variable {name : ExpandedName} {e k : Expr}

/-- An evaluation may look up a key. -/
inductive LooksUp (name : ExpandedName) : Expr → Prop
  | call {args : List Expr} {bound : Option Node} {scope : Option Scope} :
    Function.Denotes args scope name → LooksUp name (.call .key args bound scope)
  | part {e k : Expr} : k ∈ e.children → k.LooksUp name → LooksUp name e

end Expr

/-- The lazy node-sets of a value can be read if their definitions use nothing. -/
theorem Value.readable_of_closed {v : Value} (h : ∀ l ∈ v.leaves, l.Closed)
    (hd : ∀ d : Expr, sizeOf d < sizeOf v → d.Only Leaf.Closed → d.Within T .everything) :
    v.Readable T := by
  cases v with
  | nodeSet ns =>
    cases ns with
    | intent id d =>
      obtain ⟨hfree, hleaves⟩ := List.forall_mem_cons.mp h
      have hsize : sizeOf d < sizeOf (Value.nodeSet (.intent id d)) := by
        simp only [Value.nodeSet.sizeOf_spec, NodeSet.intent.sizeOf_spec]
        omega
      exact Expr.delivers ((hd d hsize hleaves).nothing hfree)
    | _ => trivial
  | _ => trivial

theorem Expr.sizeOf_children {e k : Expr} (h : k ∈ e.children) : sizeOf k < sizeOf e := by
  have hlist (es : List Expr) (h : k ∈ es) : sizeOf k < sizeOf es := List.sizeOf_lt_of_mem h
  cases e with
  | path start along test ps =>
    rw [path.sizeOf_spec]
    obtain rfl | h := List.mem_cons.mp h
    · omega
    · have := hlist _ h
      omega
  | sorted base keys rules =>
    rw [sorted.sizeOf_spec]
    obtain rfl | h := List.mem_cons.mp h
    · omega
    · have := hlist _ h
      omega
  | call f args bound scope =>
    have := hlist args h
    rw [call.sizeOf_spec]
    omega
  | extension name args =>
    have := hlist args h
    rw [extension.sizeOf_spec]
    omega
  | template parts =>
    have := hlist parts h
    rw [template.sizeOf_spec]
    omega
  | filter | set | distinct | distinctBy | logical | compare | arithmetic | compareNode
  | compareNodes | negate =>
    simp only [children, List.mem_cons, List.not_mem_nil, or_false] at h
    obtain rfl | rfl := h
    all_goals
      simp only [filter.sizeOf_spec, set.sizeOf_spec, distinct.sizeOf_spec, distinctBy.sizeOf_spec,
        logical.sizeOf_spec, compare.sizeOf_spec, arithmetic.sizeOf_spec, compareNode.sizeOf_spec,
        compareNodes.sizeOf_spec, negate.sizeOf_spec]
      omega
  | _ => cases h

namespace Expr

variable {e : Expr}

/-- An expression without open lazy node-sets is within what it looks up. -/
theorem Within.of_closed (ho : A.outside) (hc : e.Only Leaf.Closed)
    (hk : ∀ name, e.LooksUp name → A.key name) : e.Within T A := by
  induction hn : sizeOf e using Nat.strongRecOn generalizing e A with
  | ind n ih =>
    subst hn
    have hvalue {v : Value} (hv : ∀ l ∈ v.leaves, l.Closed) (hs : sizeOf v < sizeOf e) :
        v.Readable T :=
      Value.readable_of_closed hv fun d hd hdc =>
        ih (sizeOf d) (Nat.lt_trans hd hs) (A := .everything) trivial hdc (fun _ _ => trivial) rfl
    refine .intro ?_ fun k hm => ih (sizeOf k) (sizeOf_children hm) ho (hc.children hm)
      (fun name h => hk name (.part hm h)) rfl
    cases e with
    | value v =>
      refine hvalue hc ?_
      rw [value.sizeOf_spec]
      omega
    | compareNode op k v | compareNodes op k v =>
      refine hvalue (fun l hl => hc l (List.mem_append_right _ hl)) ?_
      simp only [compareNode.sizeOf_spec, compareNodes.sizeOf_spec]
      omega
    | call f args bound scope =>
      rintro rfl name hname
      exact hk name (.call hname)
    | extension name args => exact ho
    | reference b => exact fun _ _ => ho
    | _ => trivial

theorem within_everything (hc : e.Only Leaf.Closed) : e.Within T .everything :=
  .of_closed trivial hc fun _ _ => trivial

end Expr

theorem Value.readable {v : Value} (h : ∀ l ∈ v.leaves, l.Closed) : v.Readable T :=
  readable_of_closed h fun _ _ => Expr.within_everything

namespace PositionCheck

def LooksUp (name : ExpandedName) : PositionCheck → Prop
  | .among e => e.LooksUp name
  | .none | .first | .last => False

end PositionCheck

namespace Pattern

/-- Matching may look up a key. -/
def LooksUp (name : ExpandedName) : Pattern → Prop
  | .step s => (∃ p ∈ s.predicates, p.LooksUp name) ∨ s.check.LooksUp name
  | .under _ upper s =>
    upper.LooksUp name ∨ (∃ p ∈ s.predicates, p.LooksUp name) ∨ s.check.LooksUp name
  | .key k _ => k = name
  | .union a b => a.LooksUp name ∨ b.LooksUp name
  | .document | .test _ | .id _ => False

theorem withinStep {s : PatternStep} (ho : A.outside)
    (hc : ∀ l ∈ leavesOfAll s.predicates ++ s.check.leaves, l.Closed)
    (hk : ∀ name, (∃ p ∈ s.predicates, p.LooksUp name) ∨ s.check.LooksUp name → A.key name) :
    s.Within T A := by
  obtain ⟨hps, hcheck⟩ := List.forall_mem_append.mp hc
  refine ⟨fun p hp => ?_, ?_⟩
  · exact .of_closed ho (Expr.only_leavesOfAll_iff.mp hps p hp) fun name h =>
      hk name (.inl ⟨p, hp, h⟩)
  · have hk' (name : ExpandedName) (h : s.check.LooksUp name) := hk name (.inr h)
    cases he : s.check with
    | among e =>
      rw [he] at hcheck hk'
      exact .of_closed ho hcheck hk'
    | _ => trivial

theorem Within.of_closed {p : Pattern} (ho : A.outside) (hc : ∀ l ∈ p.leaves, l.Closed)
    (hk : ∀ name, p.LooksUp name → A.key name) : p.Within T A := by
  induction p with
  | document | test | id => trivial
  | step s => exact withinStep ho hc hk
  | under connector upper s ih =>
    obtain ⟨hupper, hs⟩ := List.forall_mem_append.mp hc
    exact ⟨ih hupper fun name h => hk name (.inl h),
      withinStep ho hs fun name h => hk name (.inr h)⟩
  | key name value => exact hk name rfl
  | union a b iha ihb =>
    obtain ⟨ha, hb⟩ := List.forall_mem_append.mp hc
    exact ⟨iha ha fun name h => hk name (.inl h), ihb hb fun name h => hk name (.inr h)⟩

end Pattern

/-- Indexing by a definition may look up a key. -/
def KeyDefinition.LooksUp (name : ExpandedName) (d : KeyDefinition) : Prop :=
  d.pattern.LooksUp name ∨ d.use.LooksUp name

theorem KeyDefinition.Within.of_closed {d : KeyDefinition} (ho : A.outside)
    (hc : ∀ l ∈ d.leaves, l.Closed) (hk : ∀ name, d.LooksUp name → A.key name) : d.Within T A := by
  obtain ⟨hpattern, huse⟩ := List.forall_mem_append.mp hc
  exact ⟨.of_closed ho hpattern fun name h => hk name (.inl h),
    .of_closed ho huse fun name h => hk name (.inr h)⟩

namespace Transformation

/-- Building the index of one key may look up another. -/
def Uses (T : Transformation) (used name : ExpandedName) : Prop :=
  ∃ d ∈ T.keys, d.name = name ∧ d.LooksUp used

theorem uses_wellFounded (h : ∀ name, ¬ Relation.TransGen T.Uses name name) :
    WellFounded T.Uses := by
  let Defined : ExpandedName → Prop := fun name => name ∈ T.keys.map (·.name)
  have hdefined {used name : ExpandedName} (hu : T.Uses used name) : Defined name := by
    obtain ⟨d, hd, rfl, -⟩ := hu
    exact List.mem_map_of_mem hd
  have : Finite {name // Defined name} := (List.finite_toSet (T.keys.map (·.name))).to_subtype
  let Below : {name // Defined name} → {name // Defined name} → Prop :=
    InvImage (Relation.TransGen T.Uses) Subtype.val
  have : IsTrans _ Below := ⟨fun _ _ _ => Relation.TransGen.trans⟩
  have : Std.Irrefl Below := ⟨fun name => h name⟩
  have hwf := Finite.wellFounded_of_trans_of_irrefl Below
  have hacc (name : {name // Defined name}) : Acc T.Uses name := by
    induction name using hwf.induction with
    | _ name ih =>
      refine .intro _ fun used hu => ?_
      by_cases hd : Defined used
      · exact ih ⟨used, hd⟩ (.single hu)
      · exact .intro _ fun _ hu => absurd (hdefined hu) hd
  refine ⟨fun name => .intro _ fun used hu => ?_⟩
  exact (hacc ⟨name, hdefined hu⟩).inv hu

variable (hosts : T.functions.End T) (hkeys : ∀ d ∈ T.keys, ∀ l ∈ d.leaves, l.Closed)
  (hacyclic : ∀ name, ¬ Relation.TransGen T.Uses name name)
include hosts hkeys hacyclic

/-- However many globals are still to be computed, each of them, each host function and each key is
settled. -/
theorem provided (p : Nat) : Provided T (Globals.Await T p) .everything := by
  induction p using Nat.strongRecOn with
  | ind p ih =>
    have hglobal := globalValue_ends fun q hq d hd => Expr.terminates (ih q hq) hd
    have hkey (name : ExpandedName) : ∀ value root c, Context.Readable T c →
        Ends T (Globals.Await T p) (fun E => E.search name value root c) fun _ => True := by
      induction name using (uses_wellFounded hacyclic).induction with
      | _ name ihname =>
        intro value root c hc
        refine Key.search_ends (A := ⟨True, (T.Uses · name)⟩)
          ⟨fun _ => hglobal, fun _ name args c ha hc => Expr.callHost_ends hosts name ha hc,
            ihname⟩ (fun d hd => ?_) hc value root
        obtain ⟨hd, hname⟩ := List.mem_filter.mp hd
        exact .of_closed trivial (hkeys d hd) fun used h => ⟨d, hd, eq_of_beq hname, h⟩
    exact ⟨fun _ => hglobal, fun _ name args c ha hc => Expr.callHost_ends hosts name ha hc,
      fun name _ => hkey name⟩

end Transformation

/-- An action comes to one end in a session, at every depth from some depth on and whatever stands
for what is deeper. -/
def Stops {α : Type} (T : Transformation) (s : Session) (a : Engine → Action α) : Prop :=
  ∃ depth r t, ∀ B n, depth ≤ n → (a (engineOver T B n)).attempt.run s = (r, t)

theorem Ends.stops {α : Type} {a : Engine → Action α} {Q : α → Prop} {s : Session}
    (h : Ends T G a Q) (hs : G s.globals) : Stops T s a := by
  obtain ⟨r, t, ⟨d, hd⟩, -⟩ := h s hs
  exact ⟨d, r, t, hd⟩

/-- Every route of evaluation of an expression comes to an end. -/
structure Expr.Stops (T : Transformation) (s : Session) (c : Context) (e : Expr) : Prop where
  value : PathLanguage.Stops T s fun E => E.value e c
  boolean : PathLanguage.Stops T s fun E => E.boolean e c
  number : PathLanguage.Stops T s fun E => E.number e c
  string : PathLanguage.Stops T s fun E => E.string e c
  nodeSet : PathLanguage.Stops T s fun E => E.nodeSet e c
  nodes : ∀ sort, PathLanguage.Stops T s fun E => do E.drain (← E.cursor e c sort)
  reduce : ∀ mask, PathLanguage.Stops T s fun E => E.reduce mask e c

/-- What a session knows of the globals holds closed lazy node-sets only. -/
structure Session.Closed (s : Session) : Prop where
  definitions : ∀ name d, (name, .pending d) ∈ s.globals → d.Only Leaf.Closed
  values : ∀ name v, (name, .evaluated v) ∈ s.globals → ∀ l ∈ v.leaves, l.Closed

/-- Lookups of keys and evaluations end if no key uses itself, be it through other keys: in nodes or
a value, or in a fault. Variables may use themselves, and keys, as they like. -/
theorem Transformation.lookups_end (hosts : T.functions.End T)
    (hkeys : ∀ d ∈ T.keys, ∀ l ∈ d.leaves, l.Closed)
    (hacyclic : ∀ name, ¬ Relation.TransGen T.Uses name name) {s : Session} (hs : s.Closed)
    (hc : ∀ p ∈ c.locals, ∀ l ∈ p.2.leaves, l.Closed) :
    (∀ name value root, Stops T s fun E => E.search name value root c) ∧
      ∀ e : Expr, e.Only Leaf.Closed → e.Stops T s c := by
  have hs : Globals.Await T (s.globals.countP (·.2.isPending)) s.globals :=
    ⟨fun name d h => .of_closed trivial (hs.definitions name d h) fun _ _ => trivial,
      fun name v h => Value.readable (hs.values name v h), Nat.le_refl _⟩
  have hc : c.Readable T := fun p hp => Value.readable (hc p hp)
  have hP := provided hosts hkeys hacyclic (s.globals.countP (·.2.isPending))
  refine ⟨fun name value root => (hP.key name trivial value root c hc).stops hs, fun e he => ?_⟩
  have h := Expr.terminates hP (Expr.within_everything he)
  exact ⟨(h.value hc).stops hs, (h.boolean hc).stops hs, (h.number hc).stops hs,
    (h.string hc).stops hs, (h.nodeSet hc).stops hs,
    fun sort => ((h.cursor hc sort).bind fun _ hx => hx.exhaustible.drain).stops hs,
    fun mask => (h.reduces mask c hc).stops hs⟩

/-- A key that uses another one and a host function, and a variable that uses itself and a key. -/
theorem Transformation.lookups_end_of_chain : ∃ (T : Transformation) (s : Session)
    (a b v : ExpandedName), T.Uses b a ∧ s.slot? v ≠ none ∧ T.functions.overloads.length = 1 ∧
    T.functions.End T ∧ (∀ d ∈ T.keys, ∀ l ∈ d.leaves, l.Closed) ∧
    (∀ name, ¬ Relation.TransGen T.Uses name name) ∧ s.Closed ∧
    (∀ root, Stops T s fun E => E.search a "x" root .blank) ∧
    (Expr.reference ⟨v, true, none⟩).Stops T s .blank := by
  let a : ExpandedName := .unqualified "a"
  let b : ExpandedName := .unqualified "b"
  let v : ExpandedName := .unqualified "v"
  let text : ExpandedName := .unqualified "text"
  let first : KeyDefinition := ⟨a, .document,
    .call .key [.value (.string "b"), .extension text [.contextNode]] none none⟩
  let second : KeyDefinition := ⟨b, .document, .call .string [] none none⟩
  let T : Transformation :=
    { functions := ({} : FunctionLibrary).register text 1 (some 1) fun call args => do
        return .string (← call.asString (args.headD (.string "")))
      keys := [first, second] }
  let definition : Expr := .call .concat [.reference ⟨v, true, none⟩,
    .call .key [.value (.string "a"), .value (.string "x")] none none] none none
  let s : Session := { globals := [(v, .pending definition)] }
  have hhosts : T.functions.End T := by
    intro o ho G call hcall args hargs
    obtain rfl := List.mem_singleton.mp ho
    refine (hcall.asString _ ?_).map fun _ _ => trivial
    cases args with
    | nil => trivial
    | cons x args => exact hargs x (.head _)
  have hleaves : ∀ d ∈ T.keys, ∀ l ∈ d.leaves, l.Closed := by
    intro d hd l hl
    cases l with
    | lazy id e =>
      obtain rfl | hd := List.mem_cons.mp hd
      · simp [first, KeyDefinition.leaves, Pattern.leaves, Expr.leaves, leavesOfAll, Value.leaves]
          at hl
      · obtain rfl := List.mem_singleton.mp hd
        simp [second, KeyDefinition.leaves, Pattern.leaves, Expr.leaves, leavesOfAll] at hl
    | _ => trivial
  have huses : T.Uses b a := ⟨first, .head _, rfl, .inr (.call rfl)⟩
  have hused {used name : ExpandedName} (h : T.Uses used name) : used = b ∧ name = a := by
    obtain ⟨d, hd, rfl, hpattern | hl⟩ := h
    · obtain rfl | hd := List.mem_cons.mp hd
      · cases hpattern
      · obtain rfl := List.mem_singleton.mp hd
        cases hpattern
    · obtain rfl | hd := List.mem_cons.mp hd
      · cases hl with
        | call hn => exact ⟨(Except.ok.inj hn).symm, rfl⟩
        | part hk hl =>
          obtain rfl | hk := List.mem_cons.mp hk
          · cases hl with
            | part hk => cases hk
          · obtain rfl := List.mem_singleton.mp hk
            cases hl with
            | part hk hl =>
              obtain rfl := List.mem_singleton.mp hk
              cases hl with
              | part hk => cases hk
      · obtain rfl := List.mem_singleton.mp hd
        cases hl with
        | part hk => cases hk
  have hacyclic (name : ExpandedName) (h : Relation.TransGen T.Uses name name) : False := by
    obtain ⟨m, hm, -⟩ := Relation.TransGen.head'_iff.mp h
    obtain ⟨k, -, hk⟩ := Relation.TransGen.tail'_iff.mp h
    exact absurd ((hused hm).1.symm.trans (hused hk).2) (by decide)
  have hs : s.Closed := by
    refine ⟨fun name d h l hl => ?_, fun name w h => ?_⟩
    · obtain ⟨rfl, rfl⟩ : name = v ∧ d = definition := by
        simpa [s] using h
      cases l with
      | lazy id e => simp [definition, Expr.leaves, leavesOfAll, Value.leaves] at hl
      | _ => trivial
    · simp [s] at h
  have hpending : s.slot? v ≠ none := by
    intro h
    cases h
  have hlocals : ∀ p ∈ Context.blank.locals, ∀ l ∈ p.2.leaves, l.Closed := List.forall_mem_nil _
  have hreference : (Expr.reference ⟨v, true, none⟩).Only Leaf.Closed := by
    intro l hl
    obtain rfl := List.mem_singleton.mp hl
    trivial
  have h := lookups_end hhosts hleaves hacyclic hs hlocals
  exact ⟨T, s, a, b, v, huses, hpending, rfl, hhosts, hleaves, hacyclic, hs, h.1 a "x",
    h.2 _ hreference⟩

/-- The engine whose every evaluation ends in a fault. -/
def Engine.failing (f : Fault) : Engine where
  value _ _ := .fail f
  boolean _ _ := .fail f
  number _ _ := .fail f
  string _ _ := .fail f
  nodeSet _ _ := .fail f
  cursor _ _ _ := .fail f
  reduce _ _ _ := .fail f
  next c := pure ⟨.error f, c⟩
  size c := pure ⟨.error f, c⟩
  drain _ := .fail f
  find _ _ := .fail f
  search _ _ _ _ := .fail f

namespace Key

section cycle

variable {name : ExpandedName} {d : KeyDefinition} {ds : List KeyDefinition} {document : Document}
  {text sought : String} {scope : Option Scope} {s : Session}

theorem walk_root (document : Document) (attached : Node → List Node) :
    ∃ rest, (Node.root document).walk attached = .root document :: rest := by
  rw [Node.walk, Node.tree?]
  cases document.tree <;> exact ⟨_, rfl⟩

/-- Its index is completed at no depth: what stands for what is deeper is asked for it. -/
theorem search_of_own_use (hd : T.keysNamed name = d :: ds)
    (hp : ∀ E c, d.pattern.accepts E (.root document) c = pure true)
    (hu : d.use = .call .key [.value (.string text), .value (.string sought)] none scope)
    (hn : Function.resolveName scope text = .ok name) (hs : s.index? name (.root document) = none)
    (f : Fault) (n : Nat) (value : String) (c : Context) :
    ((engineOver T (.failing f) n).search name value (.root document) c).attempt.run s =
      (.error f, s) := by
  induction n using Nat.strongRecOn generalizing value c with
  | ind n ih =>
    cases n with
    | zero => rfl
    | succ n =>
      have hdefined : (T.keysNamed name).isEmpty = false := by rw [hd]; rfl
      have huse (c : Context) (hc : c.node? = some (.root document)) :
          ((engineOver T (.failing f) n).value d.use c).attempt.run s = (.error f, s) := by
        rw [hu]
        match n, ih with
        | 0, _ | 1, _ | 2, _ => rfl
        | m + 3, ih =>
          have hnode : c.node.attempt.run s = (.ok (.root document), s) := by
            rw [Context.node, hc]
            rfl
          have hsearch := ih (m + 2) (by omega) sought c
          -- the name and the value are literals, so that the call comes to the search
          change ((do
            let n ← c.node
            Function.byKey T (engineOver T (.failing f) (m + 2)) text (.string sought) scope n c :
              Action Value).attempt.run s) = _
          rw [Action.run_bind_ok hnode, Function.byKey, hn]
          change ((if (T.keysNamed name).isEmpty then throw _ else _ :
            Action Value).attempt.run s) = _
          rw [hdefined]
          refine (Action.run_bind_ok (x := [sought]) (t := s) rfl).trans ?_
          exact Action.run_bind_error (Action.run_bind_error hsearch)
      obtain ⟨rest, hrest⟩ := walk_root document fun n =>
        if (T.keysNamed name).any (·.pattern.mayMatchAttributes) then n.attributes else []
      refine search_of_failed hdefined hs ?_
      rw [build, candidates, hrest]
      refine Action.run_bind_error ?_
      rw [hd, enterNode, hp]
      refine (Action.run_bind_ok (x := true) (t := s) rfl).trans ?_
      exact Action.run_bind_error (Action.run_bind_error (huse _ rfl))

/-- A key that looks itself up for the root of a document is never found there: no depth is enough,
and no fault of its own ends the lookup. -/
theorem search_goes_on (hd : T.keysNamed name = d :: ds)
    (hp : ∀ E c, d.pattern.accepts E (.root document) c = pure true)
    (hu : d.use = .call .key [.value (.string text), .value (.string sought)] none scope)
    (hn : Function.resolveName scope text = .ok name) (hs : s.index? name (.root document) = none)
    (value : String) (c : Context) :
    ¬ Stops T s fun E => E.search name value (.root document) c := by
  rintro ⟨depth, r, t, h⟩
  have hfails (f : Fault) : (Except.error f, s) = (r, t) :=
    (search_of_own_use hd hp hu hn hs f depth value c).symm.trans (h _ depth (Nat.le_refl depth))
  cases (hfails .tooDeep).trans (hfails .unordered).symm

end cycle

end Key

end PathLanguage
