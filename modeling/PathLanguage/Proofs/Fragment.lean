/- Navigation from a variable that holds a result tree fragment. Simplification keeps the way from
the variable, unless a predicate on it never holds, and then nothing is left but the empty set;
along every way that is kept, evaluation ends in a fault. -/
import PathLanguage.Proofs.Grammar.Production
import PathLanguage.Proofs.NodeSet.Comparison
import PathLanguage.Proofs.Template.Simplified

namespace PathLanguage

/-- Predicates and steps applied to an origin, one after the other. -/
inductive Expr.Navigates (origin : Expr) : Expr → Prop
  | origin : origin.Navigates origin
  | filter {base : Expr} (predicate : Expr) : origin.Navigates base →
      origin.Navigates (.filter base predicate)
  | path {start : Expr} (along : Axis) (test : NodeTest) (predicates : List Expr) :
      origin.Navigates start → origin.Navigates (.path start along test predicates)

/-- The predicates on the way from an origin. -/
def Expr.conditions : Expr → List Expr
  | .filter base predicate => base.conditions ++ [predicate]
  | .path start _ _ predicates => start.conditions ++ predicates
  | _ => []

namespace Expr

variable {T : Transformation} {E : Engine} {b : Binding} {e x base start : Expr} {along : Axis}
  {test : NodeTest} {ps : List Expr}

/-- Constants at hand, none of which is a condition that never holds. -/
def Spares (ps : List Expr) : Prop := ∀ p ∈ ps, p.Eager ∧ p.knownTruth ≠ some false

/-- A way from a variable with conditions that may hold. -/
structure Leads (b : Binding) (e : Expr) : Prop where
  navigates : (Expr.reference b).Navigates e
  spares : Spares e.conditions

namespace Leads

theorem filter {p : Expr} (h : Leads b base) (hp : p.Eager) (ht : p.knownTruth ≠ some false) :
    Leads b (.filter base p) where
  navigates := .filter p h.navigates
  spares := List.forall_mem_append.mpr ⟨h.spares, List.forall_mem_singleton.mpr ⟨hp, ht⟩⟩

theorem path (h : Leads b start) (hps : Spares ps) : Leads b (.path start along test ps) where
  navigates := .path along test ps h.navigates
  spares := List.forall_mem_append.mpr ⟨h.spares, hps⟩

theorem of_filter {p : Expr} (h : Leads b (.filter base p)) : Leads b base := by
  refine ⟨?_, fun q hq => h.spares q (List.mem_append_left _ hq)⟩
  cases h.navigates with
  | filter p hb => exact hb

theorem of_path (h : Leads b (.path start along test ps)) : Leads b start := by
  refine ⟨?_, fun q hq => h.spares q (List.mem_append_left _ hq)⟩
  cases h.navigates with
  | path along test ps hs => exact hs

theorem spares_of_path (h : Leads b (.path start along test ps)) : Spares ps :=
  fun q hq => h.spares q (List.mem_append_right _ hq)

/-- A way from a variable is no constant. -/
theorem not_empty (h : Leads b e) : e.isEmptyNodeSet = false := by
  cases h.navigates <;> rfl

end Leads

theorem eq_emptySet (h : e.isEmptyNodeSet = true) : e = emptySet := by
  rw [isEmptyNodeSet.eq_def] at h
  split at h
  · rfl
  · cases h

section rules

/-- A test for the last position is no constant. -/
theorem spares_isLast (h : Spares ps) : Spares (.isLast true :: ps) :=
  List.forall_mem_cons.mpr ⟨⟨only_of_leaves rfl, nofun⟩, h⟩

theorem simplePredicates?_spares (h : Spares ps) :
    Always (simplePredicates? T E ps) fun o =>
      ∃ qs changed, o = some (qs, changed) ∧ Spares qs := by
  induction ps with
  | nil => exact .pure ⟨[], false, rfl, List.forall_mem_nil _⟩
  | cons p ps ih =>
    obtain ⟨⟨hp, ht⟩, hrest⟩ := List.forall_mem_cons.mp h
    rw [simplePredicates?]
    refine (constantTruth_known hp).bind ?_
    rintro _ rfl
    split
    · next hfalse => exact absurd hfalse ht
    · refine (ih hrest).bind ?_
      rintro _ ⟨qs, changed, rfl, hqs⟩
      exact .pure ⟨qs, true, rfl, hqs⟩
    · refine (ih hrest).bind ?_
      rintro _ ⟨qs, changed, rfl, hqs⟩
      split
      · exact .pure ⟨_, true, rfl, spares_isLast hqs⟩
      · exact .pure ⟨_, changed, rfl, List.forall_mem_cons.mpr ⟨⟨hp, ht⟩, hqs⟩⟩

theorem filterRule?_leads {p : Expr} (h : Leads b (.filter base p)) :
    Always (filterRule? T E base p) fun o => ∀ x, o = some x → Leads b x := by
  obtain ⟨hp, ht⟩ := h.spares p (List.mem_append_right _ (.head _))
  rw [filterRule?, h.of_filter.not_empty]
  refine (constantTruth_known hp).bind ?_
  rintro _ rfl
  split
  · refine .pure ?_
    rintro _ ⟨⟩
    exact h.of_filter
  · next hfalse => exact absurd hfalse ht
  · split
    · refine .pure ?_
      rintro _ ⟨⟩
      exact h.of_filter.filter (only_of_leaves rfl) (Option.some_ne_none false).symm
    · refine .pure fun x hx => ?_
      rw [mergeRanges?.eq_def] at hx
      split at hx
      · split at hx
        · cases hx
          exact h.of_filter.of_filter.filter (only_of_leaves rfl) (Option.some_ne_none false).symm
        · cases hx
      · cases hx

theorem stepRule?_leads (h : Leads b (.path start along test ps))
    (hx : stepRule? start along test ps = some x) : Leads b x := by
  rw [stepRule?.eq_def] at hx
  split at hx
  · cases hx
    exact h.of_path
  · cases h.of_path.navigates
  · cases h.of_path.navigates
  · split at hx
    · cases hx
    · obtain ⟨origin, horigin, rfl⟩ := Option.map_eq_some_iff.mp hx
      refine .path ?_ h.spares_of_path
      have hs := h.of_path
      rw [descendantStart?.eq_def] at horigin
      split at horigin
      · cases horigin
        exact hs.of_path
      · cases hs.navigates
      · cases horigin
  · cases hx

theorem pathRule?_leads (h : Leads b (.path start along test ps)) :
    Always (pathRule? T E start along test ps) fun o => ∀ x, o = some x → Leads b x := by
  rw [pathRule?, h.of_path.not_empty]
  refine (simplePredicates?_spares h.spares_of_path).bind ?_
  rintro _ ⟨qs, changed, rfl, hqs⟩
  cases changed with
  | true =>
    refine .pure ?_
    rintro _ ⟨⟩
    exact h.of_path.path hqs
  | false => exact .pure fun x hx => stepRule?_leads h hx

/-- No rule leaves the way from a variable. -/
theorem applyRule?_leads (hb : b.constant = none) (h : Leads b e) :
    Always (e.applyRule? T E) fun o => ∀ x, o = some x → Leads b x := by
  cases h.navigates with
  | origin =>
    refine .pure ?_
    rw [hb]
    nofun
  | filter p _ => exact filterRule?_leads h
  | path along test ps _ => exact pathRule?_leads h

theorem filterRule?_empties {p : Expr}
    (h : base = emptySet ∨ p.Eager ∧ p.knownTruth = some false) :
    Always (filterRule? T E base p) (· = some emptySet) := by
  rw [filterRule?]
  split
  · next hbase =>
    rw [eq_emptySet hbase]
    exact .pure rfl
  · next hbase =>
    obtain rfl | ⟨hp, ht⟩ := h
    · exact absurd rfl hbase
    · refine (constantTruth_known hp).bind ?_
      rintro _ rfl
      rw [ht]
      exact .pure rfl

theorem simplePredicates?_empties (h : ∀ p ∈ ps, p.Eager)
    (hfalse : ∃ p ∈ ps, p.knownTruth = some false) :
    Always (simplePredicates? T E ps) (· = none) := by
  induction ps with
  | nil => 
    obtain ⟨p, hp, -⟩ := hfalse
    cases hp
  | cons p ps ih =>
    obtain ⟨hp, hrest⟩ := List.forall_mem_cons.mp h
    rw [simplePredicates?]
    refine (constantTruth_known hp).bind ?_
    rintro _ rfl
    by_cases ht : p.knownTruth = some false
    · rw [ht]
      exact .pure rfl
    · have hlater : ∃ q ∈ ps, q.knownTruth = some false := by
        obtain ⟨q, hq, hqt⟩ := hfalse
        rcases List.mem_cons.mp hq with rfl | hq
        · exact absurd hqt ht
        · exact ⟨q, hq, hqt⟩
      split
      · exact .pure rfl
      · refine (ih hrest hlater).bind ?_
        rintro _ rfl
        exact .pure rfl
      · refine (ih hrest hlater).bind ?_
        rintro _ rfl
        split
        · exact .pure rfl
        · exact .pure rfl

theorem pathRule?_empties
    (h : start = emptySet ∨ (∀ p ∈ ps, p.Eager) ∧ ∃ p ∈ ps, p.knownTruth = some false) :
    Always (pathRule? T E start along test ps) (· = some emptySet) := by
  rw [pathRule?]
  split
  · next hstart =>
    rw [eq_emptySet hstart]
    exact .pure rfl
  · next hstart =>
    obtain rfl | ⟨hps, ht⟩ := h
    · exact absurd rfl hstart
    · refine (simplePredicates?_empties hps ht).bind ?_
      rintro _ rfl
      exact .pure rfl

/-- Nothing more is done once the empty set is left. -/
theorem applyRules_empties (h : Always (e.applyRule? T E) (· = some emptySet)) (changed : Bool) :
    Always (applyRules T E e changed) (·.1 = emptySet) := by
  obtain ⟨n, hn⟩ : ∃ n, e.weight = n + 1 := ⟨e.weight - 1, by have := e.weight_pos; omega⟩
  rw [applyRules, hn]
  exact applyRulesUpTo_of_some h (applyRulesUpTo_inert (inert_value _) n true)

end rules

theorem eager_simplified (h : e.Fresh) : e.simplified.Eager :=
  (simplified_settles h).only.isEager Leaf.kind_named

/-- What rules make of a way from a variable with simplified parts. -/
theorem simplified_leads (hb : b.constant = none) (hf : e.Fresh) (h : Leads b e.partsSimplified) :
    Leads b e.simplified :=
  simplified_of_parts hf fun changed =>
    applyRulesUpTo_keeps (fun _ hx => applyRule?_leads hb hx) h _ changed

theorem simplified_empties (hf : e.Fresh)
    (h : Always (e.partsSimplified.applyRule? .bare Transformation.bare.run)
      (· = some emptySet)) : e.simplified = emptySet :=
  simplified_of_parts (Q := (· = emptySet)) hf (applyRules_empties h)

/-- The simplified form of a way from a variable leads from it too, unless a condition on the way
never holds: then it is the empty set. -/
theorem simplified_navigated (hb : b.constant = none) (hf : e.Fresh)
    (hn : (Expr.reference b).Navigates e) :
    ((∀ p ∈ e.conditions, p.simplified.knownTruth ≠ some false) → Leads b e.simplified) ∧
      ((∃ p ∈ e.conditions, p.simplified.knownTruth = some false) → e.simplified = emptySet) := by
  induction hn with
  | origin =>
    refine ⟨fun _ => simplified_leads hb hf ⟨.origin, List.forall_mem_nil _⟩, ?_⟩
    rintro ⟨p, hp, -⟩
    cases hp
  | @filter base p _ ih =>
    have hbase : base.Fresh := Only.children (P := Leaf.IsNamed) hf (.head _)
    have hp : p.Fresh := Only.children (P := Leaf.IsNamed) hf (.tail _ (.head _))
    obtain ⟨hleads, hempty⟩ := ih hbase
    constructor
    · intro hall
      obtain ⟨hthere, hlast⟩ := List.forall_mem_append.mp hall
      have ht := List.forall_mem_singleton.mp hlast
      exact simplified_leads hb hf ((hleads hthere).filter (eager_simplified hp) ht)
    · rintro ⟨q, hq, ht⟩
      apply simplified_empties hf
      rcases List.mem_append.mp hq with hq | hq
      · exact filterRule?_empties (.inl (hempty ⟨q, hq, ht⟩))
      · obtain rfl := List.mem_singleton.mp hq
        exact filterRule?_empties (.inr ⟨eager_simplified hp, ht⟩)
  | @path start along test ps _ ih =>
    have hstart : start.Fresh := Only.children (P := Leaf.IsNamed) hf (.head _)
    have heager : ∀ p ∈ ps.map simplified, p.Eager := by
      intro p hp
      obtain ⟨q, hq, rfl⟩ := List.mem_map.mp hp
      exact eager_simplified (Only.children (P := Leaf.IsNamed) hf (.tail _ hq))
    obtain ⟨hleads, hempty⟩ := ih hstart
    constructor
    · intro hall
      obtain ⟨hthere, hlast⟩ := List.forall_mem_append.mp hall
      refine simplified_leads hb hf ((hleads hthere).path fun p hp => ⟨heager p hp, ?_⟩)
      obtain ⟨q, hq, rfl⟩ := List.mem_map.mp hp
      exact hlast q hq
    · rintro ⟨q, hq, ht⟩
      apply simplified_empties hf
      rcases List.mem_append.mp hq with hq | hq
      · exact pathRule?_empties (.inl (hempty ⟨q, hq, ht⟩))
      · exact pathRule?_empties (.inr ⟨heager, _, List.mem_map_of_mem hq, ht⟩)

end Expr

/-- An action ends in a fault when it is run in a session. -/
def Action.FailsIn {α : Type} (a : Action α) (s : Session) (Q : Fault → Prop) : Prop :=
  ∃ f t, a.attempt.run s = (.error f, t) ∧ Q f

section failures

variable {α β : Type} {a : Action α} {s : Session} {Q Q' : Fault → Prop}

theorem Action.FailsIn.bind (h : a.FailsIn s Q) (g : α → Action β) : (a >>= g).FailsIn s Q := by
  obtain ⟨f, t, hr, hf⟩ := h
  exact ⟨f, t, run_bind_error hr, hf⟩

theorem Action.FailsIn.imp (h : a.FailsIn s Q) (hi : ∀ f, Q f → Q' f) : a.FailsIn s Q' := by
  obtain ⟨f, t, hr, hf⟩ := h
  exact ⟨f, t, hr, hi f hf⟩

/-- What follows an action fails if it fails after every success of the action. -/
theorem Action.failsIn_bind {g : α → Action β}
    (h : ∀ x t, a.attempt.run s = (.ok x, t) → (g x).FailsIn t fun _ => True) :
    (a >>= g).FailsIn s fun _ => True := by
  cases hr : a.attempt.run s with
  | mk r t =>
    cases r with
    | error f => exact Action.FailsIn.bind ⟨f, t, hr, trivial⟩ g
    | ok x =>
      obtain ⟨f, u, hx, hf⟩ := h x t hr
      exact ⟨f, u, (run_bind_ok hr).trans hx, hf⟩

end failures

/-- A variable that is no constant holds a result tree fragment: this is what its evaluation comes
to, unless it is not followed deep enough. -/
structure Context.HoldsFragment (T : Transformation) (c : Context) (b : Binding) (s : Session) :
    Prop where
  unknown : b.constant = none
  value : ∀ depth, (((engine T depth).value (.reference b) c).attempt.run s).1 ≠ .error .tooDeep →
    ∃ root, (((engine T depth).value (.reference b) c).attempt.run s).1 =
      .ok (.nodeSet (.fragment root))
  found : ∃ least, ∀ depth, least ≤ depth →
    (((engine T depth).value (.reference b) c).attempt.run s).1 ≠ .error .tooDeep

theorem Context.holdsFragment_local (T : Transformation) {c : Context} {b : Binding} {root : Node}
    (hb : b.constant = none)
    (hc : c.locals.lookup b.name = some (.nodeSet (.fragment root))) (s : Session) :
    c.HoldsFragment T b s := by
  have hvalue (depth : Nat) : (((engine T (depth + 1)).value (.reference b) c).attempt.run s).1 =
      .ok (.nodeSet (.fragment root)) := by
    change ((Expr.evaluate T (engine T depth) (.reference b) c).attempt.run s).1 = _
    rw [Expr.evaluate, hb]
    dsimp only
    rw [valueOf, hc]
    rfl
  refine ⟨hb, fun depth h => ?_, 1, fun depth hd => ?_⟩
  · cases depth with
    | zero => exact absurd rfl h
    | succ depth => exact ⟨root, hvalue depth⟩
  · obtain ⟨depth, rfl⟩ := Nat.exists_eq_add_of_le' hd
    rw [hvalue]
    rintro ⟨⟩

/-- A fragment is refused as a node-set, if the evaluation is followed deep enough to see it. -/
def Fault.RefusesFragment (least depth : Nat) (f : Fault) : Prop :=
  f = .fragmentAsNodeSet ∨ f = .tooDeep ∧ depth < least

namespace Expr

variable {T : Transformation} {c : Context} {b : Binding} {s : Session} {e origin r : Expr}
  {least : Nat}

/-- A way from an origin that is refused is refused. -/
theorem cursor_navigated (hn : origin.Navigates e)
    (h : ∀ depth sort, ((engine T depth).cursor origin c sort).FailsIn s
      (Fault.RefusesFragment (least + origin.weight) depth)) (depth : Nat) (sort : Bool) :
    ((engine T depth).cursor e c sort).FailsIn s
      (Fault.RefusesFragment (least + e.weight) depth) := by
  induction hn generalizing depth sort with
  | origin => exact h depth sort
  | filter p _ ih =>
    cases depth with
    | zero => exact ⟨.tooDeep, s, rfl, .inr ⟨rfl, by rw [weight]; omega⟩⟩
    | succ depth =>
      refine ((ih depth (sort || p.isPositional)).bind _).imp fun f hf => ?_
      exact hf.imp_right fun hd => ⟨hd.1, by rw [weight]; omega⟩
  | path along test ps _ ih =>
    cases depth with
    | zero => exact ⟨.tooDeep, s, rfl, .inr ⟨rfl, by rw [weight]; omega⟩⟩
    | succ depth =>
      refine ((ih depth true).bind _).imp fun f hf => ?_
      exact hf.imp_right fun hd => ⟨hd.1, by rw [weight]; omega⟩

/-- A variable that holds a fragment is refused as a node-set. -/
theorem cursor_reference (h : c.HoldsFragment T b s) (hfound : ∀ depth, least ≤ depth →
      (((engine T depth).value (.reference b) c).attempt.run s).1 ≠ .error .tooDeep)
    (depth : Nat) (sort : Bool) :
    ((engine T depth).cursor (.reference b) c sort).FailsIn s
      (Fault.RefusesFragment (least + 2) depth) := by
  match depth with
  | 0 => exact ⟨.tooDeep, s, rfl, .inr ⟨rfl, by omega⟩⟩
  | 1 => exact ⟨.tooDeep, s, rfl, .inr ⟨rfl, by omega⟩⟩
  | depth + 2 =>
    change (((engine T depth).value (.reference b) c >>= nodeSetOf) >>= fun ns =>
      ns.enumerateSorted T (engine T (depth + 1)) sort).FailsIn s _
    cases hr : ((engine T depth).value (.reference b) c).attempt.run s with
    | mk r t =>
      by_cases hdeep : r = .error .tooDeep
      · subst hdeep
        have hlow : depth < least := by
          by_contra hle
          exact hfound depth (by omega) (by rw [hr])
        exact (Action.FailsIn.bind ⟨_, t, hr, .inr ⟨rfl, by omega⟩⟩ _).bind _
      · obtain ⟨root, hroot⟩ := h.value depth (by rwa [hr])
        rw [hr] at hroot
        obtain rfl : r = _ := hroot
        refine ⟨.fragmentAsNodeSet, t, ?_, .inl rfl⟩
        rw [bind_assoc, Action.run_bind_ok hr]
        rfl

/-- So is a fragment, in every session. -/
theorem cursor_fragment (root : Node) (c : Context) (s : Session) (depth : Nat) (sort : Bool) :
    ((engine T depth).cursor (.value (.nodeSet (.fragment root))) c sort).FailsIn s
      (Fault.RefusesFragment 2 depth) := by
  cases depth with
  | zero => exact ⟨.tooDeep, s, rfl, .inr ⟨rfl, by omega⟩⟩
  | succ depth => exact ⟨.fragmentAsNodeSet, s, rfl, .inl rfl⟩

/-- A way from a variable reads variables. -/
theorem intersects_navigated (hb : b.constant = none) (hn : (Expr.reference b).Navigates e) :
    e.dependencies.intersects .all = true := by
  have hbindings : e.dependencies.bindings = true := by
    induction hn with
    | origin => rw [dependencies, hb]; rfl
    | filter p _ ih => exact Bool.or_eq_true_iff.mpr (.inl ih)
    | path along test ps _ ih => exact Bool.or_eq_true_iff.mpr (.inl ih)
  generalize e.dependencies = d at hbindings
  obtain ⟨_, _, _, _, _, _, _⟩ := d
  subst hbindings
  rfl

theorem not_empty_of_fragment {root : Node}
    (h : (Expr.value (.nodeSet (.fragment root))).Navigates e) : e.isEmptyNodeSet = false := by
  cases h <;> rfl

/-- Reduced, a way from a variable that holds a fragment is a way from that fragment. -/
theorem reduce_navigated (h : c.HoldsFragment T b s) (hn : (Expr.reference b).Navigates e)
    {depth : Nat} {changed : Bool} {t : Session}
    (hr : ((engine T depth).reduce .all e c).attempt.run s = (.ok (r, changed), t)) :
    ∃ root, (Expr.value (.nodeSet (.fragment root))).Navigates r := by
  induction hn generalizing depth r changed t with
  | origin =>
    cases depth with
    | zero => cases hr
    | succ depth =>
      have hmask : Dependencies.all.contains (Expr.reference b).dependencies = true := by
        rw [dependencies, h.unknown]
        rfl
      change ((Expr.reference b).reduce (engine T depth) .all c).attempt.run s = _ at hr
      rw [reduce, intersects_navigated h.unknown .origin] at hr
      change (reduceToValue (engine T depth) .all c (.reference b) false).attempt.run s = _ at hr
      rw [reduceToValue, hmask] at hr
      obtain ⟨v, u, hv, hr⟩ := Action.bind_ok.mp hr
      have hout : v = (((engine T depth).value (.reference b) c).attempt.run s).1 := by
        cases hv
        rfl
      by_cases hdeep : v = .error .tooDeep
      · rw [hdeep] at hr
        cases hr
      · obtain ⟨root, hroot⟩ := h.value depth (hout ▸ hdeep)
        rw [hout, hroot] at hr
        cases hr
        exact ⟨root, .origin⟩
  | @filter base p hbase ih =>
    cases depth with
    | zero => cases hr
    | succ depth =>
      change ((Expr.filter base p).reduce (engine T depth) .all c).attempt.run s = _ at hr
      rw [reduce, intersects_navigated h.unknown (.filter p hbase)] at hr
      obtain ⟨⟨base', _⟩, u, hbase', hr⟩ := Action.bind_ok.mp hr
      obtain ⟨root, hroot⟩ := ih hbase'
      dsimp only at hr
      rw [not_empty_of_fragment hroot] at hr
      obtain ⟨⟨p', _⟩, v, -, hr⟩ := Action.bind_ok.mp hr
      cases hr
      exact ⟨root, .filter p' hroot⟩
  | @path start along test ps hstart ih =>
    cases depth with
    | zero => cases hr
    | succ depth =>
      change ((Expr.path start along test ps).reduce (engine T depth) .all c).attempt.run s =
        _ at hr
      rw [reduce, intersects_navigated h.unknown (.path along test ps hstart)] at hr
      obtain ⟨⟨start', _⟩, u, hstart', hr⟩ := Action.bind_ok.mp hr
      obtain ⟨root, hroot⟩ := ih hstart'
      dsimp only at hr
      rw [not_empty_of_fragment hroot] at hr
      obtain ⟨⟨ps', _⟩, v, -, hr⟩ := Action.bind_ok.mp hr
      cases hr
      exact ⟨root, .path along test ps' hroot⟩

theorem cursor_fragment_navigated {root : Node}
    (h : (Expr.value (.nodeSet (.fragment root))).Navigates e) (c : Context) (s : Session)
    (depth : Nat) (sort : Bool) :
    ((engine T depth).cursor e c sort).FailsIn s (Fault.RefusesFragment e.weight depth) := by
  have horigin (depth : Nat) (sort : Bool) :
      ((engine T depth).cursor (.value (.nodeSet (.fragment root))) c sort).FailsIn s
        (Fault.RefusesFragment (0 + 2) depth) := by
    rw [Nat.zero_add]
    exact cursor_fragment root c s depth sort
  have hfails := cursor_navigated h horigin depth sort
  rwa [Nat.zero_add] at hfails

/-- The node-sets that a way from a fragment is kept as: the fragment itself, or a definition that
leads from it and was not read out yet. -/
inductive KeptFrom (root : Node) (t : Session) : NodeSet → Prop
  | fragment : KeptFrom root t (.fragment root)
  | intent {id : Nat} {d : Expr} : (Expr.value (.nodeSet (.fragment root))).Navigates d →
      (t.intent id).extent = none → KeptFrom root t (.intent id d)

/-- The node-set of a reduced way from a fragment. -/
theorem keptFrom_reduced {root : Node} {depth : Nat} {ns : NodeSet} {t u : Session}
    (hroot : (Expr.value (.nodeSet (.fragment root))).Navigates r)
    (hr : (do
      match r with
      | .value v => nodeSetOf v
      | _ =>
        if r.dependencies.isEmpty then NodeSet.ofDefinition r
        else return .extent (← (engine T depth).extent
          (← (engine T depth).cursor r c false)) : Action NodeSet).attempt.run u = (.ok ns, t)) :
    KeptFrom root t ns := by
  have hdefined (hr : (if r.dependencies.isEmpty then NodeSet.ofDefinition r
        else do return .extent (← (engine T depth).extent
          (← (engine T depth).cursor r c false)) : Action NodeSet).attempt.run u = (.ok ns, t)) :
      KeptFrom root t ns := by
    split at hr
    · next hempty =>
      rw [NodeSet.ofDefinition, hempty] at hr
      cases hr
      refine .intent hroot ?_
      simp [Session.intent]
    · obtain ⟨k, v, hk, -⟩ := Action.bind_ok.mp hr
      obtain ⟨f, w, hf, -⟩ := cursor_fragment_navigated (T := T) hroot c u depth false
      rw [hf] at hk
      cases hk
  cases hroot with
  | origin =>
    cases hr
    exact .fragment
  | filter | path => exact hdefined hr

theorem nodeSet_navigated (h : c.HoldsFragment T b s) (hn : (Expr.reference b).Navigates e)
    {depth : Nat} {ns : NodeSet} {t : Session}
    (hr : ((engine T depth).nodeSet e c).attempt.run s = (.ok ns, t)) :
    ∃ root, KeptFrom root t ns := by
  cases depth with
  | zero => cases hr
  | succ depth =>
    change (e.evaluateNodeSet (engine T depth) c).attempt.run s = _ at hr
    cases hn with
    | origin =>
      obtain ⟨v, u, hv, hr⟩ := Action.bind_ok.mp hr
      have hout : (((engine T depth).value (.reference b) c).attempt.run s).1 = .ok v := by rw [hv]
      obtain ⟨root, hroot⟩ := h.value depth (by rw [hout]; nofun)
      rw [hout] at hroot
      cases hroot
      cases hr
      exact ⟨root, .fragment⟩
    | filter p hbase =>
      obtain ⟨⟨r, _⟩, u, hreduce, hrest⟩ := Action.bind_ok.mp hr
      obtain ⟨root, hroot⟩ := reduce_navigated h (.filter p hbase) hreduce
      exact ⟨root, keptFrom_reduced hroot hrest⟩
    | path along test ps hstart =>
      obtain ⟨⟨r, _⟩, u, hreduce, hrest⟩ := Action.bind_ok.mp hr
      obtain ⟨root, hroot⟩ := reduce_navigated h (.path along test ps hstart) hreduce
      exact ⟨root, keptFrom_reduced hroot hrest⟩

/-- A definition that leads from a fragment is refused when it is read out. -/
theorem enumerateIntent_fails {root : Node} {id : Nat}
    (hn : (Expr.value (.nodeSet (.fragment root))).Navigates e) (he : (s.intent id).extent = none)
    (depth : Nat) (sort : Bool) :
    (NodeSet.enumerateIntent T (engine T depth) id e sort).FailsIn s
      (Fault.RefusesFragment e.weight depth) := by
  have huse : (NodeSet.registerUse T id).attempt.run s =
      (.ok (decide (T.threshold ≤ (s.intent id).uses + 1)), s.countUse id) := rfl
  unfold Action.FailsIn
  rw [NodeSet.enumerateIntent, Action.run_get, he]
  simp only [Action.run_bind_ok huse, decide_eq_true_eq]
  split
  · have hread := cursor_fragment_navigated (T := T) hn T.globalContext (s.countUse id) depth false
    obtain ⟨f, t, hr, hf⟩ := (hread.bind fun k => (engine T depth).extent k).bind fun e =>
      .update fun s => (s.keptExtent id e, s.keep id e)
    refine ⟨f, t, ?_, hf⟩
    refine Action.run_bind_error ?_
    rw [NodeSet.materializeIntent, Action.run_get, Session.extent_countUse he, ← hr, bind_assoc]
    rfl
  · exact cursor_fragment_navigated hn T.globalContext (s.countUse id) depth sort

/-- No way that is kept of a fragment is read out. -/
theorem KeptFrom.enumerate_fails {root : Node} {ns : NodeSet} (h : KeptFrom root s ns)
    (depth : Nat) :
    (∀ sort, (ns.enumerateSorted T (engine T depth) sort).FailsIn s fun _ => True) ∧
      (ns.enumerate T (engine T depth)).FailsIn s fun _ => True := by
  cases h with
  | fragment => exact ⟨fun _ => ⟨_, s, rfl, trivial⟩, _, s, rfl, trivial⟩
  | @intent id d hn he =>
    have hfails (sort : Bool) :
        (NodeSet.enumerateIntent T (engine T depth) id d sort).FailsIn s fun _ => True :=
      (enumerateIntent_fails hn he depth sort).imp fun _ _ => trivial
    exact ⟨hfails, hfails false⟩

/-- However an expression is evaluated to nodes that are all read, this ends in a fault: by a cursor,
or by a node-set that is kept. With evaluations followed deep enough, the fault of a cursor is that
a fragment is no node-set. -/
structure RefusedAsNodes (T : Transformation) (e : Expr) (c : Context) (s : Session) : Prop where
  cursor : ∀ depth sort, ((engine T depth).cursor e c sort >>= (engine T depth).drain).FailsIn s
    fun _ => True
  members : ∀ depth, ((engine T depth).nodeSet e c >>= fun ns =>
    ns.members T (engine T depth)).FailsIn s fun _ => True
  sorted : ∀ depth sort, ((engine T depth).nodeSet e c >>= fun ns =>
    ns.enumerateSorted T (engine T depth) sort >>= (engine T depth).drain).FailsIn s fun _ => True
  fault : ∃ least, ∀ depth sort, least ≤ depth →
    ((engine T depth).cursor e c sort >>= (engine T depth).drain).FailsIn s
      (· = .fragmentAsNodeSet)

/-- Every way from a variable that holds a fragment is refused. -/
theorem refused_navigated (h : c.HoldsFragment T b s) (hn : (Expr.reference b).Navigates e) :
    e.RefusedAsNodes T c s := by
  obtain ⟨least, hfound⟩ := h.found
  have hcursor (depth : Nat) (sort : Bool) :=
    (cursor_navigated hn (cursor_reference h hfound) depth sort).bind (engine T depth).drain
  refine ⟨fun depth sort => ?_, fun depth => ?_, fun depth sort => ?_, least + e.weight, ?_⟩
  · exact (hcursor depth sort).imp fun _ _ => trivial
  · refine Action.failsIn_bind fun ns t hns => ?_
    obtain ⟨root, hkept⟩ := nodeSet_navigated h hn hns
    exact (hkept.enumerate_fails depth).2.bind _
  · refine Action.failsIn_bind fun ns t hns => ?_
    obtain ⟨root, hkept⟩ := nodeSet_navigated h hn hns
    exact ((hkept.enumerate_fails depth).1 sort).bind _
  · intro depth sort hd
    refine (hcursor depth sort).imp fun f hf => ?_
    obtain hf | ⟨-, hlow⟩ := hf
    · exact hf
    · omega

/-- A result tree fragment cannot be navigated. Where a text is read as predicates and steps behind
a variable that holds one, its evaluation to nodes is a fault, unless the simplified form of one of
the predicates never holds: then the text stands for the empty set, and the variable is not looked
at. -/
theorem read_navigated (S : Scope) {text : String} (hr : read S text = .ok e)
    (hn : (Expr.reference b).Navigates e) (h : c.HoldsFragment T b s) :
    parse S text = .ok e.simplified ∧
      ((∀ p ∈ e.conditions, p.simplified.knownTruth ≠ some false) →
        e.simplified.RefusedAsNodes T c s) ∧
      ((∃ p ∈ e.conditions, p.simplified.knownTruth = some false) → e.simplified = emptySet) := by
  have hparse : parse S text = .ok e.simplified := by rw [parse, hr]
  obtain ⟨hleads, hempty⟩ :=
    simplified_navigated h.unknown (fresh_of_grammatical (read_produced hr).2) hn
  exact ⟨hparse, fun hall => refused_navigated h (hleads hall).navigates, hempty⟩

/-- The child of a fragment that a local variable holds. -/
theorem read_navigated_child :
    ∃ (S : Scope) (b : Binding) (c : Context) (e : Expr), read S "$f/a" = .ok e ∧
      (Expr.reference b).Navigates e ∧ c.HoldsFragment .bare b {} ∧
      e.simplified.RefusedAsNodes .bare c {} := by
  let b : Binding := ⟨.unqualified "f", false, none⟩
  let c : Context :=
    { locals := [(.unqualified "f", .nodeSet (.fragment (.root ⟨0, false, .text "a"⟩)))] }
  have hr : read (Scope.standalone.declareVariable b) "$f/a" =
      .ok (.path (.reference b) .child (.named .element (.unqualified "a")) []) := by rfl
  have hn : (Expr.reference b).Navigates
      (.path (.reference b) .child (.named .element (.unqualified "a")) []) :=
    .path _ _ _ .origin
  have h : c.HoldsFragment .bare b {} := Context.holdsFragment_local .bare rfl rfl {}
  have hall := (read_navigated (Scope.standalone.declareVariable b) hr hn h).2.1
  exact ⟨_, b, c, _, hr, hn, h, hall (List.forall_mem_nil _)⟩

end Expr

end PathLanguage
