/- Simplification ends in an expression to which no rule applies any more, the same one in every
session; what is simplified already is left as it is. A lazy node-set may be evaluated otherwise once
its nodes are kept, so that what a rule computes of it may depend on how often it was used. -/
import PathLanguage.Expr.Parse
import PathLanguage.Proofs.Simplification.Rules

namespace PathLanguage.Expr

variable {T : Transformation} {E : Engine} {P : Leaf → Prop} {α β : Type} {e r : Expr} {d : Nat}

section inert

variable {m : StateM Session (α × Bool)} {n : StateM Session (β × Bool)} {a : α} {b : β}

theorem applyRulesUpTo_unchanged (h : Inert T E e) (limit : Nat) (changed : Bool) :
    Always (applyRulesUpTo T E limit e changed) (· = (e, changed)) := by
  cases limit with
  | zero => exact .pure rfl
  | succ n =>
    refine h.rule.bind ?_
    rintro _ rfl
    exact .pure rfl

theorem applyRulesUpTo_inert (h : Inert T E e) (limit : Nat) (changed : Bool) :
    Always (applyRulesUpTo T E limit e changed) (·.1 = e) :=
  (applyRulesUpTo_unchanged h limit changed).imp fun _ => congrArg Prod.fst

/-- What each rule preserves, the loop of rules preserves. -/
theorem applyRulesUpTo_keeps {Q : Expr → Prop}
    (hQ : ∀ x, Q x → Always (x.applyRule? T E) fun o => ∀ y, o = some y → Q y) (h : Q e)
    (limit : Nat) (changed : Bool) :
    Always (applyRulesUpTo T E limit e changed) (Q ·.1) := by
  induction limit generalizing e changed with
  | zero => exact .pure h
  | succ n ih =>
    refine (hQ e h).bind fun o ho => ?_
    cases o with
    | none => exact .pure h
    | some x => exact ih (ho x rfl) true

/-- An inert expression put together from one part, or one list of parts, that is left. -/
theorem unchanged_one {f : α → Expr} (hm : Always m (· = (a, false))) (h : Inert T E (f a)) :
    Always (do let (x, c) ← m; applyRules T E (f x) c) (· = (f a, false)) := by
  refine hm.bind ?_
  rintro _ rfl
  exact applyRulesUpTo_unchanged h _ _

/-- An inert expression put together from two. -/
theorem unchanged_two {f : α → β → Expr} (hm : Always m (· = (a, false)))
    (hn : Always n (· = (b, false))) (h : Inert T E (f a b)) :
    Always (do
      let (x, c) ← m
      let (y, c') ← n
      applyRules T E (f x y) (c || c')) (· = (f a b, false)) := by
  refine hm.bind ?_
  rintro _ rfl
  refine hn.bind ?_
  rintro _ rfl
  exact applyRulesUpTo_unchanged h _ _

mutual

/-- What no rule applies to is left as it is. -/
theorem simplify_inert : ∀ {e : Expr}, Inert T E e → Always (e.simplify T E) (· = (e, false))
  | .path start along test predicates, h =>
    unchanged_two (f := fun x es => .path x along test es)
      (simplify_inert (h.children start (.head _)))
      (simplifyAll_inert fun p (hp : p ∈ predicates) => h.children p (.tail _ hp)) h
  | .filter base predicate, h =>
    unchanged_two (f := .filter) (simplify_inert (h.children base (.head _)))
      (simplify_inert (h.children predicate (.tail _ (.head _)))) h
  | .set op l r, h =>
    unchanged_two (f := .set op) (simplify_inert (h.children l (.head _)))
      (simplify_inert (h.children r (.tail _ (.head _)))) h
  | .distinct base, h => unchanged_one (f := .distinct) (simplify_inert (h.children base (.head _))) h
  | .distinctBy base key, h =>
    unchanged_two (f := .distinctBy) (simplify_inert (h.children base (.head _)))
      (simplify_inert (h.children key (.tail _ (.head _)))) h
  | .logical op l r, h =>
    unchanged_two (f := .logical op) (simplify_inert (h.children l (.head _)))
      (simplify_inert (h.children r (.tail _ (.head _)))) h
  | .compare op l r, h =>
    unchanged_two (f := .compare op) (simplify_inert (h.children l (.head _)))
      (simplify_inert (h.children r (.tail _ (.head _)))) h
  | .arithmetic op l r, h =>
    unchanged_two (f := .arithmetic op) (simplify_inert (h.children l (.head _)))
      (simplify_inert (h.children r (.tail _ (.head _)))) h
  | .compareNode op n v, h =>
    unchanged_one (f := fun n => .compareNode op n v) (simplify_inert (h.children n (.head _))) h
  | .compareNodes op n v, h =>
    unchanged_one (f := fun n => .compareNodes op n v) (simplify_inert (h.children n (.head _))) h
  | .negate e, h => unchanged_one (f := .negate) (simplify_inert (h.children e (.head _))) h
  | .call f _ bound scope, h =>
    unchanged_one (f := fun es => .call f es bound scope) (simplifyAll_inert h.children) h
  | .extension name _, h =>
    unchanged_one (f := .extension name) (simplifyAll_inert h.children) h
  | .template _, h => unchanged_one (f := .template) (simplifyAll_inert h.children) h
  | .sorted base keys rules, h =>
    unchanged_two (f := fun x es => .sorted x es rules)
      (simplify_inert (h.children base (.head _)))
      (simplifyAll_inert fun k (hk : k ∈ keys) => h.children k (.tail _ hk)) h
  | .value _, h | .root, h | .contextNode, h | .parentNode, h | .currentNode, h
  | .attribute _, h | .axis .., h | .reference _, h | .positionRange .., h | .isLast _, h
  | .failure _, h => applyRulesUpTo_unchanged h _ _

theorem simplifyAll_inert : ∀ {es : List Expr}, (∀ e ∈ es, Inert T E e) →
    Always (simplifyAll T E es) (· = (es, false))
  | [], _ => .pure rfl
  | e :: es, h => by
    obtain ⟨he, hes⟩ := List.forall_mem_cons.mp h
    refine (simplify_inert he).bind ?_
    rintro _ rfl
    refine (simplifyAll_inert hes).bind ?_
    rintro _ rfl
    exact .pure rfl

end

end inert

/-- What the simplification of an expression comes to: the same in every session, such that no rule
applies to it. -/
structure SettlesIn (P : Leaf → Prop) (T : Transformation) (E : Engine)
    (m : StateM Session (Expr × Bool)) (r : Expr) : Prop where
  same : Always m (·.1 = r)
  only : r.Only P
  inert : Inert T E r

/-- The same of all expressions of a list. -/
structure AllSettleIn (P : Leaf → Prop) (T : Transformation) (E : Engine)
    (m : StateM Session (List Expr × Bool)) (rs : List Expr) : Prop where
  same : Always m (·.1 = rs)
  only : ∀ r ∈ rs, r.Only P
  inert : ∀ r ∈ rs, Inert T E r

/-- Each rule lowers the weight, so that the rules that apply are fewer than that. -/
theorem applyRulesUpTo_settles (hP : Leaf.Kind P) {limit : Nat} (hw : e.weight ≤ limit)
    (h : e.Only P) (hi : ∀ c ∈ e.children, Inert T (engine T (d + 3)) c) :
    ∃ r, ∀ changed,
      SettlesIn P T (engine T (d + 3)) (applyRulesUpTo T (engine T (d + 3)) limit e changed) r := by
  induction limit generalizing e with
  | zero => exact absurd (weight_pos e) (by omega)
  | succ n ih =>
    obtain ⟨o, ho, himproves⟩ := applyRule?_decides (T := T) (d := d) hP h hi
    cases o with
    | none =>
      refine ⟨e, fun changed => ⟨ho.bind ?_, h, ⟨ho, hi⟩⟩⟩
      rintro _ rfl
      exact .pure rfl
    | some x =>
      have hx := himproves x rfl
      have hlighter : x.weight < e.weight :=
        applyRule?_lighter (T := T) (E := engine T (d + 3)) e {} x (ho {})
      obtain ⟨r, hr⟩ := ih (by omega) hx.only hx.inert
      refine ⟨r, fun changed => ⟨ho.bind ?_, (hr true).only, (hr true).inert⟩⟩
      rintro _ rfl
      exact (hr true).same

section parts

variable {m : StateM Session (α × Bool)} {n : StateM Session (β × Bool)} {a : α} {b : β}

theorem applyRules_settles (hP : Leaf.Kind P) (h : e.Only P)
    (hi : ∀ c ∈ e.children, Inert T (engine T (d + 3)) c) :
    ∃ r, ∀ changed,
      SettlesIn P T (engine T (d + 3)) (applyRules T (engine T (d + 3)) e changed) r :=
  applyRulesUpTo_settles hP (Nat.le_refl _) h hi

/-- An expression put together from one simplified part, or one list of parts. -/
theorem settles_one (hP : Leaf.Kind P) {f : α → Expr} (hm : Always m (·.1 = a))
    (h : (f a).Only P) (hi : ∀ c ∈ (f a).children, Inert T (engine T (d + 3)) c) :
    ∃ r, SettlesIn P T (engine T (d + 3))
      (do let (x, c) ← m; applyRules T (engine T (d + 3)) (f x) c) r := by
  obtain ⟨r, hr⟩ := applyRules_settles (T := T) (d := d) hP h hi
  refine ⟨r, hm.bind ?_, (hr true).only, (hr true).inert⟩
  rintro ⟨_, c⟩ rfl
  exact (hr c).same

/-- An expression put together from two. -/
theorem settles_two (hP : Leaf.Kind P) {f : α → β → Expr} (hm : Always m (·.1 = a))
    (hn : Always n (·.1 = b)) (h : (f a b).Only P)
    (hi : ∀ c ∈ (f a b).children, Inert T (engine T (d + 3)) c) :
    ∃ r, SettlesIn P T (engine T (d + 3)) (do
      let (x, c) ← m
      let (y, c') ← n
      applyRules T (engine T (d + 3)) (f x y) (c || c')) r := by
  obtain ⟨r, hr⟩ := applyRules_settles (T := T) (d := d) hP h hi
  refine ⟨r, hm.bind ?_, (hr true).only, (hr true).inert⟩
  rintro ⟨_, c⟩ rfl
  refine hn.bind ?_
  rintro ⟨_, c'⟩ rfl
  exact (hr (c || c')).same

end parts

section shapes

variable {x y a b : Expr} {xs as : List Expr}

/-- An expression with one operand. -/
theorem settles_operand (hP : Leaf.Kind P) {f : Expr → Expr} (hparts : ∀ x, (f x).children = [x])
    (honly : ∀ x, x.Only P → (f x).Only P)
    (hx : SettlesIn P T (engine T (d + 3)) (x.simplify T (engine T (d + 3))) a) :
    ∃ r, SettlesIn P T (engine T (d + 3)) (do
      let (x, c) ← x.simplify T (engine T (d + 3))
      applyRules T (engine T (d + 3)) (f x) c) r := by
  apply settles_one hP hx.same (honly a hx.only)
  rw [hparts]
  exact List.forall_mem_singleton.mpr hx.inert

/-- An expression with two operands. -/
theorem settles_operands (hP : Leaf.Kind P) {f : Expr → Expr → Expr}
    (hparts : ∀ x y, (f x y).children = [x, y])
    (hleaves : ∀ x y, (f x y).leaves = x.leaves ++ y.leaves)
    (hx : SettlesIn P T (engine T (d + 3)) (x.simplify T (engine T (d + 3))) a)
    (hy : SettlesIn P T (engine T (d + 3)) (y.simplify T (engine T (d + 3))) b) :
    ∃ r, SettlesIn P T (engine T (d + 3)) (do
      let (x, c) ← x.simplify T (engine T (d + 3))
      let (y, c') ← y.simplify T (engine T (d + 3))
      applyRules T (engine T (d + 3)) (f x y) (c || c')) r := by
  apply settles_two hP hx.same hy.same
  · rw [Only, hleaves]
    exact List.forall_mem_append.mpr ⟨hx.only, hy.only⟩
  · rw [hparts]
    exact List.forall_mem_cons.mpr ⟨hx.inert, List.forall_mem_singleton.mpr hy.inert⟩

/-- An expression with a list of operands. -/
theorem settles_list (hP : Leaf.Kind P) {f : List Expr → Expr} (hparts : ∀ es, (f es).children = es)
    (honly : ∀ es, (∀ e ∈ es, e.Only P) → (f es).Only P)
    (hxs : AllSettleIn P T (engine T (d + 3)) (simplifyAll T (engine T (d + 3)) xs) as) :
    ∃ r, SettlesIn P T (engine T (d + 3)) (do
      let (es, c) ← simplifyAll T (engine T (d + 3)) xs
      applyRules T (engine T (d + 3)) (f es) c) r := by
  apply settles_one hP hxs.same (honly as hxs.only)
  rw [hparts]
  exact hxs.inert

/-- An expression with an operand and a list of further ones. -/
theorem settles_headed (hP : Leaf.Kind P) {f : Expr → List Expr → Expr}
    (hparts : ∀ x es, (f x es).children = x :: es)
    (hleaves : ∀ x es, (f x es).leaves = x.leaves ++ leavesOfAll es)
    (hx : SettlesIn P T (engine T (d + 3)) (x.simplify T (engine T (d + 3))) a)
    (hxs : AllSettleIn P T (engine T (d + 3)) (simplifyAll T (engine T (d + 3)) xs) as) :
    ∃ r, SettlesIn P T (engine T (d + 3)) (do
      let (x, c) ← x.simplify T (engine T (d + 3))
      let (es, c') ← simplifyAll T (engine T (d + 3)) xs
      applyRules T (engine T (d + 3)) (f x es) (c || c')) r := by
  apply settles_two hP hx.same hxs.same
  · rw [Only, hleaves]
    exact List.forall_mem_append.mpr ⟨hx.only, only_leavesOfAll_iff.mpr hxs.only⟩
  · rw [hparts]
    exact List.forall_mem_cons.mpr ⟨hx.inert, hxs.inert⟩

/-- An expression without operands. -/
theorem settles_leaf (hP : Leaf.Kind P) (h : e.Only P) (hparts : e.children = []) :
    ∃ r, SettlesIn P T (engine T (d + 3)) (applyRules T (engine T (d + 3)) e false) r := by
  obtain ⟨r, hr⟩ := applyRules_settles (T := T) (d := d) hP h
    (by rw [hparts]; exact List.forall_mem_nil _)
  exact ⟨r, hr false⟩

end shapes

mutual

theorem simplify_settles (hP : Leaf.Kind P) : ∀ {e : Expr}, e.Only P →
    ∃ r, SettlesIn P T (engine T (d + 3)) (e.simplify T (engine T (d + 3))) r
  | .path start along test predicates, h => by
    obtain ⟨a, ha⟩ := simplify_settles hP (h.children (c := start) (.head _))
    obtain ⟨b, hb⟩ := simplifyAll_settles hP fun p (hp : p ∈ predicates) => h.children (.tail _ hp)
    exact settles_headed hP (f := fun x es => .path x along test es) (fun _ _ => rfl)
      (fun _ _ => rfl) ha hb
  | .filter base predicate, h => by
    obtain ⟨a, ha⟩ := simplify_settles hP (h.children (c := base) (.head _))
    obtain ⟨b, hb⟩ := simplify_settles hP (h.children (c := predicate) (.tail _ (.head _)))
    exact settles_operands hP (f := .filter) (fun _ _ => rfl) (fun _ _ => rfl) ha hb
  | .set op l r, h => by
    obtain ⟨a, ha⟩ := simplify_settles hP (h.children (c := l) (.head _))
    obtain ⟨b, hb⟩ := simplify_settles hP (h.children (c := r) (.tail _ (.head _)))
    exact settles_operands hP (f := .set op) (fun _ _ => rfl) (fun _ _ => rfl) ha hb
  | .distinct base, h => by
    obtain ⟨a, ha⟩ := simplify_settles hP (h.children (c := base) (.head _))
    exact settles_operand hP (f := .distinct) (fun _ => rfl) (fun _ hx => hx) ha
  | .distinctBy base key, h => by
    obtain ⟨a, ha⟩ := simplify_settles hP (h.children (c := base) (.head _))
    obtain ⟨b, hb⟩ := simplify_settles hP (h.children (c := key) (.tail _ (.head _)))
    exact settles_operands hP (f := .distinctBy) (fun _ _ => rfl) (fun _ _ => rfl) ha hb
  | .logical op l r, h => by
    obtain ⟨a, ha⟩ := simplify_settles hP (h.children (c := l) (.head _))
    obtain ⟨b, hb⟩ := simplify_settles hP (h.children (c := r) (.tail _ (.head _)))
    exact settles_operands hP (f := .logical op) (fun _ _ => rfl) (fun _ _ => rfl) ha hb
  | .compare op l r, h => by
    obtain ⟨a, ha⟩ := simplify_settles hP (h.children (c := l) (.head _))
    obtain ⟨b, hb⟩ := simplify_settles hP (h.children (c := r) (.tail _ (.head _)))
    exact settles_operands hP (f := .compare op) (fun _ _ => rfl) (fun _ _ => rfl) ha hb
  | .arithmetic op l r, h => by
    obtain ⟨a, ha⟩ := simplify_settles hP (h.children (c := l) (.head _))
    obtain ⟨b, hb⟩ := simplify_settles hP (h.children (c := r) (.tail _ (.head _)))
    exact settles_operands hP (f := .arithmetic op) (fun _ _ => rfl) (fun _ _ => rfl) ha hb
  | .compareNode op n v, h => by
    obtain ⟨a, ha⟩ := simplify_settles hP (h.children (c := n) (.head _))
    have hv : ∀ l ∈ v.leaves, P l := fun l hl => h l (List.mem_append_right _ hl)
    exact settles_operand hP (f := fun n => .compareNode op n v) (fun _ => rfl)
      (fun _ hx => List.forall_mem_append.mpr ⟨hx, hv⟩) ha
  | .compareNodes op n v, h => by
    obtain ⟨a, ha⟩ := simplify_settles hP (h.children (c := n) (.head _))
    have hv : ∀ l ∈ v.leaves, P l := fun l hl => h l (List.mem_append_right _ hl)
    exact settles_operand hP (f := fun n => .compareNodes op n v) (fun _ => rfl)
      (fun _ hx => List.forall_mem_append.mpr ⟨hx, hv⟩) ha
  | .negate e, h => by
    obtain ⟨a, ha⟩ := simplify_settles hP (h.children (c := e) (.head _))
    exact settles_operand hP (f := .negate) (fun _ => rfl) (fun _ hx => hx) ha
  | .call f args bound scope, h => by
    have hf : P (.call f) := h _ (.head _)
    have hbound : ∀ n ∈ bound, P (.node n) := fun n hn => h _ <| .tail _ <|
      List.mem_append_right _ (List.mem_map_of_mem (Option.mem_toList.mpr hn))
    obtain ⟨as, has⟩ := simplifyAll_settles hP fun x (hx : x ∈ args) => h.children hx
    exact settles_list hP (f := fun es => .call f es bound scope) (fun _ => rfl)
      (fun es hes => only_call hf hes hbound) has
  | .extension name args, h => by
    have hname : P (.host name) := h _ (.head _)
    obtain ⟨as, has⟩ := simplifyAll_settles hP fun x (hx : x ∈ args) => h.children hx
    exact settles_list hP (f := .extension name) (fun _ => rfl)
      (fun es hes => List.forall_mem_cons.mpr ⟨hname, only_leavesOfAll_iff.mpr hes⟩) has
  | .template parts, h => by
    obtain ⟨as, has⟩ := simplifyAll_settles hP fun x (hx : x ∈ parts) => h.children hx
    exact settles_list hP (f := .template) (fun _ => rfl)
      (fun es hes => only_leavesOfAll_iff.mpr hes) has
  | .sorted base keys rules, h => by
    obtain ⟨a, ha⟩ := simplify_settles hP (h.children (c := base) (.head _))
    obtain ⟨b, hb⟩ := simplifyAll_settles hP fun p (hp : p ∈ keys) => h.children (.tail _ hp)
    exact settles_headed hP (f := fun x es => .sorted x es rules) (fun _ _ => rfl)
      (fun _ _ => rfl) ha hb
  | .value _, h | .root, h | .contextNode, h | .parentNode, h | .currentNode, h
  | .attribute _, h | .axis .., h | .reference _, h | .positionRange .., h | .isLast _, h
  | .failure _, h => settles_leaf hP h rfl

theorem simplifyAll_settles (hP : Leaf.Kind P) : ∀ {es : List Expr}, (∀ e ∈ es, e.Only P) →
    ∃ rs, AllSettleIn P T (engine T (d + 3)) (simplifyAll T (engine T (d + 3)) es) rs
  | [], _ => ⟨[], .pure rfl, nofun, nofun⟩
  | e :: es, h => by
    obtain ⟨he, hes⟩ := List.forall_mem_cons.mp h
    obtain ⟨a, ha⟩ := simplify_settles hP he
    obtain ⟨b, hb⟩ := simplifyAll_settles hP hes
    refine ⟨a :: b, ha.same.bind ?_, List.forall_mem_cons.mpr ⟨ha.only, hb.only⟩,
      List.forall_mem_cons.mpr ⟨ha.inert, hb.inert⟩⟩
    rintro ⟨_, c⟩ rfl
    refine hb.same.bind ?_
    rintro ⟨_, c'⟩ rfl
    exact .pure rfl

end

section bare

theorem bareEngine : Transformation.bare.run = engine .bare (999997 + 3) := rfl

/-- The simplified form of an expression that holds nothing but names. -/
theorem simplified_settles (h : e.Fresh) :
    SettlesIn Leaf.IsNamed .bare Transformation.bare.run
      (e.simplify .bare Transformation.bare.run) e.simplified := by
  obtain ⟨r, hr⟩ := simplify_settles (T := .bare) (d := 999997) Leaf.kind_named h
  rw [← bareEngine] at hr
  have : e.simplified = r := hr.same {}
  exact this ▸ hr

theorem simplifyAll_map {es : List Expr} (h : ∀ e ∈ es, e.Fresh) :
    Always (simplifyAll .bare Transformation.bare.run es) (·.1 = es.map simplified) := by
  induction es with
  | nil => exact .pure rfl
  | cons e es ih =>
    obtain ⟨he, hes⟩ := List.forall_mem_cons.mp h
    refine (simplified_settles he).same.bind ?_
    rintro ⟨_, c⟩ rfl
    refine (ih hes).bind ?_
    rintro ⟨_, c'⟩ rfl
    exact .pure rfl

/-- The expression with its direct subexpressions simplified, to which rules are applied then. -/
def partsSimplified : Expr → Expr
  | .path start along test predicates =>
    .path start.simplified along test (predicates.map simplified)
  | .filter base predicate => .filter base.simplified predicate.simplified
  | .set op l r => .set op l.simplified r.simplified
  | .distinct base => .distinct base.simplified
  | .distinctBy base key => .distinctBy base.simplified key.simplified
  | .logical op l r => .logical op l.simplified r.simplified
  | .compare op l r => .compare op l.simplified r.simplified
  | .arithmetic op l r => .arithmetic op l.simplified r.simplified
  | .compareNode op n v => .compareNode op n.simplified v
  | .compareNodes op n v => .compareNodes op n.simplified v
  | .negate e => .negate e.simplified
  | .call f args bound scope => .call f (args.map simplified) bound scope
  | .extension name args => .extension name (args.map simplified)
  | .template parts => .template (parts.map simplified)
  | .sorted base keys rules => .sorted base.simplified (keys.map simplified) rules
  | e => e

theorem simplify_one {m : StateM Session (α × Bool)} {a : α} {f : α → Expr}
    {Q : Expr × Bool → Prop} (hm : Always m (·.1 = a))
    (h : ∀ c, Always (applyRules T E (f a) c) Q) :
    Always (do let (x, c) ← m; applyRules T E (f x) c) Q := by
  refine hm.bind ?_
  rintro ⟨_, c⟩ rfl
  exact h c

theorem simplify_two {m : StateM Session (α × Bool)} {n : StateM Session (β × Bool)} {a : α}
    {b : β} {f : α → β → Expr} {Q : Expr × Bool → Prop} (hm : Always m (·.1 = a))
    (hn : Always n (·.1 = b)) (h : ∀ c, Always (applyRules T E (f a b) c) Q) :
    Always (do
      let (x, c) ← m
      let (y, c') ← n
      applyRules T E (f x y) (c || c')) Q := by
  refine hm.bind ?_
  rintro ⟨_, c⟩ rfl
  refine hn.bind ?_
  rintro ⟨_, c'⟩ rfl
  exact h _

/-- What is true of all that rules make of the simplified parts is true of the simplified form. -/
theorem simplified_of_parts {Q : Expr → Prop} (hf : e.Fresh)
    (h : ∀ c, Always (applyRules .bare Transformation.bare.run e.partsSimplified c) (Q ·.1)) :
    Q e.simplified := by
  have hparts (c : Expr) (hc : c ∈ e.children) : c.Fresh :=
    Only.children (P := Leaf.IsNamed) hf hc
  have hpart {c : Expr} (hc : c ∈ e.children) := (simplified_settles (hparts c hc)).same
  suffices hall : Always (e.simplify .bare Transformation.bare.run) (Q ·.1) from hall {}
  cases e with
  | path start along test predicates =>
    exact simplify_two (f := fun x es => .path x along test es) (hpart (.head _))
      (simplifyAll_map fun p hp => hparts p (.tail _ hp)) h
  | sorted base keys rules =>
    exact simplify_two (f := fun x es => .sorted x es rules) (hpart (.head _))
      (simplifyAll_map fun p hp => hparts p (.tail _ hp)) h
  | filter | set | distinctBy | logical | compare | arithmetic =>
    exact simplify_two (hpart (.head _)) (hpart (.tail _ (.head _))) h
  | compareNode op n v =>
    exact simplify_one (f := fun x => .compareNode op x v) (hpart (.head _)) h
  | compareNodes op n v =>
    exact simplify_one (f := fun x => .compareNodes op x v) (hpart (.head _)) h
  | distinct | negate => exact simplify_one (hpart (.head _)) h
  | call f args bound scope =>
    exact simplify_one (f := fun es => .call f es bound scope) (simplifyAll_map hparts) h
  | extension | template => exact simplify_one (simplifyAll_map hparts) h
  | _ => exact h false

end bare

end PathLanguage.Expr

namespace PathLanguage.Expr

/-- Rules are applied as long as one applies, and this ends. An expression without lazy node-sets
comes to the same in every session: to one such that no rule applies to it or to any of its parts,
so that it is left as it is when it is simplified again. -/
theorem simplify_ends_in_normal_form (T : Transformation) (e : Expr) :
    (∀ changed, applyRules T T.run e changed = (do
      match ← e.applyRule? T T.run with
      | none => return (e, changed)
      | some x => applyRules T T.run x true)) ∧
    (e.Eager → ∃ r, Always (e.simplify T T.run) (·.1 = r) ∧ Inert T T.run r ∧
      Always (r.simplify T T.run) (· = (r, false))) := by
  refine ⟨applyRules_eq e, fun heager => ?_⟩
  obtain ⟨r, hr⟩ := simplify_settles (T := T) (d := 999997) Leaf.kind_eager heager
  exact ⟨r, hr.same, hr.inert, simplify_inert hr.inert⟩

/-- The comparison `count(N) = 0` where `N` is a document that a host has listed. -/
theorem simplify_ends_for_listed_nodes :
    ∃ r, Always ((Expr.compare .equal
        (callOf .count [.value (.nodeSet (.extent ⟨[.root ⟨0, false, .text "a"⟩], true, true⟩))])
        (.value (.number 0))).simplify .bare Transformation.bare.run) (·.1 = r) ∧
      Inert .bare Transformation.bare.run r ∧
      Always (r.simplify .bare Transformation.bare.run) (· = (r, false)) := by
  refine (simplify_ends_in_normal_form .bare _).2 fun l hl => ?_
  simp only [callOf, leaves, leavesOfAll, Value.leaves, NodeSet.leaves, Option.toList_none,
    List.map_nil, List.append_nil, List.mem_cons, List.not_mem_nil, or_false] at hl
  rcases hl with rfl | rfl <;> trivial

end PathLanguage.Expr
