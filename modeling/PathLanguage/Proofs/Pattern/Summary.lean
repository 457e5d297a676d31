/- What the form of a pattern tells of the nodes that match it. A node that it rules out is refused
without any evaluation, so an index that passes over such nodes is the index of all nodes. -/
import PathLanguage.Name.Pool
import PathLanguage.Proofs.Key.Entries
import PathLanguage.Proofs.Session.Returns

namespace PathLanguage

/-- The number of a name in a pool, which gives it one if it has none yet. -/
def NamePool.fingerprint (pool : NamePool) (name : ExpandedName) : Fingerprint :=
  (pool.allocate name).1

/-- A node is of the kind that is asked for, if one is, and has the name that is asked for. -/
structure Node.Suits (n : Node) (kind? : Option NodeKind) (name? : Option ExpandedName) : Prop where
  kind : ∀ k ∈ kind?, n.kind = k
  name : ∀ name ∈ name?, n.expandedName = some name

theorem Node.Suits.mono {n : Node} {kind? kind?' : Option NodeKind}
    {name? name?' : Option ExpandedName} (h : n.Suits kind? name?)
    (hk : ∀ k ∈ kind?', k ∈ kind?) (hn : ∀ name ∈ name?', name ∈ name?) : n.Suits kind?' name?' :=
  ⟨fun k hm => h.kind k (hk k hm), fun name hm => h.name name (hn name hm)⟩

theorem NodeTest.suits_of_accepts {t : NodeTest} {n : Node} (h : t.accepts n = true) :
    n.Suits t.kind? t.name? := by
  cases t with
  | any | anyChild | nothing => exact ⟨nofun, nofun⟩
  | ofKind k =>
    refine ⟨?_, nofun⟩
    rintro _ ⟨⟩
    exact beq_iff_eq.mp h
  | named k name =>
    obtain ⟨hk, hn⟩ := Bool.and_eq_true_iff.mp h
    constructor
    · rintro _ ⟨⟩
      exact beq_iff_eq.mp hk
    · rintro _ ⟨⟩
      exact beq_iff_eq.mp hn
  | inNamespace k uri =>
    refine ⟨?_, nofun⟩
    rintro _ ⟨⟩
    exact beq_iff_eq.mp (Bool.and_eq_true_iff.mp h).1

namespace Pattern

variable {E : Engine} {p : Pattern} {n : Node} {c : Context}

/-- What both parts of a union tell, and no more, the union tells. -/
theorem agreed_of_mem {α : Type} [DecidableEq α] {a b : Option α} {x : α}
    (h : x ∈ if a = b then a else none) : x ∈ a ∧ x ∈ b := by
  split at h
  · next he => exact ⟨h, he ▸ h⟩
  · cases h

theorem suits_union_of_left {a b : Pattern} (h : n.Suits a.kind? a.name?) :
    n.Suits (union a b).kind? (union a b).name? :=
  h.mono (fun _ hk => (agreed_of_mem hk).1) fun _ hn => (agreed_of_mem hn).1

theorem suits_union_of_right {a b : Pattern} (h : n.Suits b.kind? b.name?) :
    n.Suits (union a b).kind? (union a b).name? :=
  h.mono (fun _ hk => (agreed_of_mem hk).2) fun _ hn => (agreed_of_mem hn).2

/-- A node that the form rules out is refused at once. -/
theorem accepts_of_not_suits (h : ¬ n.Suits p.kind? p.name?) : p.accepts E n c = pure false := by
  have htest {t : NodeTest} (h : ¬ n.Suits t.kind? t.name?) : t.accepts n = false :=
    Bool.eq_false_iff.mpr fun ha => h (NodeTest.suits_of_accepts ha)
  have hkind {k : NodeKind} (h : ¬ n.Suits (some k) none) : (n.kind == k) = false := by
    refine beq_eq_false_iff_ne.mpr fun he => h ⟨?_, nofun⟩
    rintro _ ⟨⟩
    exact he
  induction p with
  | document => rw [accepts, hkind h]
  | test t => rw [accepts, htest h]
  | step s => rw [accepts, htest h, if_neg Bool.false_ne_true]
  | under connector upper s =>
    unfold accepts
    rw [htest h]
    rfl
  | id ids => rw [accepts, hkind h, Bool.false_and]
  | key name value => exact absurd ⟨nofun, nofun⟩ h
  | union a b iha ihb =>
    rw [accepts, iha fun ha => h (suits_union_of_left ha),
      ihb fun hb => h (suits_union_of_right hb)]
    rfl

/-- A node that matches suits what the form tells. -/
theorem accepts_suits (E : Engine) (p : Pattern) (n : Node) (c : Context) :
    Returns (p.accepts E n c) fun found => found = true → n.Suits p.kind? p.name? := by
  by_cases h : n.Suits p.kind? p.name?
  · exact fun _ _ _ _ => h
  · rw [accepts_of_not_suits h]
    exact .pure nofun

/-- An attribute is ruled out by every pattern that cannot match attributes. -/
theorem not_suits_of_attribute (hp : p.mayMatchAttributes = false) (hn : n.kind = .attribute) :
    ¬ n.Suits p.kind? p.name? := by
  intro h
  unfold mayMatchAttributes at hp
  split at hp
  · next k hk => exact beq_eq_false_iff_ne.mp hp ((h.kind k hk).symm.trans hn)
  · cases hp

end Pattern

namespace Key

open Node

variable {T : Transformation} {E : Engine} {c : Context} {ds : List KeyDefinition} {n : Node}

/-- A node that no definition can match is not entered. -/
theorem enterNode_of_not_suits (h : ∀ d ∈ ds, ¬ n.Suits d.pattern.kind? d.pattern.name?)
    (es : Entries) : enterNode T E c n ds es = pure es := by
  induction ds with
  | nil => rfl
  | cons d ds ih =>
    obtain ⟨hd, hds⟩ := List.forall_mem_cons.mp h
    rw [enterNode, Pattern.accepts_of_not_suits hd]
    exact ih hds

theorem enterNodes_append (ns ms : List Node) (es : Entries) :
    enterNodes T E c ds (ns ++ ms) es =
      enterNodes T E c ds ns es >>= fun es => enterNodes T E c ds ms es := by
  induction ns generalizing es with
  | nil => rfl
  | cons n ns ih =>
    simp only [List.cons_append, enterNodes, ih, bind_assoc]

/-- Nodes that no definition can match may be passed over. -/
theorem enterNodes_of_not_suits {ns : List Node}
    (h : ∀ n ∈ ns, ∀ d ∈ ds, ¬ n.Suits d.pattern.kind? d.pattern.name?) (es : Entries) :
    enterNodes T E c ds ns es = pure es := by
  induction ns with
  | nil => rfl
  | cons n ns ih =>
    obtain ⟨hn, hns⟩ := List.forall_mem_cons.mp h
    rw [enterNodes, enterNode_of_not_suits hn]
    exact ih hns

/-- Every node that is attached to another is ruled out by all the definitions. -/
def PassesOver (ds : List KeyDefinition) (attached : Node → List Node) : Prop :=
  ∀ n, ∀ m ∈ attached n, ∀ d ∈ ds, ¬ m.Suits d.pattern.kind? d.pattern.name?

variable {attached : Node → List Node}

mutual

theorem PassesOver.walkTree (h : PassesOver ds attached) (n : Node) : ∀ (t : Tree) (es : Entries),
    enterNodes T E c ds (n.walkTree attached t) es =
      enterNodes T E c ds (n.walkTree (fun _ => []) t) es
  | .document .., es | .element .., es => by
    simp only [Node.walkTree, enterNodes, enterNodes_append, enterNodes_of_not_suits (h n),
      pure_bind, h.walkForest n 0]
  | .text _, es | .comment _, es | .instruction .., es => by
    simp only [Node.walkTree, enterNodes, enterNodes_of_not_suits (h n)]

theorem PassesOver.walkForest (h : PassesOver ds attached) (n : Node) :
    ∀ (i : Nat) (ts : List Tree) (es : Entries),
      enterNodes T E c ds (n.walkForest attached i ts) es =
        enterNodes T E c ds (n.walkForest (fun _ => []) i ts) es
  | _, [], es => rfl
  | i, t :: ts, es => by
    simp only [Node.walkForest, enterNodes_append, h.walkTree (.child n i t) t,
      h.walkForest n (i + 1) ts]

end

theorem PassesOver.walk (h : PassesOver ds attached) (root : Node) (es : Entries) :
    enterNodes T E c ds (root.walk attached) es =
      enterNodes T E c ds (root.walk fun _ => []) es := by
  unfold Node.walk
  split
  · exact h.walkTree root _ es
  · rfl

/-- The attributes that an index does not cover would add nothing to it. -/
theorem enterNodes_candidates (root : Node) (es : Entries) :
    enterNodes T E c ds (candidates ds root) es =
      enterNodes T E c ds (root.walk Node.attributes) es := by
  unfold candidates
  cases ha : ds.any (·.pattern.mayMatchAttributes) with
  | true => rfl
  | false =>
    refine (PassesOver.walk (fun n m hm d hd => ?_) root es).symm
    exact Pattern.not_suits_of_attribute (by simpa using List.any_eq_false.mp ha d hd)
      (kind_of_mem_attributes hm)

end Key

namespace Pattern

/-- What the form of a pattern tells is so of every node that matches it: its kind, its name with the
number of that in any pool, and whether it may be an attribute. What relies on it loses nothing: a
node that the form rules out is refused without an evaluation, and the index of the candidates is
that of all nodes of the tree and their attributes. -/
theorem summary_sound (T : Transformation) (E : Engine) (c : Context) :
    (∀ (p : Pattern) (n : Node) (s : Session), ((p.accepts E n c).attempt.run s).1 = .ok true →
      (∀ k, p.kind? = some k → n.kind = k) ∧
      (∀ name, p.name? = some name → n.expandedName = some name) ∧
      (∀ (pool : NamePool) (number : Fingerprint), p.name?.map pool.fingerprint = some number →
        n.expandedName.map pool.fingerprint = some number) ∧
      (p.mayMatchAttributes = false → n.kind ≠ .attribute)) ∧
    (∀ (p : Pattern) (n : Node), ¬ n.Suits p.kind? p.name? → p.accepts E n c = pure false) ∧
    ∀ (ds : List KeyDefinition) (root : Node),
      Key.enterNodes T E c ds (Key.candidates ds root) [] =
        Key.enterNodes T E c ds (root.walk Node.attributes) [] := by
  refine ⟨fun p n s h => ?_, fun p n => accepts_of_not_suits, fun ds root =>
    Key.enterNodes_candidates root []⟩
  have hs : n.Suits p.kind? p.name? := accepts_suits E p n c s true h rfl
  refine ⟨hs.kind, hs.name, fun pool number hp => ?_, fun hp hn => not_suits_of_attribute hp hn hs⟩
  obtain ⟨name, hname, rfl⟩ := Option.map_eq_some_iff.mp hp
  rw [hs.name name hname]
  rfl

/-- A union of two steps to attributes of one name, the second under an element, tells the name and
the kind; it accepts such an attribute, and a pattern of elements refuses it. -/
theorem summary_sound_of_union : ∃ (p q : Pattern) (n : Node) (name : ExpandedName),
    ((p.accepts (engine {} 1) n .blank).attempt.run {}).1 = .ok true ∧
      p.kind? = some .attribute ∧ p.name? = some name ∧
      n.kind = .attribute ∧ n.expandedName = some name ∧
      q.mayMatchAttributes = false ∧ ¬ n.Suits q.kind? q.name? ∧
      q.accepts (engine {} 1) n .blank = pure false := by
  let name : ExpandedName := .unqualified "id"
  let step : PatternStep := ⟨.attribute, .named .attribute name, [], .none⟩
  let q : Pattern := .test (.ofKind .element)
  let p : Pattern := .union (.under .ancestor .document step) (.under .parent q step)
  let r : Tree := .element (.unqualified "r") none [] [⟨.unqualified "id", "x"⟩] []
  let root : Node := .root ⟨0, false, r⟩
  let n : Node := .attribute root 0 ⟨.unqualified "id", "x"⟩
  obtain ⟨hsound, hrefused, -⟩ := summary_sound {} (engine {} 1) .blank
  have hp : ((p.accepts (engine {} 1) n .blank).attempt.run {}).1 = .ok true := rfl
  obtain ⟨hkind, hname, -, -⟩ := hsound p n {} hp
  have hq : ¬ n.Suits q.kind? q.name? := fun h => nomatch h.kind .element rfl
  exact ⟨p, q, n, name, hp, rfl, rfl, hkind _ rfl, hname _ rfl, rfl, hq, hrefused q n hq⟩

end Pattern

end PathLanguage
