/- Evaluations that end: what comes of them is settled at some depth, whatever engine stands below
it. Reading a cursor ends if the predicates and keys that it holds do, since each node that it
delivers brings it closer to its end. -/
import PathLanguage.Evaluation

namespace PathLanguage

/-- The engine that rests on another one. -/
def Engine.deeper (E : Engine) (T : Transformation) : Engine where
  value e c := e.evaluate T E c
  boolean e c := e.evaluateBoolean T E c
  number e c := e.evaluateNumber T E c
  string e c := e.evaluateString T E c
  nodeSet e c := e.evaluateNodeSet E c
  cursor e c sort := e.enumerate T E c sort
  reduce mask e c := e.reduce E mask c
  next c := c.next E
  size c := c.size E
  drain c := c.drain E
  find test c := c.find E test
  search name value root c := Key.search T E name value root c

/-- The engine that follows evaluations to a depth and leaves to another one what is deeper. -/
def engineOver (T : Transformation) (below : Engine) : (depth : Nat) → Engine
  | 0 => below
  | n + 1 => (engineOver T below n).deeper T

theorem engineOver_exhausted (T : Transformation) (n : Nat) :
    engineOver T .exhausted n = engine T n := by
  induction n with
  | zero => rfl
  | succ n ih => rw [engineOver, ih, engine, Engine.deeper]

/-- The global variables of a session, which tell what evaluations of them are still to come. -/
abbrev Globals := List (ExpandedName × Slot)

variable {T : Transformation} {G : Globals → Prop} {α β : Type}

/-- In every session with globals of a kind, which it leaves of that kind, a computation comes to a
result and a session that are the same in all engines that are deep enough, whatever they rest
on. -/
def Settles (T : Transformation) (G : Globals → Prop) (m : Engine → StateM Session α)
    (Q : α → Prop) : Prop :=
  ∀ s, G s.globals → ∃ x t, (∃ d, ∀ B n, d ≤ n → (m (engineOver T B n)).run s = (x, t)) ∧
    G t.globals ∧ Q x

namespace Settles

variable {m m' : Engine → StateM Session α} {f : Engine → α → StateM Session β} {P Q : α → Prop}
  {R : β → Prop}

theorem pure {x : α} (h : Q x) : Settles T G (fun _ => Pure.pure x) Q :=
  fun s hs => ⟨x, s, ⟨0, fun _ _ _ => rfl⟩, hs, h⟩

theorem bind (h : Settles T G m P) (hf : ∀ x, P x → Settles T G (fun E => f E x) R) :
    Settles T G (fun E => m E >>= f E) R := by
  intro s hs
  obtain ⟨x, t, ⟨d, hd⟩, ht, hx⟩ := h s hs
  obtain ⟨y, u, ⟨e, he⟩, hu, hy⟩ := hf x hx t ht
  refine ⟨y, u, ⟨max d e, fun B n hn => ?_⟩, hu, hy⟩
  rw [StateT.run_bind, hd B n (by omega)]
  exact he B n (by omega)

theorem imp (h : Settles T G m P) (hi : ∀ x, P x → Q x) : Settles T G m Q := by
  intro s hs
  obtain ⟨x, t, hd, ht, hx⟩ := h s hs
  exact ⟨x, t, hd, ht, hi x hx⟩

theorem map {g : α → β} (h : Settles T G m P) (hg : ∀ x, P x → R (g x)) :
    Settles T G (fun E => do return g (← m E)) R :=
  h.bind fun x hx => .pure (hg x hx)

theorem ite {p : Prop} [Decidable p] (h : p → Settles T G m Q) (h' : ¬ p → Settles T G m' Q) :
    Settles T G (fun E => if p then m E else m' E) Q := by
  by_cases hp : p
  · simpa only [if_pos hp] using h hp
  · simpa only [if_neg hp] using h' hp

/-- What one engine does settles if what the engine below does is settled. -/
theorem deeper (h : Settles T G m Q) (hm : ∀ E : Engine, m' (E.deeper T) = m E) :
    Settles T G m' Q := by
  intro s hs
  obtain ⟨x, t, ⟨d, hd⟩, ht, hx⟩ := h s hs
  refine ⟨x, t, ⟨d + 1, fun B n hn => ?_⟩, ht, hx⟩
  obtain ⟨n, rfl⟩ := Nat.exists_eq_add_of_le' (Nat.le_trans (Nat.le_add_left 1 d) hn)
  rw [engineOver, hm]
  exact hd B n (by omega)

end Settles

/-- An action that settles ends, with a property of its result if it succeeds. -/
def Ends (T : Transformation) (G : Globals → Prop) (a : Engine → Action α) (Q : α → Prop) : Prop :=
  Settles T G (fun E => (a E).attempt) fun r => ∀ x, r = .ok x → Q x

namespace Ends

variable {a b : Engine → Action α} {f : Engine → α → Action β} {P Q : α → Prop} {R : β → Prop}

theorem pure {x : α} (h : Q x) : Ends T G (fun _ => Pure.pure x) Q :=
  Settles.pure (by rintro _ ⟨⟩; exact h)

theorem throw {fault : Fault} : Ends T G (fun _ => MonadExcept.throw fault) Q := Settles.pure nofun

theorem fail {fault : Fault} : Ends T G (fun _ => .fail fault) Q := throw

theorem ofExcept {r : Except Fault α} (h : ∀ x, r = .ok x → Q x) :
    Ends T G (fun _ => .ofExcept r) Q := by
  cases r with
  | error fault => exact throw
  | ok x => exact pure (h x rfl)

/-- A check that may fail. -/
theorem checked {r : Except Fault α} : Ends T G (fun _ => .ofExcept r) fun _ => True :=
  .ofExcept fun _ _ => trivial

theorem bind (h : Ends T G a P) (hf : ∀ x, P x → Ends T G (fun E => f E x) R) :
    Ends T G (fun E => a E >>= f E) R := by
  refine Settles.bind (f := fun E => ExceptT.bindCont (f E)) h fun r hr => ?_
  cases r with
  | error fault => exact throw
  | ok x => exact hf x (hr x rfl)

theorem imp (h : Ends T G a P) (hi : ∀ x, P x → Q x) : Ends T G a Q :=
  Settles.imp h fun _ hr x hx => hi x (hr x hx)

theorem map {g : α → β} (h : Ends T G a P) (hg : ∀ x, P x → R (g x)) :
    Ends T G (fun E => do return g (← a E)) R :=
  h.bind fun x hx => .pure (hg x hx)

theorem ite {p : Prop} [Decidable p] (h : p → Ends T G a Q) (h' : ¬ p → Ends T G b Q) :
    Ends T G (fun E => if p then a E else b E) Q := by
  by_cases hp : p
  · simpa only [if_pos hp] using h hp
  · simpa only [if_neg hp] using h' hp

theorem deeper (h : Ends T G a Q) (ha : ∀ E : Engine, b (E.deeper T) = a E) : Ends T G b Q :=
  Settles.deeper h fun E => congrArg Action.attempt (ha E)

theorem lift {m : Engine → StateM Session α} (h : Settles T G m Q) :
    Ends T G (fun E => liftM (m E)) Q :=
  Settles.map h fun _ hx _ hy => Except.ok.inj hy ▸ hx

/-- An action whose outcome is looked at. -/
theorem outcome (h : Ends T G a Q) :
    Ends T G (fun E => (a E).outcome) fun r => ∀ x, r = .ok x → Q x :=
  lift h

/-- What is read in a session goes on in the same session. -/
theorem get {g : Engine → Session → Action α} (h : ∀ s, Ends T G (fun E => g E s) Q) :
    Ends T G (fun E => do g E (← MonadState.get)) Q :=
  fun s hs => h s s hs

/-- A change of a session that leaves the globals as they are. -/
theorem update {g : Session → α × Session} (h : ∀ s, (g s).2.globals = s.globals ∧ Q (g s).1) :
    Ends T G (fun _ => .update g) Q :=
  fun s hs => ⟨_, _, ⟨0, fun _ _ _ => rfl⟩, (h s).1 ▸ hs, fun _ hx => Except.ok.inj hx ▸ (h s).2⟩

theorem modify {g : Session → Session} (h : ∀ s, (g s).globals = s.globals) :
    Ends T G (fun _ => MonadState.modifyGet fun s => ((), g s)) fun _ => True :=
  update fun s => ⟨h s, trivial⟩

end Ends

namespace Cursor

variable {R R' : Cursor → Prop} {c base left right start current : Cursor} {n : Nat}

/-- The next node of a cursor is settled; if one is delivered the rest has a property, and keeps it
when its size is asked for. -/
def Advances (T : Transformation) (G : Globals → Prop) (R : Cursor → Prop) (c : Cursor) : Prop :=
  Settles T G (fun E => E.next c) fun p => ∀ n, p.outcome = .ok (some n) → R p.rest ∧
    Settles T G (fun E => E.size p.rest) fun q => ∀ k, q.outcome = .ok k → R q.rest

theorem Advances.imp (h : c.Advances T G R) (hi : ∀ c, R c → R' c) : c.Advances T G R' :=
  Settles.imp h fun _ hp n hn =>
    ⟨hi _ (hp n hn).1, (hp n hn).2.imp fun _ hq k hk => hi _ (hq k hk)⟩

/-- A cursor that can be read to its end: it has every property that cursors have whose rests have
it. -/
def Exhaustible (T : Transformation) (G : Globals → Prop) (c : Cursor) : Prop :=
  ∀ R : Cursor → Prop, (∀ c, c.Advances T G R → R c) → R c

namespace Exhaustible

theorem intro (h : c.Advances T G (Exhaustible T G)) : c.Exhaustible T G :=
  fun R hR => hR c (h.imp fun _ hc => hc R hR)

theorem induct (h : c.Exhaustible T G)
    (hR : ∀ c, c.Advances T G (fun r => r.Exhaustible T G ∧ R r) → R c) : R c :=
  (h (fun c => c.Exhaustible T G ∧ R c) fun c hc => ⟨.intro (hc.imp fun _ => And.left), hR c hc⟩).2

theorem advances (h : c.Exhaustible T G) : c.Advances T G (Exhaustible T G) :=
  h.induct fun _ hc => hc.imp fun _ => And.left

end Exhaustible

def looksAhead : Cursor → Bool
  | .lookahead .. => true
  | _ => false

/-- All but a lookahead stay as they are when their size is asked for. -/
theorem size_settles (hc : c.looksAhead = false) (h : R c) :
    Settles T G (fun E => E.size c) fun q => ∀ k, q.outcome = .ok k → R q.rest := by
  cases c with
  | lookahead => cases hc
  | _ => exact Settles.deeper (Settles.pure fun _ _ => h) fun _ => rfl

theorem exhaustible_listed (f : Flags) (size : Option Nat) (ns : List Node) :
    (Cursor.listed f size ns).Exhaustible T G := by
  induction ns with
  | nil =>
    refine .intro (Settles.deeper (Settles.pure ?_) fun _ => rfl)
    rintro n ⟨⟩
  | cons n ns ih =>
    exact .intro (Settles.deeper (Settles.pure fun _ _ => ⟨ih, size_settles rfl ih⟩) fun _ => rfl)

/-- A predicate that is decided for every node at every position. -/
def Decides (T : Transformation) (G : Globals → Prop) (s : Selection) : Prop :=
  ∀ n position last, Ends T G (fun E => accepts E s n position last) fun _ => True

theorem baseSize_settles {s : Selection} (h : R base)
    (hsize : Settles T G (fun E => E.size base) fun q => ∀ k, q.outcome = .ok k → R q.rest)
    (last : Option Nat) (position : Nat) :
    Settles T G (fun E => baseSize E base s last position) fun q =>
      ∀ k, q.outcome = .ok k → R q.rest := by
  obtain ⟨predicate, context, strategy, usesLast, stops⟩ := s
  have hsame : Settles T G (fun _ => Pure.pure (⟨.ok position, base⟩ : Pull Nat)) fun q =>
      ∀ k, q.outcome = .ok k → R q.rest := .pure fun _ _ => h
  have hasked : Settles T G (fun E => do
      let p ← E.size base
      return (⟨p.outcome.map (·.getD position), p.rest⟩ : Pull Nat)) fun q =>
      ∀ k, q.outcome = .ok k → R q.rest := by
    refine hsize.map fun ⟨o, r⟩ hq k hk => ?_
    cases o with
    | error f => cases hk
    | ok told => exact hq told rfl
  cases usesLast with
  | false => cases strategy <;> exact hsame
  | true =>
    cases last with
    | none => cases strategy <;> first | exact hsame | exact hasked
    | some l => cases strategy <;> exact .pure fun _ _ => h

theorem exhaustible_filter {s : Selection} (h : base.Exhaustible T G) (hs : Decides T G s)
    (last : Option Nat) (position : Nat) (finished : Bool) :
    (Cursor.filter base s last position finished).Exhaustible T G := by
  refine h.induct (R := fun base => ∀ last position finished,
    (Cursor.filter base s last position finished).Exhaustible T G) (fun base hbase => ?_)
    last position finished
  intro last position finished
  refine .intro (Settles.deeper (m := fun E => nextSelected E base s last position finished) ?_
    fun _ => rfl)
  unfold nextSelected
  refine Settles.ite (fun _ => .pure (by rintro n ⟨⟩)) fun _ => hbase.bind fun p hp => ?_
  obtain ⟨o, r⟩ := p
  cases o with
  | error f => exact .pure (by rintro n ⟨⟩)
  | ok o =>
    cases o with
    | none => exact .pure (by rintro n ⟨⟩)
    | some n =>
      obtain ⟨hr, hsize⟩ := hp n rfl
      refine (baseSize_settles (R := fun base => ∀ last position finished,
        (Cursor.filter base s last position finished).Exhaustible T G) hr.2
        (hsize.imp fun _ hq k hk => (hq k hk).2) last (position + 1)).bind fun q hq => ?_
      obtain ⟨o, r'⟩ := q
      cases o with
      | error f => exact .pure (by rintro n ⟨⟩)
      | ok l =>
        have hnext := hq l rfl
        refine Settles.bind (hs n (position + 1) l) fun verdict _ => ?_
        cases verdict with
        | error f => exact .pure (by rintro n ⟨⟩)
        | ok accepted =>
          cases accepted with
          | true =>
            exact .pure fun m _ => ⟨hnext _ _ _, size_settles rfl (hnext _ _ _)⟩
          | false => exact (hnext _ _ _).advances

/-- A key that has a text for every node. -/
def TellsKey (T : Transformation) (G : Globals → Prop) (key : Option (Expr × Context)) : Prop :=
  ∀ n, Ends T G (fun E => keyOf E key n) fun _ => True

theorem exhaustible_distinct {key : Option (Expr × Context)} (h : base.Exhaustible T G)
    (hkey : TellsKey T G key) (seen : List String) :
    (Cursor.distinct base key seen).Exhaustible T G := by
  refine h.induct (R := fun base => ∀ seen, (Cursor.distinct base key seen).Exhaustible T G)
    (fun base hbase => ?_) seen
  intro seen
  refine .intro (Settles.deeper (m := fun E => nextDistinct E base key seen) ?_ fun _ => rfl)
  refine Settles.bind hbase fun p hp => ?_
  obtain ⟨o, r⟩ := p
  cases o with
  | error f => exact .pure (by rintro n ⟨⟩)
  | ok o =>
    cases o with
    | none => exact .pure (by rintro n ⟨⟩)
    | some n =>
      have hrest := (hp n rfl).1.2
      refine Settles.bind (hkey n) fun told _ => ?_
      cases told with
      | error f => exact .pure (by rintro n ⟨⟩)
      | ok k =>
        refine Settles.ite (fun _ => (hrest seen).advances) fun _ => ?_
        exact .pure fun m _ => ⟨hrest _, size_settles rfl (hrest _)⟩

/-- A lookahead that has read its base to the end delivers what it has put aside. -/
theorem exhaustible_exhausted (base : Cursor) (buffer : List Node) (delivered : Nat) :
    (Cursor.lookahead base buffer delivered true).Exhaustible T G := by
  induction buffer generalizing delivered with
  | nil => exact .intro (Settles.deeper (Settles.pure (by rintro n ⟨⟩)) fun _ => rfl)
  | cons n buffer ih =>
    refine .intro (Settles.deeper (Settles.pure fun _ _ => ⟨ih _, ?_⟩) fun _ => rfl)
    exact Settles.deeper (Settles.pure fun _ _ => ih _) fun _ => rfl

/-- The size of a lookahead is told after its base was read to the end. -/
theorem size_lookahead (h : base.Exhaustible T G) (buffer : List Node) (delivered : Nat) :
    Settles T G (fun E => E.size (.lookahead base buffer delivered false)) fun q =>
      ∀ k, q.outcome = .ok k → q.rest.Exhaustible T G := by
  refine h.induct (R := fun base => ∀ buffer, Settles T G
    (fun E => E.size (.lookahead base buffer delivered false)) fun q =>
      ∀ k, q.outcome = .ok k → q.rest.Exhaustible T G) (fun base hbase => ?_) buffer
  intro buffer
  refine Settles.deeper (m := fun E => size E (.lookahead base buffer delivered false)) ?_
    fun _ => rfl
  refine Settles.bind hbase fun p hp => ?_
  obtain ⟨o, r⟩ := p
  cases o with
  | error f => exact .pure (by rintro n ⟨⟩)
  | ok o =>
    cases o with
    | none => exact .pure fun _ _ => exhaustible_exhausted _ _ _
    | some n => exact (hp n rfl).1.2 _

theorem exhaustible_lookahead (h : base.Exhaustible T G) (buffer : List Node) (delivered : Nat) :
    (Cursor.lookahead base buffer delivered false).Exhaustible T G := by
  refine h.induct (R := fun base => ∀ buffer delivered,
    (Cursor.lookahead base buffer delivered false).Exhaustible T G) (fun base hbase => ?_)
    buffer delivered
  intro buffer
  induction buffer with
  | nil =>
    intro delivered
    refine .intro (Settles.deeper (m := fun E => nextAhead E base [] delivered false) ?_
      fun _ => rfl)
    refine Settles.bind hbase fun p hp => ?_
    obtain ⟨o, r⟩ := p
    cases o with
    | error f => exact .pure (by rintro n ⟨⟩)
    | ok o =>
      cases o with
      | none => exact .pure (by rintro n ⟨⟩)
      | some n =>
        obtain ⟨hr, -⟩ := hp n rfl
        exact .pure fun _ _ => ⟨hr.2 _ _, size_lookahead hr.1 _ _⟩
  | cons n buffer ih =>
    intro delivered
    refine .intro (Settles.deeper (Settles.pure fun _ _ => ⟨ih _, ?_⟩) fun _ => rfl)
    exact size_lookahead (.intro (hbase.imp fun _ => And.left)) _ _

section merge

variable {op : SetOperator} {h k : Option Node} {passed : Engine → StateM Session (Pull Unit)}

theorem passLeft_settles (hl : left.Advances T G R) :
    Settles T G (fun E => passLeft E op left h right k) fun q => q.outcome = .ok () →
      ∃ l h', q.rest = .merge op l h' right k ∧ (h' ≠ none → R l) := by
  refine Settles.bind hl fun p hp => ?_
  obtain ⟨o, r⟩ := p
  cases o with
  | error f => exact .pure nofun
  | ok o =>
    refine .pure fun _ => ⟨r, o, rfl, fun ho => ?_⟩
    obtain ⟨n, rfl⟩ := Option.ne_none_iff_exists'.mp ho
    exact (hp n rfl).1

theorem passRight_settles (hr : right.Advances T G R) :
    Settles T G (fun E => passRight E op left h right k) fun q => q.outcome = .ok () →
      ∃ r k', q.rest = .merge op left h r k' ∧ (k' ≠ none → R r) := by
  refine Settles.bind hr fun p hp => ?_
  obtain ⟨o, r⟩ := p
  cases o with
  | error f => exact .pure nofun
  | ok o =>
    refine .pure fun _ => ⟨r, o, rfl, fun ho => ?_⟩
    obtain ⟨n, rfl⟩ := Option.ne_none_iff_exists'.mp ho
    exact (hp n rfl).1

/-- Both heads are passed, in either order. -/
theorem passBoth_settles (leftFirst : Bool) (hl : left.Advances T G R)
    (hr : right.Advances T G R') :
    Settles T G (fun E => passBoth E leftFirst op left h right k) fun q => q.outcome = .ok () →
      ∃ l h' r k', q.rest = .merge op l h' r k' ∧ (h' ≠ none → R l) ∧ (k' ≠ none → R' r) := by
  cases leftFirst with
  | true =>
    refine Settles.bind (passLeft_settles hl) fun p hp => ?_
    obtain ⟨o, rest⟩ := p
    cases o with
    | error f => exact .pure nofun
    | ok =>
      obtain ⟨l, h', rfl, hl'⟩ := hp rfl
      refine (passRight_settles hr).imp fun q hq ho => ?_
      obtain ⟨r, k', hrest, hr'⟩ := hq ho
      exact ⟨l, h', r, k', hrest, hl', hr'⟩
  | false =>
    refine Settles.bind (passRight_settles hr) fun p hp => ?_
    obtain ⟨o, rest⟩ := p
    cases o with
    | error f => exact .pure nofun
    | ok =>
      obtain ⟨r, k', rfl, hr'⟩ := hp rfl
      refine (passLeft_settles hl).imp fun q hq ho => ?_
      obtain ⟨l, h', hrest, hl'⟩ := hq ho
      exact ⟨l, h', r, k', hrest, hl', hr'⟩

/-- What is left of a merge once heads are passed can be read to its end. -/
def Merges (T : Transformation) (G : Globals → Prop) (op : SetOperator) (q : Pull Unit) : Prop :=
  q.outcome = .ok () → ∃ l h r k, q.rest = .merge op l h r k ∧ q.rest.Exhaustible T G

theorem deliver_settles (hp : Settles T G passed (Merges T G op)) (n : Node) :
    Settles T G (fun E => do return deliver n (← passed E)) fun p => ∀ m,
      p.outcome = .ok (some m) → p.rest.Exhaustible T G ∧
        Settles T G (fun E => E.size p.rest) fun q => ∀ k, q.outcome = .ok k →
          q.rest.Exhaustible T G := by
  refine hp.map fun q hq m hm => ?_
  obtain ⟨o, rest⟩ := q
  cases o with
  | error f => cases hm
  | ok =>
    obtain ⟨l, h, r, k, rfl, hrest⟩ := hq rfl
    exact ⟨hrest, size_settles rfl hrest⟩

theorem goOn_settles (hp : Settles T G passed (Merges T G op)) :
    Settles T G (fun E => do goOn E (← passed E)) fun p => ∀ m,
      p.outcome = .ok (some m) → p.rest.Exhaustible T G ∧
        Settles T G (fun E => E.size p.rest) fun q => ∀ k, q.outcome = .ok k →
          q.rest.Exhaustible T G := by
  refine hp.bind fun q hq => ?_
  obtain ⟨o, rest⟩ := q
  cases o with
  | error f => exact .pure (by rintro n ⟨⟩)
  | ok =>
    obtain ⟨l, h, r, k, -, hrest⟩ := hq rfl
    exact hrest.advances

/-- Nothing is read of a side that has no node ahead. -/
theorem exhaustible_merge_right (hr : k ≠ none → right.Exhaustible T G) (left : Cursor) :
    (Cursor.merge op left none right k).Exhaustible T G := by
  have hended (right : Cursor) : (Cursor.merge op left none right none).Exhaustible T G :=
    .intro (Settles.deeper (Settles.pure (by rintro n ⟨⟩)) fun _ => rfl)
  by_cases hk : k = none
  · exact hk ▸ hended right
  refine (hr hk).induct (R := fun right => ∀ k,
    (Cursor.merge op left none right k).Exhaustible T G) (fun right hright => ?_) k
  intro k
  cases k with
  | none => exact hended right
  | some b =>
    refine .intro (Settles.deeper (m := fun E => nextMerged E op left none right (some b)) ?_
      fun _ => rfl)
    cases op with
    | intersect | except => exact .pure (by rintro n ⟨⟩)
    | union =>
      have hpassed : Settles T G (fun E => passRight E .union left none right (some b))
          (Merges T G .union) := by
        refine (passRight_settles hright).imp fun q hq ho => ?_
        obtain ⟨r, k', hrest, hr'⟩ := hq ho
        refine ⟨left, none, r, k', hrest, ?_⟩
        rw [hrest]
        by_cases hk' : k' = none
        · exact hk' ▸ hended r
        · exact (hr' hk').2 k'
      exact deliver_settles hpassed b

theorem exhaustible_merge (hl : h ≠ none → left.Exhaustible T G)
    (hr : k ≠ none → right.Exhaustible T G) :
    (Cursor.merge op left h right k).Exhaustible T G := by
  by_cases hh : h = none
  · exact hh ▸ exhaustible_merge_right hr left
  -- the left side comes closer to its end, or stays as it is while the right one does
  let Left (l : Cursor) : Prop := ∀ h right k, (k ≠ none → right.Exhaustible T G) →
    (Cursor.merge op l h right k).Exhaustible T G
  have hpassed {l r : Cursor} {h k : Option Node} (hl : h ≠ none → l.Exhaustible T G ∧ Left l)
      (hr : k ≠ none → r.Exhaustible T G) : (Cursor.merge op l h r k).Exhaustible T G := by
    by_cases hh : h = none
    · exact hh ▸ exhaustible_merge_right hr l
    · exact (hl hh).2 h r k hr
  refine (hl hh).induct (R := Left) (fun left hleft => ?_) h right k hr
  intro h right k hr
  cases h with
  | none => exact exhaustible_merge_right hr left
  | some a =>
    have hpassLeft {r : Cursor} {k : Option Node} (hr : k ≠ none → r.Exhaustible T G) :
        Settles T G (fun E => passLeft E op left (some a) r k) (Merges T G op) := by
      refine (passLeft_settles hleft).imp fun q hq ho => ?_
      obtain ⟨l, h', hrest, hl'⟩ := hq ho
      exact ⟨l, h', r, k, hrest, hrest ▸ hpassed hl' hr⟩
    have hlast (r : Cursor) : (Cursor.merge op left (some a) r none).Exhaustible T G := by
      refine .intro (Settles.deeper (m := fun E => nextMerged E op left (some a) r none) ?_
        fun _ => rfl)
      have hr : (none : Option Node) ≠ none → r.Exhaustible T G := fun h => absurd rfl h
      cases op with
      | intersect => exact .pure (by rintro n ⟨⟩)
      | union | except => exact deliver_settles (hpassLeft hr) a
    by_cases hk : k = none
    · exact hk ▸ hlast right
    let Right (r : Cursor) : Prop := ∀ k, (Cursor.merge op left (some a) r k).Exhaustible T G
    refine (hr hk).induct (R := Right) (fun right hright => ?_) k
    intro k
    cases k with
    | none => exact hlast right
    | some b =>
      have hexh : right.Exhaustible T G := .intro (hright.imp fun _ => And.left)
      have hpassRight : Settles T G (fun E => passRight E op left (some a) right (some b))
          (Merges T G op) := by
        refine (passRight_settles hright).imp fun q hq ho => ?_
        obtain ⟨r, k', hrest, hr'⟩ := hq ho
        refine ⟨left, some a, r, k', hrest, ?_⟩
        rw [hrest]
        by_cases hk' : k' = none
        · exact hk' ▸ hlast r
        · exact (hr' hk').2 k'
      have hpassBoth (leftFirst : Bool) : Settles T G
          (fun E => passBoth E leftFirst op left (some a) right (some b)) (Merges T G op) := by
        refine (passBoth_settles leftFirst hleft hright).imp fun q hq ho => ?_
        obtain ⟨l, h', r, k', hrest, hl', hr'⟩ := hq ho
        exact ⟨l, h', r, k', hrest, hrest ▸ hpassed hl' fun hk' => (hr' hk').1⟩
      refine .intro (Settles.deeper
        (m := fun E => nextMerged E op left (some a) right (some b)) ?_ fun _ => rfl)
      dsimp only [nextMerged]
      cases a.order? b with
      | none => exact .pure (by rintro n ⟨⟩)
      | some o =>
        cases o with
        | lt =>
          cases op with
          | intersect => exact goOn_settles (hpassLeft fun _ => hexh)
          | union | except => exact deliver_settles (hpassLeft fun _ => hexh) a
        | gt =>
          cases op with
          | union => exact deliver_settles hpassRight b
          | intersect | except => exact goOn_settles hpassRight
        | eq =>
          cases op with
          | except => exact goOn_settles (hpassBoth true)
          | union | intersect => exact deliver_settles (hpassBoth false) a

end merge

/-- A cursor with a predicate on its nodes. -/
theorem exhaustible_select {predicate : Expr} {context : Context} {stops : Bool}
    (h : base.Exhaustible T G)
    (hs : ∀ strategy usesLast,
      Decides T G ⟨predicate, context.ambient, strategy, usesLast, stops⟩) :
    (base.select predicate context stops).Exhaustible T G := by
  refine exhaustible_filter ?_ (hs _ _) none 0 false
  split
  · exact exhaustible_lookahead h [] 0
  · exact h

theorem exhaustible_ofStep {plan : StepPlan} {context : Context}
    (hs : ∀ p ∈ plan.predicates, ∀ strategy usesLast,
      Decides T G ⟨p, context.ambient, strategy, usesLast, false⟩) (origin : Node) :
    (ofStep plan origin context).Exhaustible T G := by
  obtain ⟨axis, test, predicates⟩ := plan
  have hfold (c : Cursor) (hc : c.Exhaustible T G) :
      (predicates.foldl (fun c p => c.select p context false) c).Exhaustible T G := by
    induction predicates generalizing c with
    | nil => exact hc
    | cons p ps ih =>
      obtain ⟨hp, hps⟩ := List.forall_mem_cons.mp hs
      exact ih hps _ (exhaustible_select hc hp)
  exact hfold _ (exhaustible_listed _ _ _)

/-- A step is applied to one origin after the other. -/
theorem exhaustible_steps {plan : StepPlan} {context : Context} {sorted : Bool}
    (hs : ∀ origin, (ofStep plan origin context).Exhaustible T G)
    (hstart : start.Exhaustible T G) (hcurrent : current.Exhaustible T G) :
    (Cursor.steps start plan context current sorted).Exhaustible T G := by
  refine hstart.induct (R := fun start => ∀ current : Cursor, current.Exhaustible T G →
    (Cursor.steps start plan context current sorted).Exhaustible T G) (fun start hstart => ?_)
    current hcurrent
  intro current hcurrent
  refine hcurrent.induct (R := fun current =>
    (Cursor.steps start plan context current sorted).Exhaustible T G) fun current hcurrent => ?_
  refine .intro (Settles.deeper (m := fun E => nextStep E start plan context current sorted) ?_
    fun _ => rfl)
  refine Settles.bind hcurrent fun p hp => ?_
  obtain ⟨o, r⟩ := p
  cases o with
  | error f => exact .pure (by rintro n ⟨⟩)
  | ok o =>
    cases o with
    | some n =>
      have hrest := (hp n rfl).1.2
      exact .pure fun _ _ => ⟨hrest, size_settles rfl hrest⟩
    | none =>
      refine Settles.bind hstart fun q hq => ?_
      obtain ⟨o, r⟩ := q
      cases o with
      | error f => exact .pure (by rintro n ⟨⟩)
      | ok o =>
        cases o with
        | none => exact .pure (by rintro n ⟨⟩)
        | some origin => exact ((hq origin rfl).1.2 _ (hs origin)).advances

theorem Advances.pull (h : c.Advances T G R) :
    Ends T G (fun E => E.pull c) fun r => ∀ n, r.1 = some n → R r.2 := by
  refine (Ends.lift h).bind fun p hp => ?_
  obtain ⟨o, r⟩ := p
  cases o with
  | error f => exact .throw
  | ok o =>
    refine .pure ?_
    rintro n rfl
    exact (hp n rfl).1

namespace Exhaustible

theorem drain (h : c.Exhaustible T G) : Ends T G (fun E => E.drain c) fun _ => True := by
  refine h.induct (R := fun c => Ends T G (fun E => E.drain c) fun _ => True) fun c hc => ?_
  refine Ends.deeper (a := fun E => Cursor.drain E c) ?_ fun _ => rfl
  refine hc.pull.bind fun r hr => ?_
  obtain ⟨o, rest⟩ := r
  cases o with
  | none => exact .pure trivial
  | some n => exact (hr n rfl).2.map fun _ _ => trivial

theorem find (test : Node → Bool) (h : c.Exhaustible T G) :
    Ends T G (fun E => E.find test c) fun _ => True := by
  refine h.induct (R := fun c => Ends T G (fun E => E.find test c) fun _ => True) fun c hc => ?_
  refine Ends.deeper (a := fun E => Cursor.find E test c) ?_ fun _ => rfl
  refine hc.pull.bind fun r hr => ?_
  obtain ⟨o, rest⟩ := r
  cases o with
  | none => exact .pure trivial
  | some n => exact .ite (fun _ => .pure trivial) fun _ => (hr n rfl).2

theorem pull (h : c.Exhaustible T G) :
    Ends T G (fun E => E.pull c) fun r => r.1 ≠ none → r.2.Exhaustible T G :=
  h.advances.pull.imp fun _ hr ho => (Option.ne_none_iff_exists'.mp ho).elim hr

theorem head (h : c.Exhaustible T G) : Ends T G (fun E => E.head c) fun _ => True :=
  h.pull.map fun _ _ => trivial

theorem extent (h : c.Exhaustible T G) : Ends T G (fun E => E.extent c) fun _ => True :=
  h.drain.map fun _ _ => trivial

end Exhaustible

/-- A cursor that can be read to its end or asked for its size. -/
structure Readable (T : Transformation) (G : Globals → Prop) (c : Cursor) : Prop where
  exhaustible : c.Exhaustible T G
  sized : Settles T G (fun E => E.size c) fun _ => True

theorem Exhaustible.readable (h : c.Exhaustible T G)
    (hc : c.looksAhead = false) : c.Readable T G :=
  ⟨h, (size_settles (R := fun _ => True) hc trivial).imp fun _ _ => trivial⟩

theorem readable_listed (f : Flags) (size : Option Nat) (ns : List Node) :
    (Cursor.listed f size ns).Readable T G :=
  (exhaustible_listed f size ns).readable rfl

theorem Readable.sortedCursor (h : c.Readable T G) :
    Ends T G (fun E => E.sortedCursor c) (Readable T G) :=
  .ite (fun _ => .pure h) fun _ => h.exhaustible.extent.bind fun _ _ =>
    Ends.checked.map fun _ _ => readable_listed _ _ _

theorem startMerge_ends (op : SetOperator) (hl : left.Readable T G) (hr : right.Readable T G) :
    Ends T G (fun E => startMerge E op left right) (Readable T G) :=
  hl.sortedCursor.bind fun _ hl => hl.exhaustible.pull.bind fun _ hl =>
    hr.sortedCursor.bind fun _ hr => hr.exhaustible.pull.bind fun _ hr =>
      .pure ((exhaustible_merge hl hr).readable rfl)

theorem startDistinct_ends {key : Option Expr} {context : Context} (h : base.Readable T G)
    (hkey : TellsKey T G (key.map (·, context.ambient))) :
    Ends T G (fun E => startDistinct E base key context) (Readable T G) :=
  h.sortedCursor.map fun _ h => (exhaustible_distinct h.exhaustible hkey []).readable rfl

end Cursor

end PathLanguage
