/- Safe engines: from sound sessions and fitting arguments they lead to sound sessions and fitting
results, and the cursors they make keep what their flags say. -/
import PathLanguage.Proofs.Cursor.Delivery
import PathLanguage.Proofs.Session.Sound

namespace PathLanguage

namespace Cursor

/-- The expressions and contexts that a cursor holds fit. -/
def Fits (F : Forest) (s : Session) : Cursor → Prop
  | .listed _ _ _ => True
  | .lookahead base _ _ _ => base.Fits F s
  | .filter base selection _ _ _ =>
    base.Fits F s ∧ selection.predicate.Fits F s ∧ selection.context.Fits F s
  | .merge _ left _ right _ => left.Fits F s ∧ right.Fits F s
  | .distinct base key _ => base.Fits F s ∧ ∀ p ∈ key, p.1.Fits F s ∧ p.2.Fits F s
  | .steps start plan context current _ =>
    start.Fits F s ∧ (∀ p ∈ plan.predicates, p.Fits F s) ∧ context.Fits F s ∧ current.Fits F s

/-- A cursor that is in order and whose parts fit. -/
structure Sound (S : Setting) (s : Session) (c : Cursor) : Prop where
  ordered : c.Ordered S.forest
  fits : c.Fits S.forest s

theorem Fits.mono {F : Forest} {s t : Session} {c : Cursor} (h : c.Fits F s) (hk : s.Keeps t) :
    c.Fits F t := by
  induction c with
  | listed => trivial
  | lookahead base _ _ _ ih => exact ih h
  | filter base selection _ _ _ ih => exact ⟨ih h.1, h.2.1.mono hk, h.2.2.mono hk⟩
  | merge op left _ right _ ihl ihr => exact ⟨ihl h.1, ihr h.2⟩
  | distinct base key _ ih =>
    exact ⟨ih h.1, fun p hp => ⟨(h.2 p hp).1.mono hk, (h.2 p hp).2.mono hk⟩⟩
  | steps start plan context current _ ihs ihc =>
    exact ⟨ihs h.1, fun p hp => (h.2.1 p hp).mono hk, h.2.2.1.mono hk, ihc h.2.2.2⟩

theorem Sound.mono {S : Setting} {s t : Session} {c : Cursor} (h : c.Sound S s)
    (hk : s.Keeps t) : c.Sound S t :=
  ⟨h.ordered, h.fits.mono hk⟩

end Cursor

/-- The conversions that a host function may use keep sessions sound. -/
structure HostCall.Safe (S : Setting) (s : Session) (call : HostCall) : Prop where
  context : call.context.Fits S.forest s
  asString : ∀ t v, s.LeadsTo t → v.Fits S.forest t →
    S.Ensures t (call.asString v) fun _ _ => True
  asNumber : ∀ t v, s.LeadsTo t → v.Fits S.forest t →
    S.Ensures t (call.asNumber v) fun _ _ => True
  asBoolean : ∀ t v, s.LeadsTo t → v.Fits S.forest t →
    S.Ensures t (call.asBoolean v) fun _ _ => True
  firstNode : ∀ t ns, s.LeadsTo t → ns.Fits S.forest t →
    S.Ensures t (call.firstNode ns) fun n _ => ∀ m ∈ n, S.forest.Holds m

/-- What is assumed of the host: the nodes it supplies are nodes of the documents, the extents among
its values are honest, and its functions leave alone what the session remembers. -/
structure Setting.Safe (S : Setting) : Prop where
  globalNode : ∀ n ∈ S.transformation.globalNode, S.forest.Holds n
  resolver : ∀ r ∈ S.transformation.resolver, ∀ uri root, r uri = .ok (some root) →
    S.forest.Holds root
  hosts : ∀ o ∈ S.transformation.functions.overloads, ∀ s call args, call.Safe S s →
    (∀ v ∈ args, v.Fits S.forest s) → S.Ensures s (o.run call args) fun v t => v.Fits S.forest t

/-- One document, in a run to which the host adds nothing. -/
def Setting.bare (d : Document) : Setting := ⟨.bare, .single d, fun _ => none⟩

theorem Setting.bare_safe (d : Document) : (Setting.bare d).Safe where
  globalNode := by simp [bare, Transformation.bare]
  resolver := by simp [bare, Transformation.bare]
  hosts := by simp [bare, Transformation.bare]

theorem Setting.bare_sound (d : Document) : (Setting.bare d).Sound {} where
  pending name e h := by simp [Session.slot?] at h
  evaluated name v h := by simp [Session.slot?] at h
  intents id i h := by simp at h
  indexes := by simp
  documents := by simp
  keys := by simp [bare, Transformation.bare]

theorem Setting.Safe.globalContext {S : Setting} (h : S.Safe) (s : Session) :
    S.transformation.globalContext.Fits S.forest s :=
  ⟨h.globalNode, h.globalNode, by simp [Transformation.globalContext, Context.onNode]⟩

/-- The outcome of reading one node, or a size, from a sound cursor. -/
structure Engine.Safe (S : Setting) (E : Engine) : Prop extends E.Orderly S.forest where
  value : ∀ {s e c}, e.Fits S.forest s → c.Fits S.forest s →
    S.Ensures s (E.value e c) fun v t => v.Fits S.forest t
  boolean : ∀ {s e c}, e.Fits S.forest s → c.Fits S.forest s →
    S.Ensures s (E.boolean e c) fun _ _ => True
  number : ∀ {s e c}, e.Fits S.forest s → c.Fits S.forest s →
    S.Ensures s (E.number e c) fun _ _ => True
  string : ∀ {s e c}, e.Fits S.forest s → c.Fits S.forest s →
    S.Ensures s (E.string e c) fun _ _ => True
  nodeSet : ∀ {s e c}, e.Fits S.forest s → c.Fits S.forest s →
    S.Ensures s (E.nodeSet e c) fun ns t => ns.Fits S.forest t
  cursor : ∀ {s e c sort}, e.Fits S.forest s → c.Fits S.forest s →
    S.Ensures s (E.cursor e c sort) fun r t =>
      r.Sound S t ∧ (sort = true ∨ e.isSingleton = true → r.flags.sorted = true) ∧
        (e.isSingleton = true → r.IsSingle)
  reduce : ∀ {s mask e c}, e.Fits S.forest s → c.Fits S.forest s →
    S.Ensures s (E.reduce mask e c) fun r t => r.1.Fits S.forest t
  advance : ∀ {s} {c : Cursor}, c.Sound S s →
    S.Steps s (E.next c) fun p t => p.rest.Fits S.forest t
  measure : ∀ {s} {c : Cursor}, c.Sound S s →
    S.Steps s (E.size c) fun p t => p.rest.Fits S.forest t
  drain : ∀ {s} {c : Cursor}, c.Sound S s →
    S.Ensures s (E.drain c) fun ns _ => (∀ n ∈ ns, c.reach n) ∧ ns.Pairwise c.flags.Relates
  find : ∀ {s test} {c : Cursor}, c.Sound S s →
    S.Ensures s (E.find test c) fun _ _ => True
  search : ∀ {s name value root c}, S.forest.Holds root → c.Fits S.forest s →
    S.Ensures s (E.search name value root c) fun ns _ => S.forest.HoldsAll ns

theorem Always.steps {S : Setting} {s : Session} {α : Type} {m : StateM Session α}
    {p : α → Prop} {post : α → Session → Prop} (h : Always m p) (hs : S.Steps s m post) :
    S.Steps s m fun x t => p x ∧ post x t := by
  intro hsound
  obtain ⟨ht, hst, hp⟩ := hs hsound
  exact ⟨ht, hst, h s, hp⟩

namespace Engine.Safe

open Setting (Ensures Steps)

variable {S : Setting} {s : Session} {E : Engine} {c : Cursor}

/-- Reading a node delivers one of those in reach, and leaves a sound cursor in the same order. -/
theorem read (hE : E.Safe S) (hc : c.Sound S s) :
    S.Steps s (E.next c) fun p t => c.Reads S.forest p ∧ p.rest.Sound S t :=
  ((hE.next hc.ordered).steps (hE.advance hc)).imp fun _ _ _ _ ⟨hr, hf⟩ =>
    ⟨hr, hr.advance.ordered, hf⟩

theorem tell (hE : E.Safe S) (hc : c.Sound S s) :
    S.Steps s (E.size c) fun p t => c.Advance S.forest p.rest ∧ p.rest.Sound S t :=
  ((hE.size hc.ordered).steps (hE.measure hc)).imp fun _ _ _ _ ⟨hr, hf⟩ =>
    ⟨hr, hr.ordered, hf⟩

theorem pull (hE : E.Safe S) (hc : c.Sound S s) :
    S.Ensures s (E.pull c) fun r t => c.Advance S.forest r.2 ∧ r.2.Sound S t ∧
      ∀ n ∈ r.1, c.reach n ∧ ∀ m, r.2.reach m → c.flags.Relates n m := by
  refine Ensures.bind (Ensures.lift (hE.read hc)) fun p t _ _ ⟨hr, hp⟩ => ?_
  split
  · next n hn =>
    refine .pure ⟨hr.advance, hp, ?_⟩
    rintro m ⟨⟩
    exact hr.delivered m hn
  · exact .throw

theorem head (hE : E.Safe S) (hc : c.Sound S s) :
    S.Ensures s (E.head c) fun n _ => ∀ m ∈ n, S.forest.Holds m :=
  (hE.pull hc).map fun _ _ ⟨_, _, hr⟩ m hm => hc.ordered.holds (hr m hm).1

theorem extent (hE : E.Safe S) (hc : c.Sound S s) :
    S.Ensures s (E.extent c) fun e _ => e.Fits S.forest := by
  refine (hE.drain hc).map fun ns t ⟨hn, hp⟩ => ⟨Extent.ofSource_honest ?_ ?_, ?_⟩
  · exact fun h => hp.imp fun hab => hab.sorted h
  · exact fun h => List.pairwise_reverse.mpr (hp.imp fun hab => hab.reverse h)
  · exact fun n hmem => hc.ordered.holds (hn n hmem)

/-- The nodes of a sorted cursor are read out in order. -/
theorem extent_ascending (hE : E.Safe S) (hc : c.Sound S s) (hs : c.flags.sorted = true) :
    S.Ensures s (E.extent c) fun e _ => Node.Ascending e.nodes :=
  (hE.drain hc).map fun _ _ ⟨_, hp⟩ => hp.imp fun hab => hab.sorted hs

end Engine.Safe

theorem Cursor.sound_ofExtent {S : Setting} {s : Session} {e : Extent} (h : e.Fits S.forest) :
    (Cursor.ofExtent e).Sound S s := by
  refine ⟨⟨h.holds, ?_⟩, trivial⟩
  refine List.Pairwise.imp (fun {a b} hab => ⟨hab.1, hab.2, nofun⟩) (List.Pairwise.and
    (R := fun a b => e.sorted = true → a.Before b) (S := fun a b => e.reverse = true → b.Before a)
    ?_ ?_)
  · by_cases hs : e.sorted = true
    · exact (h.honest.sorted hs).imp fun hab _ => hab
    · exact List.pairwise_of_forall fun _ _ hs' => absurd hs' hs
  · by_cases hr : e.reverse = true
    · exact (List.pairwise_reverse.mp (h.honest.reverse hr)).imp fun hab _ => hab
    · exact List.pairwise_of_forall fun _ _ hr' => absurd hr' hr

theorem Cursor.isSingle_ofOption (n : Option Node) : (Cursor.ofOption n).IsSingle := by
  cases n <;> simp [ofOption, IsSingle]

theorem Cursor.sound_ofOption {S : Setting} {s : Session} {n : Option Node}
    (h : ∀ m ∈ n, S.forest.Holds m) : (Cursor.ofOption n).Sound S s := by
  cases n with
  | none => exact ⟨⟨by simp, .nil⟩, trivial⟩
  | some n => exact ⟨⟨by simpa using h n rfl, by simp⟩, trivial⟩

theorem Extent.sort_fits {F : Forest} {e e' : Extent} (h : e.Fits F) (hs : e.sort = .ok e') :
    e'.Fits F ∧ e'.sorted = true :=
  have ho := Extent.sort_ok h.honest h.holds hs
  ⟨⟨ho.1, Extent.sort_holds h.holds h.honest hs⟩, ho.2.1⟩

theorem Engine.Safe.sortedCursor {S : Setting} {s : Session} {E : Engine} {c : Cursor}
    (hE : E.Safe S) (hc : c.Sound S s) :
    S.Ensures s (E.sortedCursor c) fun r t => r.Sound S t ∧ r.flags.sorted = true := by
  refine .ite (fun h => .pure ⟨hc, h⟩) fun _ => ?_
  refine (hE.extent hc).bind fun e t _ _ he => ?_
  refine (Setting.Ensures.ofExcept (Q := fun e' _ => e'.Fits S.forest ∧ e'.sorted = true)
    fun e' hs => Extent.sort_fits he hs).bind fun e' t _ _ ⟨hf, hs⟩ => ?_
  exact .pure ⟨Cursor.sound_ofExtent hf, hs⟩

end PathLanguage
