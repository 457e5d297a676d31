/- Comparisons of node-sets of any representation: equality looks for a pair of members with the same
string value, inequality for a pair with different ones; the least and the greatest number of each
side tell whether some member of one stands in an order to some member of the other. -/
import PathLanguage.Proofs.Axis
import PathLanguage.Proofs.Comparison
import PathLanguage.Proofs.Cursor.Replies
import PathLanguage.Proofs.Session.Returns

namespace PathLanguage

variable {T : Transformation} {s t u : Session}

/-- An action succeeds in every engine that is deep enough, with one result and one session after
it. -/
def Results {α : Type} (T : Transformation) (a : Engine → Action α) (s : Session) (x : α)
    (t : Session) : Prop :=
  Comes T (fun E => (a E).attempt) s (.ok x) t

namespace Results

variable {α β : Type} {a b : Engine → Action α} {f : Engine → α → Action β} {x : α} {y : β}

theorem pure (x : α) (s : Session) : Results T (fun _ => Pure.pure x) s x s := Comes.pure

theorem bind (ha : Results T a s x t) (hf : Results T (fun E => f E x) t y u) :
    Results T (fun E => a E >>= f E) s y u :=
  Comes.bind (f := fun E => ExceptT.bindCont (f E)) ha hf

/-- Another action that does the same from another session comes to the same. -/
theorem of_run (ha : Results T a s x t) (h : ∀ E, (b E).attempt.run u = (a E).attempt.run s) :
    Results T b u x t := by
  obtain ⟨d, hd⟩ := ha
  exact ⟨d, fun k hk => (h _).trans (hd k hk)⟩

/-- The nodes of a list are what a cursor on it is read out to. -/
theorem drain_listed (f : Flags) (size : Option Nat) (ns : List Node) (s : Session) :
    Results T (fun E => E.drain (.listed f size ns)) s ns s := by
  refine ⟨ns.length + 2, fun k hk => ?_⟩
  show ((engine T k).drain (.listed f size ns)).attempt.run s = _
  rw [Cursor.drain_listed T f size ns hk]
  rfl

end Results

namespace Session

/-- The session in which one more use of a lazy node-set is counted. -/
def countUse (s : Session) (id : Nat) : Session :=
  s.setIntent id { s.intent id with uses := (s.intent id).uses + 1 }

/-- What is kept of a lazy node-set that was read out: what was kept in the meantime, or else what
was read. -/
def keptExtent (s : Session) (id : Nat) (e : Extent) : Extent := (s.intent id).extent.getD e

/-- The session in which what was read of a lazy node-set is kept. -/
def keep (s : Session) (id : Nat) (e : Extent) : Session :=
  s.setIntent id { s.intent id with extent := some (s.keptExtent id e) }

theorem extent_countUse {id : Nat} (he : (s.intent id).extent = none) :
    ((s.countUse id).intent id).extent = none := by
  unfold countUse setIntent
  unfold intent at he ⊢
  rw [List.getElem?_set_self']
  cases hi : s.intents[id]? with
  | none => rfl
  | some i => simpa [hi] using he

end Session

namespace NodeSet

variable {a b : NodeSet} {as bs : List Node} {id : Nat} {definition : Expr} {e : Extent}

/-- The members of a node-set, read out in the order that comes cheapest. -/
def readOut (T : Transformation) (E : Engine) (a : NodeSet) : Action (List Node) := do
  E.drain (← a.scan T E)

/-- The members that a node-set has when it is read in a session, and the session afterwards. The
nodes of a lazy node-set are kept already; or its definition is evaluated anew, and once it has been
used often enough what that gives is kept. -/
inductive Shows (T : Transformation) : NodeSet → Session → List Node → Session → Prop
  | empty (s : Session) : Shows T .empty s [] s
  | single (n : Option Node) (navigable : Bool) (s : Session) :
      Shows T (.single n navigable) s n.toList s
  | extent (e : Extent) (s : Session) : Shows T (.extent e) s e.nodes s
  | kept {id : Nat} (definition : Expr) {s : Session} {e : Extent} :
      (s.intent id).extent = some e → Shows T (.intent id definition) s e.nodes s
  | anew {id : Nat} {definition : Expr} {s t : Session} {ns : List Node} :
      (s.intent id).extent = none → (s.intent id).uses + 1 < T.threshold →
      Results T (fun E => do E.drain (← E.cursor definition T.globalContext false)) (s.countUse id)
        ns t → Shows T (.intent id definition) s ns t
  | keeping {id : Nat} {definition : Expr} {s t : Session} {e : Extent} :
      (s.intent id).extent = none → T.threshold ≤ (s.intent id).uses + 1 →
      Results T (fun E => do E.extent (← E.cursor definition T.globalContext false)) (s.countUse id)
        e t → Shows T (.intent id definition) s (t.keptExtent id e).nodes (t.keep id e)

/-- What is read of a lazy node-set is kept, unless something was kept in the meantime. -/
theorem materializeIntent_results (he : (s.intent id).extent = none)
    (h : Results T (fun E => do E.extent (← E.cursor definition T.globalContext false)) s e t) :
    Results T (fun E => materializeIntent T E id definition) s (t.keptExtent id e)
      (t.keep id e) := by
  let keep (_ : Engine) (e : Extent) : Action Extent :=
    .update fun s => (s.keptExtent id e, s.keep id e)
  have hkeep : Results T (fun E => keep E e) t (t.keptExtent id e) (t.keep id e) :=
    ⟨0, fun _ _ => rfl⟩
  refine (h.bind (f := keep) hkeep).of_run fun E => ?_
  rw [materializeIntent, Action.run_get, he, bind_assoc]
  rfl

/-- The nodes of a lazy node-set that are kept are not evaluated again. -/
theorem scan_kept (he : (s.intent id).extent = some e) :
    Results T (fun E => (intent id definition).scan T E) s (.ofExtent e) s :=
  (Results.pure _ s).of_run fun E => by
    rw [scan, enumerateIntent, Action.run_get, he]
    rfl

/-- A use of a lazy node-set that is not kept is counted, and its definition is evaluated. -/
theorem scan_run (he : (s.intent id).extent = none) (E : Engine) :
    ((intent id definition).scan T E).attempt.run s =
      (if T.threshold ≤ (s.intent id).uses + 1 then
        materializeIntent T E id definition >>= fun e => pure (.ofExtent e)
      else E.cursor definition T.globalContext false).attempt.run (s.countUse id) := by
  have huse : (registerUse T id).attempt.run s =
      (.ok (decide (T.threshold ≤ (s.intent id).uses + 1)), s.countUse id) := rfl
  rw [scan, enumerateIntent, Action.run_get, he]
  simp only [Action.run_bind_ok huse, decide_eq_true_eq]
  rfl

/-- What a node-set shows is what it is read out to. -/
theorem Shows.readOut (h : Shows T a s as t) : Results T (fun E => a.readOut T E) s as t := by
  cases h with
  | empty => exact (Results.pure _ s).bind (Results.drain_listed _ _ [] s)
  | single n navigable => exact (Results.pure _ s).bind (Results.drain_listed _ _ _ s)
  | extent e => exact (Results.pure _ s).bind (Results.drain_listed _ _ _ s)
  | kept definition he => exact (scan_kept he).bind (Results.drain_listed _ _ _ s)
  | anew he hu hread =>
    refine hread.of_run fun E => Action.run_bind_congr ?_
    rw [scan_run he, if_neg (by omega)]
  | keeping he hu hread =>
    have hkept := materializeIntent_results (Session.extent_countUse he) hread
    have hscan := hkept.bind (f := fun _ e => Pure.pure (Cursor.ofExtent e)) (Results.pure _ _)
    refine (hscan.of_run fun E => ?_).bind (Results.drain_listed _ _ _ _)
    rw [scan_run he, if_pos hu]

/-- What a node-set shows is determined by the session. -/
theorem Shows.unique (h : Shows T a s as t) (h' : Shows T a s bs u) : as = bs ∧ t = u := by
  obtain ⟨heq, ht⟩ := Comes.unique h.readOut h'.readOut
  exact ⟨Except.ok.inj heq, ht⟩

/-- The right side is read after the left one, and only if the left one has members. -/
theorem compareNodeSets_eq (T : Transformation) (E : Engine) (a : NodeSet) (op : Comparison)
    (b : NodeSet) : Value.compareNodeSets T E a op b = a.readOut T E >>= fun left =>
      if left.isEmpty then pure false else b.readOut T E >>= fun right =>
        pure (op.stringLists (left.map Node.stringValue) (right.map Node.stringValue)) := by
  simp only [Value.compareNodeSets, readOut, bind_assoc]

/-- Without members on the left no relation holds. -/
theorem Shows.compare_nil (ha : Shows T a s [] t) (op : Comparison) (b : NodeSet) :
    Results T (fun E => (Value.nodeSet a).compare T E op (.nodeSet b)) s false t := by
  simp only [Value.compare, compareNodeSets_eq]
  exact ha.readOut.bind (Results.pure false t)

/-- Otherwise the string values of the members are compared. -/
theorem Shows.compare_cons {n : Node} (ha : Shows T a s (n :: as) t) (hb : Shows T b t bs u)
    (op : Comparison) :
    Results T (fun E => (Value.nodeSet a).compare T E op (.nodeSet b)) s
      (op.stringLists ((n :: as).map Node.stringValue) (bs.map Node.stringValue)) u := by
  simp only [Value.compare, compareNodeSets_eq]
  exact ha.readOut.bind (hb.readOut.bind (Results.pure _ u))

/-- Two node-sets are equal just if some member of one has the string value of some member of the
other, and unequal just if some member of one has another string value than some member of the
other; without members on one side they are neither. The right one is read as the left one leaves
the session, and only if the left one has members. -/
theorem equality_iff_exists (ha : Shows T a s as t) (hb : as ≠ [] → Shows T b t bs u) :
    ∃ equal unequal v,
      Results T (fun E => (Value.nodeSet a).compare T E .equal (.nodeSet b)) s equal v ∧
      Results T (fun E => (Value.nodeSet a).compare T E .unequal (.nodeSet b)) s unequal v ∧
      (equal = true ↔ ∃ m ∈ as, ∃ n ∈ bs, m.stringValue = n.stringValue) ∧
      (unequal = true ↔ ∃ m ∈ as, ∃ n ∈ bs, m.stringValue ≠ n.stringValue) ∧
      (as = [] ∨ bs = [] → equal = false ∧ unequal = false) := by
  cases as with
  | nil => exact ⟨false, false, t, ha.compare_nil _ _, ha.compare_nil _ _, by simp⟩
  | cons n as =>
    refine ⟨_, _, u, ha.compare_cons (hb nofun) _, ha.compare_cons (hb nofun) _, ?_, ?_, ?_⟩
    · rw [Comparison.stringLists_iff]
      simp only [List.mem_map, exists_exists_and_eq_and, Comparison.strings, beq_iff_eq]
    · rw [Comparison.stringLists_unequal]
      simp only [List.mem_map, exists_exists_and_eq_and]
    · rintro (h | rfl)
      · cases h
      · exact ⟨rfl, rfl⟩

/-- A lazy node-set of nodes with different values is both equal and unequal to itself. It is
evaluated anew on the left, and kept by its use on the right. -/
theorem equality_iff_exists_of_lazy : ∃ (T : Transformation) (a : NodeSet) (m n : Node)
    (s t u v : Session), m.stringValue ≠ n.stringValue ∧
      Shows T a s [m, n] t ∧ Shows T a t [m, n] u ∧
      Results T (fun E => (Value.nodeSet a).compare T E .equal (.nodeSet a)) s true v ∧
      Results T (fun E => (Value.nodeSet a).compare T E .unequal (.nodeSet a)) s true v := by
  let T : Transformation := .withThreshold .bare 2
  let m : Node := .root ⟨0, false, .text "a"⟩
  let n : Node := .root ⟨1, false, .text "b"⟩
  let d : Expr := .value (.nodeSet (.extent ⟨[m, n], false, false⟩))
  let state (uses : Nat) : Session := { intents := [{ definition := d, uses }] }
  have hleft : Shows T (.intent 0 d) (state 0) [m, n] (state 1) :=
    .anew rfl (by decide) (.of 20 fun _ => rfl)
  have hread : Results T (fun E => do E.extent (← E.cursor d T.globalContext false))
      ((state 1).countUse 0) ⟨[m, n], false, false⟩ (state 2) := .of 20 fun _ => rfl
  have hright : Shows T (.intent 0 d) (state 1) [m, n] _ := .keeping rfl (Nat.le_refl 2) hread
  have hne : m.stringValue ≠ n.stringValue := by decide
  obtain ⟨equal, unequal, v, he, hu, hequal, hunequal, -⟩ :=
    equality_iff_exists hleft fun _ => hright
  obtain rfl := hequal.mpr ⟨m, by simp, m, by simp, rfl⟩
  obtain rfl := hunequal.mpr ⟨m, by simp, n, by simp, hne⟩
  exact ⟨T, _, m, n, _, _, _, v, hne, hleft, hright, he, hu⟩

end NodeSet
end PathLanguage

namespace PathLanguage

namespace Comparison

variable {op : Comparison} {x y : Number}

/-- An order of strings is that of their numbers. -/
theorem strings_ordered (hop : op.isEquality = false) (a b : String) :
    op.strings a b = op.numbers (.ofText a) (.ofText b) := by
  cases op with
  | equal | unequal => cases hop
  | less | atMost | greater | atLeast => rfl

/-- What stands in an order is no NaN. -/
theorem numbers_proper (hop : op.isEquality = false) (h : op.numbers x y = true) :
    x.isNaN = false ∧ y.isNaN = false := by
  cases op with
  | equal | unequal => cases hop
  | less => exact monotone_lt.proper h
  | atMost => exact monotone_le.proper h
  | greater => exact (monotone_lt.proper h).symm
  | atLeast => exact (monotone_le.proper h).symm

end Comparison

namespace NodeSet

variable {T : Transformation} {s t u : Session} {a b : NodeSet} {as bs : List Node}

/-- A comparison of node-sets looks for a pair of members whose strings stand in the relation. -/
theorem Shows.compare_iff (ha : Shows T a s as t) (hb : as ≠ [] → Shows T b t bs u)
    (op : Comparison) : ∃ holds v,
      Results T (fun E => (Value.nodeSet a).compare T E op (.nodeSet b)) s holds v ∧
      (holds = true ↔ ∃ m ∈ as, ∃ n ∈ bs, op.strings m.stringValue n.stringValue = true) := by
  cases as with
  | nil => exact ⟨false, t, ha.compare_nil op b, by simp⟩
  | cons n as =>
    refine ⟨_, u, ha.compare_cons (hb nofun) op, ?_⟩
    rw [Comparison.stringLists_iff]
    simp only [List.mem_map, exists_exists_and_eq_and]

/-- A node-set stands in an order to another just if the number of some member of one does to the
number of some member of the other; if no member of one side is a number no order holds. The right
node-set is read as the left one leaves the session, and only if the left one has members. -/
theorem order_iff_exists (ha : Shows T a s as t) (hb : as ≠ [] → Shows T b t bs u)
    (op : Comparison) (hop : op.isEquality = false) :
    ∃ holds v,
      Results T (fun E => (Value.nodeSet a).compare T E op (.nodeSet b)) s holds v ∧
      (holds = true ↔ ∃ m ∈ as, ∃ n ∈ bs,
        op.numbers (.ofText m.stringValue) (.ofText n.stringValue) = true) ∧
      ((∀ m ∈ as, (Number.ofText m.stringValue).isNaN = true) ∨
        (∀ n ∈ bs, (Number.ofText n.stringValue).isNaN = true) → holds = false) := by
  obtain ⟨holds, v, hresult, hiff⟩ := ha.compare_iff hb op
  simp only [Comparison.strings_ordered hop] at hiff
  refine ⟨holds, v, hresult, hiff, fun hnan => Bool.eq_false_iff.mpr fun ht => ?_⟩
  obtain ⟨m, hm, n, hn, hmn⟩ := hiff.mp ht
  obtain ⟨hl, hr⟩ := Comparison.numbers_proper hop hmn
  rcases hnan with hnan | hnan
  · cases hl.symm.trans (hnan m hm)
  · cases hr.symm.trans (hnan n hn)

/-- Of the texts `x` and `3` on the left, in a lazy node-set, and `y` and `2` on the right, the
numbers alone decide: some left one is greater, none is less. -/
theorem order_iff_exists_of_mixed : ∃ (T : Transformation) (a b : NodeSet) (s t v w : Session)
    (x m y n : Node), [x, m, y, n].map Node.stringValue = ["x", "3", "y", "2"] ∧
      Shows T a s [x, m] t ∧ Shows T b t [y, n] t ∧
      Results T (fun E => (Value.nodeSet a).compare T E .greater (.nodeSet b)) s true v ∧
      Results T (fun E => (Value.nodeSet a).compare T E .atMost (.nodeSet b)) s false w := by
  let text (k : Nat) (content : String) : Node := .root ⟨k, false, .text content⟩
  let x := text 0 "x"
  let m := text 1 "3"
  let y := text 2 "y"
  let n := text 3 "2"
  let d : Expr := .value (.nodeSet (.extent ⟨[x, m], false, false⟩))
  let state (uses : Nat) : Session := { intents := [{ definition := d, uses }] }
  have hleft : Shows .bare (.intent 0 d) (state 0) [x, m] (state 1) :=
    .anew rfl (by decide) (.of 20 fun _ => rfl)
  have hright : Shows .bare (.extent ⟨[y, n], false, false⟩) (state 1) [y, n] (state 1) :=
    .extent _ _
  obtain ⟨greater, v, hg, hgreater, -⟩ :=
    order_iff_exists hleft (fun _ => hright) .greater rfl
  obtain ⟨atMost, w, hl, hatMost, -⟩ := order_iff_exists hleft (fun _ => hright) .atMost rfl
  obtain rfl := hgreater.mpr ⟨m, by simp, n, by simp, by decide +kernel⟩
  have hnone : ∀ p ∈ [x, m], ∀ q ∈ [y, n],
      ¬ Comparison.atMost.numbers (.ofText p.stringValue) (.ofText q.stringValue) = true := by
    decide +kernel
  obtain rfl : atMost = false := Bool.eq_false_iff.mpr fun h =>
    let ⟨p, hp, q, hq, hpq⟩ := hatMost.mp h
    hnone p hp q hq hpq
  exact ⟨.bare, _, _, _, _, v, w, x, m, y, n, rfl, hleft, hright, hg, hl⟩

end NodeSet
end PathLanguage
