/- The index of a key is built on the first search of a document and shared by all later ones. What a
search finds does not depend on who searched first, as long as the two give the variables that key
definitions look up the same values. -/
import PathLanguage.Proofs.Agreement

namespace PathLanguage

/-- Two contexts give every variable that a key definition looks up the same value. -/
def Context.SameForKeys (T : Transformation) (c c' : Context) : Prop :=
  ∀ v ∈ T.keyVariables, c.locals.lookup v = c'.locals.lookup v

theorem Context.SameForKeys.agrees {T : Transformation} {c c' : Context} (h : c.SameForKeys T c') :
    c.Agrees T ∅ [] c' :=
  ⟨fun v hv => h v (hv.resolve_left List.not_mem_nil), nofun, nofun, nofun, nofun, nofun⟩

namespace Key

variable {T : Transformation} {E : Engine} {name : ExpandedName} {value : String} {root : Node}
  {c c' : Context} {s t : Session} {entries : Entries}

/-- Building the index of a key for a document. -/
def build (T : Transformation) (E : Engine) (name : ExpandedName) (root : Node)
    (context : Context) : Action Entries :=
  enterNodes T E context (T.keysNamed name) (candidates (T.keysNamed name) root) []

/-- Building an index searches no index of the same key and document, or none that is kept. -/
def BuildsAlone (T : Transformation) (E : Engine) (name : ExpandedName) (root : Node)
    (context : Context) (s : Session) : Prop :=
  ∀ entries t, (build T E name root context).attempt.run s = (.ok entries, t) →
    t.index? name root = none

theorem build_inStep (hk : T.KeysClosed) (hE : E.Steady T) (hc : c.Agrees T ∅ [] c')
    (name : ExpandedName) (root : Node) :
    Action.InStep Eq (build T E name root c) (build T E name root c') :=
  enterNodes_inStep hk hE hc (List.filter_subset_self _) _ _

theorem index?_kept (hs : s.index? name root = none) :
    ({ s with indexes := s.indexes ++ [⟨name, root, entries⟩] } : Session).index? name root =
      some ⟨name, root, entries⟩ := by
  rw [Session.index?, List.find?_append, ← Session.index?, hs]
  simp [Node.same]

/-- With an index at hand a search reads it, and changes nothing. -/
theorem search_of_index {i : KeyIndex} (hd : (T.keysNamed name).isEmpty = false)
    (hi : s.index? name root = some i) :
    (search T E name value root c).attempt.run s =
      (.ok ((i.entries.lookup value).getD []), s) := by
  rw [search, if_neg (by simp [hd]), Action.run_get, hi]
  rfl

/-- Without an index a search builds one; its entries are kept if no others have been meanwhile. -/
theorem search_of_none (hd : (T.keysNamed name).isEmpty = false) (hi : s.index? name root = none) :
    (search T E name value root c).attempt.run s =
      (do
        let entries ← build T E name root c
        modify fun s =>
          if (s.index? name root).isSome then s
          else { s with indexes := s.indexes ++ [⟨name, root, entries⟩] }
        return (entries.lookup value).getD [] : Action (List Node)).attempt.run s := by
  rw [search, if_neg (by simp [hd]), Action.run_get, hi]
  rfl

/-- A key without definitions cannot be searched. -/
theorem search_of_undefined (hd : (T.keysNamed name).isEmpty = true) :
    (search T E name value root c).attempt.run s = (.error (.undefinedKey name.text), s) := by
  simp only [search, hd]
  rfl

theorem search_of_built (hd : (T.keysNamed name).isEmpty = false) (hi : s.index? name root = none)
    (hb : (build T E name root c).attempt.run s = (.ok entries, t))
    (ht : t.index? name root = none) :
    (search T E name value root c).attempt.run s =
      (.ok ((entries.lookup value).getD []),
        { t with indexes := t.indexes ++ [⟨name, root, entries⟩] }) := by
  rw [search_of_none hd hi, Action.run_bind_ok hb]
  change (_, (if (t.index? name root).isSome then t else _)) = _
  rw [ht]
  rfl

theorem search_of_failed {f : Fault} (hd : (T.keysNamed name).isEmpty = false)
    (hi : s.index? name root = none)
    (hb : (build T E name root c).attempt.run s = (.error f, t)) :
    (search T E name value root c).attempt.run s = (.error f, t) := by
  rw [search_of_none hd hi, Action.run_bind_error hb]

/-- A search by `value'` in a context `c'` succeeds just if one by `value` in `c` does, and then finds
after it what it finds alone. -/
structure Independent (E : Engine) (name : ExpandedName) (root : Node) (s : Session)
    (value : String) (c : Context) (value' : String) (c' : Context) : Prop where
  succeeds : ((E.search name value root c).attempt.run s).1.isOk =
    ((E.search name value' root c').attempt.run s).1.isOk
  same : ((E.search name value root c).attempt.run s).1.isOk = true →
    ((E.search name value' root c').attempt.run
      ((E.search name value root c).attempt.run s).2).1 =
    ((E.search name value' root c').attempt.run s).1

/-- What a search finds is independent of another search of the same key before it, if the two give
the variables of keys the same values. -/
theorem search_independent (hh : T.HostsReadFocus) (hk : T.KeysRead) (hc : c.SameForKeys T c')
    (value value' : String) (depth : Nat) (hb : BuildsAlone T (engine T depth) name root c s) :
    Independent (engine T (depth + 1)) name root s value c value' c' := by
  have hsearch : (engine T (depth + 1)).search = search T (engine T depth) := rfl
  cases hd : (T.keysNamed name).isEmpty with
  | true =>
    constructor
    · rw [hsearch, search_of_undefined hd, search_of_undefined hd]
    · rw [hsearch, search_of_undefined hd, search_of_undefined hd]
      exact fun _ => rfl
  | false =>
    cases hi : s.index? name root with
    | some i =>
      constructor
      · rw [hsearch, search_of_index hd hi, search_of_index hd hi]
        rfl
      · rw [hsearch, search_of_index hd hi]
        exact fun _ => rfl
    | none =>
      have hE := engine_steady hh hk.closed depth
      obtain ⟨hbuild, hkept⟩ := build_inStep hk.closed hE hc.agrees name root s s (.refl s)
      generalize hr : (build T (engine T depth) name root c).attempt.run s = x at hbuild hkept
      generalize hr' : (build T (engine T depth) name root c').attempt.run s = y at hbuild hkept
      obtain ⟨r, t⟩ := x
      obtain ⟨r', t'⟩ := y
      obtain rfl : r = r' := hbuild.eq
      cases r with
      | error f =>
        constructor
        · rw [hsearch, search_of_failed hd hi hr, search_of_failed hd hi hr']
        · rw [hsearch, search_of_failed hd hi hr]
          exact nofun
      | ok entries =>
        have ht : t.index? name root = none := hb entries t hr
        have ht' : t'.index? name root = none := (hkept.index? name root).symm.trans ht
        constructor
        · rw [hsearch, search_of_built hd hi hr ht, search_of_built hd hi hr' ht']
          rfl
        · rw [hsearch, search_of_built hd hi hr ht, search_of_built hd hi hr' ht',
            search_of_index hd (index?_kept ht)]
          exact fun _ => rfl

/-- A key whose definition reads a local variable, searched from two nodes with the same value of it. -/
theorem search_independent_of_focus : ∃ (T : Transformation) (name : ExpandedName) (root : Node)
    (c c' : Context), c.node? ≠ c'.node? ∧ c.locals ≠ c'.locals ∧ T.keyVariables ≠ [] ∧
    T.HostsReadFocus ∧ T.KeysRead ∧ c.SameForKeys T c' ∧
    ∀ depth, BuildsAlone T (engine T (depth + 1)) name root c {} ∧
      ∀ value value',
        Independent (engine T (depth + 2)) name root {} value c value' c' := by
  let own : Binding := { name := .unqualified "v", isGlobal := false }
  let T : Transformation :=
    { keys := [⟨.unqualified "k", .test (.named .element (.unqualified "e")), .reference own⟩] }
  let c : Context :=
    { Context.onNode (some (.root .pair)) with locals := [(own.name, .string "t")] }
  let c' : Context := c.withLocal (.unqualified "b") (.boolean true) |>.withNode
    (.child (.root .pair) 0 (.text "t"))
  have hh : T.HostsReadFocus := by
    intro o ho
    cases ho
  have hk : T.KeysRead := by
    intro d hd
    obtain rfl := List.mem_singleton.mp hd
    exact ⟨.standalone, "e", rfl⟩
  have hc : c.SameForKeys T c' := by
    intro v hv
    obtain rfl := List.mem_singleton.mp hv
    rfl
  have hb : ∀ depth, BuildsAlone T (engine T (depth + 1)) (.unqualified "k") (.root .pair) c {} := by
    rintro depth _ _ ⟨⟩
    rfl
  have hlocals : c.locals ≠ c'.locals := fun h => absurd (congrArg List.length h) (by decide)
  refine ⟨T, .unqualified "k", .root .pair, c, c', nofun, hlocals, nofun, hh, hk, hc,
    fun depth => ⟨hb depth, fun value value' => ?_⟩⟩
  exact search_independent hh hk hc value value' (depth + 1) (hb depth)

end Key

end PathLanguage
