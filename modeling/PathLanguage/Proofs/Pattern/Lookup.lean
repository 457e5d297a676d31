/- Patterns of IDs and keys: they match the nodes that the functions of the same names find. Only
white space that is no blank parts the words of a pattern and not those of a function. -/
import PathLanguage.Proofs.Key.Sharing
import PathLanguage.Proofs.Placement.Evaluation
import PathLanguage.Proofs.Safety.Function

namespace PathLanguage

namespace Text

variable {p q : Char → Bool} {f : Char → Char} {cs : List Char} {s : String}

/-- Replacing what separates words by other separators leaves the words as they are. -/
theorem wordsBy_map (hsep : ∀ c ∈ cs, q (f c) = p c) (hkeep : ∀ c ∈ cs, p c = false → f c = c) :
    wordsBy q (cs.map f) = wordsBy p cs := by
  induction cs with
  | nil => rfl
  | cons c rest ih =>
    obtain ⟨hc, hsep⟩ := List.forall_mem_cons.mp hsep
    obtain ⟨hkc, hkeep⟩ := List.forall_mem_cons.mp hkeep
    have hrest := ih hsep hkeep
    cases rest with
    | nil =>
      cases hp : p c with
      | true => simp [wordsBy, hc, hp]
      | false =>
        have hq : q c = false := by rw [← hp, ← hc, hkc hp]
        simp [wordsBy, hkc hp, hp, hq]
    | cons d rest =>
      have hd : q (f d) = p d := hsep d (.head _)
      rw [List.map_cons] at hrest
      rw [List.map_cons, List.map_cons, wordsBy, wordsBy, hc, hd, hrest]
      cases hp : p c with
      | true => rfl
      | false => rw [hkc hp]

/-- A text with a space for each of its white space. -/
def spaced (s : String) : String :=
  .ofList (s.toList.map fun c => if isWhiteSpace c then ' ' else c)

theorem isWhiteSpace_of_isBlank {c : Char} (h : isBlank c = true) : isWhiteSpace c = true := by
  simp only [isBlank, Bool.or_eq_true, beq_iff_eq] at h
  rcases h with ((rfl | rfl) | rfl) | rfl <;> rfl

theorem words_spaced : words (spaced s) = (wordsBy isWhiteSpace s.toList).map String.ofList := by
  rw [words, spaced, String.toList_ofList]
  congr 1
  apply wordsBy_map
  · intro c _
    cases h : isWhiteSpace c with
    | true => rfl
    | false =>
      rw [if_neg (by decide), ← Bool.not_eq_true]
      intro hblank
      rw [isWhiteSpace_of_isBlank hblank] at h
      cases h
  · intro c _ h
    rw [h]
    rfl

/-- Without other white space than blanks the words are the same to all. -/
theorem words_of_blank (h : ∀ c ∈ s.toList, isWhiteSpace c = true → isBlank c = true) :
    words s = (wordsBy isWhiteSpace s.toList).map String.ofList := by
  have hsame : wordsBy isBlank (s.toList.map id) = wordsBy isWhiteSpace s.toList := by
    apply wordsBy_map
    · intro c hc
      exact Bool.eq_iff_iff.mpr ⟨isWhiteSpace_of_isBlank, h c hc⟩
    · intro c _ _
      rfl
  rw [words, ← hsame, List.map_id]

theorem trim_of_solid (h : ∀ c ∈ cs, isBlank c = false) : trim cs = cs := by
  have hdrop : ∀ ds : List Char, (∀ c ∈ ds, isBlank c = false) → ds.dropWhile isBlank = ds := by
    intro ds hds
    cases ds with
    | nil => rfl
    | cons d ds => rw [List.dropWhile_cons, hds d (.head _)]; rfl
  rw [trim, hdrop cs h, hdrop cs.reverse fun c hc => h c (List.mem_reverse.mp hc),
    List.reverse_reverse]

end Text

namespace Name

variable {cs : List Char}

theorem isBlank_of_isChar {c : Char} (h : isChar c = true) : Text.isBlank c = false := by
  rw [← Bool.not_eq_true]
  intro hblank
  simp only [Text.isBlank, Bool.or_eq_true, beq_iff_eq] at hblank
  rcases hblank with ((rfl | rfl) | rfl) | rfl <;> exact absurd h (by decide +kernel)

theorem isChar_of_isUnqualified (h : isUnqualified cs = true) : ∀ c ∈ cs, isChar c = true := by
  cases cs with
  | nil => cases h
  | cons c cs =>
    obtain ⟨hstart, hrest⟩ := Bool.and_eq_true_iff.mp h
    refine List.forall_mem_cons.mpr ⟨?_, List.all_eq_true.mp hrest⟩
    rw [isStartChar, Bool.or_eq_true] at hstart
    rcases hstart with hletter | hsign
    · simp [isChar, hletter]
    · simp [isChar, hsign]

theorem splitColon?_eq_some {lead rest : List Char} (h : splitColon? cs = some (lead, rest)) :
    cs = lead ++ ':' :: rest := by
  induction cs generalizing lead with
  | nil => cases h
  | cons c cs ih =>
    rw [splitColon?] at h
    split at h
    · next hc =>
      cases h
      rw [beq_iff_eq.mp hc]
      rfl
    · obtain ⟨⟨l, r⟩, hsplit, heq⟩ := Option.map_eq_some_iff.mp h
      cases heq
      rw [ih hsplit]
      rfl

/-- A name has no blanks. -/
theorem isBlank_of_isQualified (h : isQualified cs = true) :
    ∀ c ∈ cs, Text.isBlank c = false := by
  rw [isQualified] at h
  split at h
  · next lead rest hsplit =>
    obtain ⟨hlead, hrest⟩ := Bool.and_eq_true_iff.mp h
    rw [splitColon?_eq_some hsplit]
    refine List.forall_mem_append.mpr ⟨fun c hc => ?_, List.forall_mem_cons.mpr ⟨rfl, ?_⟩⟩
    · exact isBlank_of_isChar (isChar_of_isUnqualified hlead c hc)
    · exact fun c hc => isBlank_of_isChar (isChar_of_isUnqualified hrest c hc)
  · exact fun c hc => isBlank_of_isChar (isChar_of_isUnqualified h c hc)

end Name

/-- A name that a scope resolves is resolved alike where it is the argument of a function. -/
theorem Function.resolveName_of_makeName {S : Scope} {text : String} {name : ExpandedName}
    (h : S.makeName text = .ok name) : resolveName (some S) text = .ok name := by
  have hname : Name.isQualified text.toList = true := by
    rw [Scope.makeName] at h
    split at h
    · assumption
    · cases h
  rw [resolveName, Text.trim_of_solid (Name.isBlank_of_isQualified hname), hname,
    String.ofList_toList]
  simp [h, Except.mapError]

namespace Node

variable {F : Forest} {n m : Node} {id : String}

/-- The node with an ID depends on nothing but the document. -/
theorem elementWithId_of_document (h : m.document = n.document) (id : String) :
    m.elementWithId id = n.elementWithId id := by
  rw [elementWithId, elementWithId, top, top, h]

theorem kind_of_hasId (h : hasId id n = true) : n.kind = .element := by
  have htree : ∀ t : Tree, t.attributes ≠ [] → t.kind = .element := by
    intro t ht
    cases t with
    | element => rfl
    | _ => exact absurd rfl ht
  cases n with
  | root d =>
    refine htree d.tree fun hnone => ?_
    simp [hasId, tree?, hnone] at h
  | child p i t =>
    refine htree t fun hnone => ?_
    simp [hasId, tree?, hnone] at h
  | _ => cases h

theorem kind_of_elementWithId (h : n.elementWithId id = some m) : m.kind = .element := by
  unfold elementWithId at h
  split at h
  · cases h
  · exact kind_of_hasId (List.find?_some h)

end Node

namespace Function

variable {D : Document} {ns : List Node} {n : Node}

/-- Nodes of one document can be sorted. -/
theorem sortedSet_run (h : (Forest.single D).HoldsAll ns) (s : Session) :
    (sortedSet ns).attempt.run s = (.ok (.nodeSet (.ofNodes (Node.docOrder ns) true)), s) := by
  have hdocument : ∀ a ∈ ns, a.document = D := fun a ha => List.mem_singleton.mp (h a ha).1
  have hsort := h.sortDistinct_eq fun a ha b hb =>
    .inl (by rw [hdocument a ha, hdocument b hb])
  rw [sortedSet, hsort]
  rfl

/-- A node is among the sorted ones if it is the same as one of them. -/
theorem any_same_iff_docOrder (h : (Forest.single D).HoldsAll ns) (hn : (Forest.single D).Holds n) :
    ns.any n.same = true ↔ n ∈ Node.docOrder ns := by
  rw [h.any_same_iff hn, h.mem_docOrder]

/-- The function that searches a key, for one value. -/
theorem byKey_string {T : Transformation} {E : Engine} {S : Scope} {k : String}
    {name : ExpandedName} (hk : S.makeName k = .ok name) (value : String) (n : Node)
    (c : Context) : byKey T E k (.string value) (some S) n c =
      if (T.keysNamed name).isEmpty then throw (.undefinedKey k)
      else E.search name value n.top c >>= sortedSet := by
  have hone : searchAll E name n.top c [value] = E.search name value n.top c := by
    simp [searchAll]
  rw [byKey, resolveName_of_makeName hk, ← hone]
  change (if (T.keysNamed name).isEmpty then _ else _) = _
  by_cases h : (T.keysNamed name).isEmpty
  · rw [if_pos h, if_pos h]
    rfl
  · rw [if_neg h, if_neg h]
    rfl

end Function

/-- Every index that a session keeps is one of a document, and lists nodes of that document. -/
def Session.Rooted (F : Forest) (s : Session) : Prop :=
  ∀ i ∈ s.indexes, F.Holds i.root ∧ Key.EntriesHold (.single i.root.document) i.entries

namespace Key

variable {T : Transformation} {E : Engine} {F : Forest} {name : ExpandedName} {value : String}
  {root : Node} {c : Context} {s t : Session} {es : Entries}

theorem enterNode_entries {n : Node} (hn : F.Holds n) (ds : List KeyDefinition)
    (h : EntriesHold F es) : Returns (enterNode T E c n ds es) (EntriesHold F) := by
  induction ds generalizing es with
  | nil => exact .pure h
  | cons d ds ih =>
    refine .bind_any fun found => .ite (fun _ => ?_) fun _ => ih h
    exact .bind_any fun values => ih (h.enterAll hn values)

theorem enterNodes_entries {ns : List Node} (hn : F.HoldsAll ns) (ds : List KeyDefinition)
    (h : EntriesHold F es) : Returns (enterNodes T E c ds ns es) (EntriesHold F) := by
  induction ns generalizing es with
  | nil => exact .pure h
  | cons n ns ih =>
    rw [Forest.holdsAll_cons] at hn
    exact (enterNode_entries hn.1 ds h).bind fun _ hes => ih hn.2 hes

/-- An index lists nodes of the document that it is built for. -/
theorem build_entries (hr : F.Holds root) (c : Context) :
    Returns (build T E name root c) (EntriesHold (.single root.document)) := by
  have hroot : (Forest.single root.document).Holds root := ⟨.head _, hr.2⟩
  exact enterNodes_entries (candidates_holds hroot _) _ (List.forall_mem_nil _)

/-- What a search finds is of the document that is searched. -/
theorem search_holds (hs : s.Rooted F) (hr : F.Holds root) {ns : List Node}
    (h : (search T E name value root c).attempt.run s = (.ok ns, t)) :
    (Forest.single root.document).HoldsAll ns := by
  cases hd : (T.keysNamed name).isEmpty with
  | true =>
    rw [search_of_undefined hd] at h
    cases h
  | false =>
    cases hi : s.index? name root with
    | some i =>
      rw [search_of_index hd hi] at h
      cases h
      obtain ⟨hroot, hentries⟩ := hs i (List.mem_of_find?_eq_some hi)
      have hfind := List.find?_some hi
      rw [Bool.and_eq_true, hroot.same_iff hr] at hfind
      rw [hfind.2] at hentries
      exact hentries.lookup value
    | none =>
      rw [search_of_none hd hi] at h
      obtain ⟨entries, u, hbuild, h⟩ := Action.bind_ok.mp h
      cases h
      exact (build_entries hr c s entries (congrArg Prod.fst hbuild)).lookup value

/-- A search keeps the indexes of a session rooted if the evaluations that build an index do. -/
theorem search_rooted (hs : s.Rooted F) (hr : F.Holds root)
    (hb : ((build T E name root c).attempt.run s).2.Rooted F) :
    ((search T E name value root c).attempt.run s).2.Rooted F := by
  cases hd : (T.keysNamed name).isEmpty with
  | true =>
    rw [search_of_undefined hd]
    exact hs
  | false =>
    cases hi : s.index? name root with
    | some i =>
      rw [search_of_index hd hi]
      exact hs
    | none =>
      cases hrun : (build T E name root c).attempt.run s with
      | mk r t =>
        rw [hrun] at hb
        cases r with
        | error f =>
          rw [search_of_failed hd hi hrun]
          exact hb
        | ok entries =>
          rw [search_of_none hd hi, Action.run_bind_ok hrun]
          have hentries := build_entries hr c s entries (congrArg Prod.fst hrun)
          change Session.Rooted F (if (t.index? name root).isSome then t else _)
          split
          · exact hb
          · exact List.forall_mem_append.mpr ⟨hb, List.forall_mem_singleton.mpr ⟨hr, hentries⟩⟩

end Key

namespace Pattern

/-- What matching a node and calling a function come to, if the node matches just if it is among the
nodes that the function gives; the session that they leave is the same. -/
inductive FoundBy (n : Node) : Except Fault Bool × Session → Except Fault Value × Session → Prop
  | failed {f g : Fault} {t : Session} : FoundBy n (.error f, t) (.error g, t)
  | found {b : Bool} {ns : List Node} {t : Session} : (b = true ↔ n ∈ ns) →
    FoundBy n (.ok b, t) (.ok (.nodeSet (.ofNodes ns true)), t)

/-- In a session, a node matches a pattern in one context just if an expression finds it in another.
The expression is evaluated one step above the searches that both of them make. -/
def AgreesWith (T : Transformation) (depth : Nat) (s : Session) (n : Node) (c : Context)
    (p : Pattern) (e : Expr) (c' : Context) : Prop :=
  FoundBy n ((p.accepts (engine T (depth + 2)) n c).attempt.run s)
    (((engine T (depth + 3)).value e c').attempt.run s)

variable {T : Transformation} {F : Forest} {S : Scope} {n m : Node} {c c' : Context} {s : Session}
  {k : String} {name : ExpandedName}

/-- A pattern of IDs matches what the function finds for a text with the same words. -/
theorem id_agrees (hn : F.Holds n) (hm : m.document = n.document) (hfocus : c'.node? = some m)
    {ids text : String}
    (hwords : Text.words text = (Text.wordsBy Text.isWhiteSpace ids.toList).map String.ofList)
    (scope : Option Scope) (depth : Nat) :
    AgreesWith T depth s n c (.id ids) (.call .id [.value (.string text)] none scope) c' := by
  have hown : (Forest.single n.document).Holds n := ⟨.head _, hn.2⟩
  let found : List Node := (Text.words text).filterMap n.elementWithId
  have hfound : (Forest.single n.document).HoldsAll found := by
    intro e he
    obtain ⟨w, -, hw⟩ := List.mem_filterMap.mp he
    exact hown.elementWithId hw
  have hcall : (engine T (depth + 3)).value (.call .id [.value (.string text)] none scope) c' =
      Function.sortedSet found := by
    obtain ⟨node?, current?, position, last, locals⟩ := c'
    obtain rfl : node? = some m := hfocus
    change Function.sortedSet (((Text.words text) ++ []).filterMap m.elementWithId) = _
    rw [List.append_nil, funext (Node.elementWithId_of_document hm)]
  rw [AgreesWith, hcall, Function.sortedSet_run hfound]
  have hany : ((Text.wordsBy Text.isWhiteSpace ids.toList).any fun w =>
      (n.elementWithId (String.ofList w)).any n.same) = found.any n.same := by
    rw [List.any_filterMap, hwords, List.any_map]
    rfl
  refine .found ?_
  rw [hany, Bool.and_eq_true, ← Function.any_same_iff_docOrder hfound hown,
    and_iff_right_iff_imp, hfound.any_same_iff hown, beq_iff_eq]
  intro hmem
  obtain ⟨w, -, hw⟩ := List.mem_filterMap.mp hmem
  exact Node.kind_of_elementWithId hw

/-- A pattern of a key matches what the function finds for the same value. -/
theorem key_agrees (hn : F.Holds n) (hs : s.Rooted F) (hm : m.document = n.document)
    (hc : c'.ambient = c.ambient) (hfocus : c'.node? = some m) (hk : S.makeName k = .ok name)
    (value : String) (depth : Nat) :
    AgreesWith T depth s n c (.key name value)
      (.call .key [.value (.string k), .value (.string value)] none (some S)) c' := by
  let E := engine T (depth + 2)
  have hown : (Forest.single n.document).Holds n := ⟨.head _, hn.2⟩
  have hsearch : E.search name value m.top c' = E.search name value n.top c := by
    have hE := (engine_unplaced T (depth + 2)).search name value n.top
    rw [← hE c, ← hc, hE c', Node.top, hm]
    rfl
  have hcall : (engine T (depth + 3)).value
      (.call .key [.value (.string k), .value (.string value)] none (some S)) c' =
      if (T.keysNamed name).isEmpty then throw (.undefinedKey k)
      else E.search name value n.top c >>= Function.sortedSet := by
    rw [← hsearch, ← Function.byKey_string hk]
    obtain ⟨node?, current?, position, last, locals⟩ := c'
    obtain rfl : node? = some m := hfocus
    rfl
  rw [AgreesWith, hcall]
  cases hd : (T.keysNamed name).isEmpty with
  | true =>
    have hpattern : (accepts E (.key name value) n c).attempt.run s =
        (.error (.undefinedKey name.text), s) :=
      Action.run_bind_error (Key.search_of_undefined hd)
    rw [hpattern]
    exact .failed
  | false =>
    cases hrun : (E.search name value n.top c).attempt.run s with
    | mk r t =>
      cases r with
      | error f =>
        rw [accepts, Action.run_bind_error hrun, if_neg (by decide), Action.run_bind_error hrun]
        exact .failed
      | ok ns =>
        have hns : (Forest.single n.document).HoldsAll ns := Key.search_holds hs hn.top hrun
        rw [accepts, Action.run_bind_ok hrun, if_neg (by decide), Action.run_bind_ok hrun,
          Function.sortedSet_run hns]
        exact .found (Function.any_same_iff_docOrder hns hown)

/-- Patterns of IDs and keys match the nodes that the functions find, from whatever node of the
document these are called. A pattern of IDs reads every white space as the function reads a space,
so the two agree on the same text as long as its white space is blank. -/
theorem lookups_agree (hn : F.Holds n) (hs : s.Rooted F) (hm : m.document = n.document)
    (hc : c'.ambient = c.ambient) (hfocus : c'.node? = some m) (hk : S.makeName k = .ok name)
    (depth : Nat) :
    (∀ ids, AgreesWith T depth s n c (.id ids)
      (.call .id [.value (.string (Text.spaced ids))] none (some S)) c') ∧
    (∀ ids : String, (∀ ch ∈ ids.toList, Text.isWhiteSpace ch = true → Text.isBlank ch = true) →
      AgreesWith T depth s n c (.id ids) (.call .id [.value (.string ids)] none (some S)) c') ∧
    ∀ value, AgreesWith T depth s n c (.key name value)
      (.call .key [.value (.string k), .value (.string value)] none (some S)) c' := by
  refine ⟨fun ids => ?_, fun ids hblank => ?_, fun value => ?_⟩
  · exact id_agrees hn hm hfocus Text.words_spaced (some S) depth
  · exact id_agrees hn hm hfocus (Text.words_of_blank hblank) (some S) depth
  · exact key_agrees hn hs hm hc hfocus hk value depth

/-- An element that is found by its ID, between a tab and the end of the text, and by a key. -/
theorem lookups_agree_of_child : ∃ (T : Transformation) (n : Node) (c' : Context),
    ((accepts (engine T 2) (.id "v\tw") n .blank).attempt.run {}).1.toOption = some true ∧
    AgreesWith T 0 {} n .blank (.id "v\tw")
      (.call .id [.value (.string "v\tw")] none (some .standalone)) c' ∧
    ((accepts (engine T 2) (.key (.unqualified "k") "e") n .blank).attempt.run {}).1.toOption =
      some true ∧
    AgreesWith T 0 {} n .blank (.key (.unqualified "k") "e")
      (.call .key [.value (.string "k"), .value (.string "e")] none (some .standalone)) c' := by
  let T : Transformation := { keys :=
    [⟨.unqualified "k", .test (.named .element (.unqualified "e")), .call .name [] none none⟩] }
  let e : Tree := .element (.unqualified "e") none [] [⟨.unqualified "id", "w"⟩] []
  let D : Document := ⟨0, false, .document none [] [e]⟩
  let n : Node := .child (.root D) 0 e
  have hn : (Forest.single D).Holds n := ⟨.head _, Node.valid_child.mpr ⟨.root D, rfl⟩⟩
  have hs : Session.Rooted (.single D) {} := List.forall_mem_nil _
  have hk : Scope.standalone.makeName "k" = .ok (.unqualified "k") := by rfl
  have hm : (Node.root D).document = n.document := rfl
  have hc : (Context.blank.withNode (.root D)).ambient = Context.blank.ambient := rfl
  have hblank : ∀ ch ∈ "v\tw".toList, Text.isWhiteSpace ch = true → Text.isBlank ch = true := by
    change ∀ ch ∈ ['v', '\t', 'w'], _
    simp only [List.forall_mem_cons]
    exact ⟨by decide, by decide, by decide, List.forall_mem_nil _⟩
  obtain ⟨-, hid, hkey⟩ := lookups_agree (T := T) hn hs hm hc rfl hk 0
  exact ⟨T, n, _, by decide +kernel, hid "v\tw" hblank, by decide +kernel, hkey "e"⟩

end Pattern

end PathLanguage
