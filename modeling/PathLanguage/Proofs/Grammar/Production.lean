/- Production: what a reader makes of a text is an expression of the grammar, and a text that can be
read has tokens up to its end. -/
import PathLanguage.Proofs.Grammar.RoundTrip

namespace PathLanguage

open Lexer

/-- A token as the text of some source can have it. -/
def Token.Formed : Token → Prop
  | .literal s => Quotable s
  | .number s => IsNumber s.toList
  | .name s | .function s => IsName s.toList
  | .prefixWildcard s => IsSimpleName s.toList
  | _ => True

/-- Every token that can stand somewhere is formed. -/
theorem Token.Stands.formed {afterOperand : Bool} {t : Token} (h : t.Stands afterOperand) :
    t.Formed := by
  cases t with
  | literal | number | prefixWildcard => exact h
  | name | function => exact h.1
  | _ => trivial

theorem TokenList.ofChars_formed {limit : Nat} {afterOperand : Bool} {offset : Nat}
    {cs : List Char} : ∀ p ∈ (ofChars limit afterOperand offset cs).tokens, p.token.Formed := by
  intro p hp
  obtain ⟨behind, hstands⟩ := ofChars_stands p hp
  exact hstands.formed

namespace Reader

variable {α β : Type} {S : Scope} {src : Source} {ps qs : List PlacedToken} {P Q : α → Prop}
  {R : β → Prop}

/-- Tokens still to be taken from a text in a scope, formed, and up to the end of the text once
there are none left. -/
structure Legible (S : Scope) (src : Source) (ps : List PlacedToken) : Prop where
  scope : src.scope = S
  formed : ∀ p ∈ ps, p.token.Formed
  ends : ps = [] → src.fault = none

theorem map_fst_eq_ok {x : Except SyntaxFault (α × β)} {a : α} (h : x.map Prod.fst = .ok a) :
    ∃ b, x = .ok (a, b) := by
  cases x with
  | error f => cases h
  | ok p =>
    obtain rfl := Except.ok.inj h
    exact ⟨p.2, rfl⟩

/-- A whole text is read by taking all its tokens. -/
theorem run_eq_ok {r : Reader α} {beyond : String → SyntaxCause} {text : String} {a : α}
    (h : r.run beyond S text = .ok a) :
    ((TokenList.ofText text).tokens = [] → (TokenList.ofText text).fault = none) ∧
      ∃ qs, r ⟨text, S, (TokenList.ofText text).fault⟩ (TokenList.ofText text).tokens =
        .ok (a, qs) ∧ qs = [] := by
  let l := TokenList.ofText text
  change Except.map Prod.fst ((checkReadable >>= fun _ => r >>= fun a => peek? >>= _ : Reader α)
    ⟨text, S, l.fault⟩ l.tokens) = .ok a at h
  obtain ⟨rest, hwhole⟩ := map_fst_eq_ok h
  obtain ⟨_, ps, hcheck, hrest⟩ := Grammar.bind_eq_ok hwhole
  obtain ⟨a', qs, hr, hlast⟩ := Grammar.bind_eq_ok hrest
  obtain ⟨rfl, hstart⟩ := checkReadable_eq_ok hcheck
  rw [run_peek] at hlast
  cases qs with
  | nil =>
    cases hlast
    exact ⟨hstart, [], hr, rfl⟩
  | cons q qs => exact absurd hlast Grammar.fail_ne_ok

/-- Whatever a reader takes from a legible text, its result meets a condition, and the rest of the
text is legible. -/
def Yields (S : Scope) (P : α → Prop) (r : Reader α) : Prop :=
  ∀ ⦃src : Source⦄ ⦃ps : List PlacedToken⦄ ⦃a : α⦄ ⦃qs : List PlacedToken⦄, Legible S src ps →
    r src ps = .ok (a, qs) → P a ∧ Legible S src qs

namespace Yields

theorem pure {a : α} (h : P a) : Yields S P (pure a) := by
  intro src ps b qs hps hr
  cases hr
  exact ⟨h, hps⟩

theorem bind {r : Reader α} {f : α → Reader β} (hr : Yields S P r)
    (hf : ∀ a, P a → Yields S R (f a)) : Yields S R (r >>= f) := by
  intro src ps b qs hps h
  obtain ⟨a, qs', hfirst, hrest⟩ := Grammar.bind_eq_ok h
  obtain ⟨ha, hqs'⟩ := hr hps hfirst
  exact hf a ha hqs' hrest

theorem imp {r : Reader α} (h : Yields S P r) (himp : ∀ a, P a → Q a) : Yields S Q r := by
  intro src ps a qs hps hr
  exact (h hps hr).imp_left (himp a)

theorem failAt {position : Nat} {cause : SyntaxCause} :
    Yields S P (failAt position cause) := by
  intro src ps a qs hps hr
  cases hr

theorem fail {cause : SyntaxCause} : Yields S P (fail cause) := by
  intro src ps a qs hps hr
  exact absurd hr Grammar.fail_ne_ok

/-- What only looks leaves the text as it is. -/
theorem look {g : Source → List PlacedToken → α} (h : ∀ src ps, Legible S src ps → P (g src ps)) :
    Yields S P fun src ps => .ok (g src ps, ps) := by
  intro src ps a qs hps hr
  cases hr
  exact ⟨h src ps hps, hps⟩

theorem peek : Yields S (fun next => ∀ t, next = some t → t.Formed) peek? := by
  apply look (g := fun _ ps => ps.head?.map (·.token))
  intro src ps hps t ht
  obtain ⟨p, hp, rfl⟩ := Option.map_eq_some_iff.mp ht
  exact hps.formed p (List.mem_of_head? hp)

theorem remaining : Yields S (fun _ => True) remaining :=
  look (g := fun _ ps => ps.length) fun _ _ _ => trivial

theorem position : Yields S (fun _ => True) position := by
  intro src ps a qs hps hr
  cases ps with
  | nil =>
    cases hr
    exact ⟨trivial, hps⟩
  | cons p ps =>
    cases hr
    exact ⟨trivial, hps⟩

theorem shown : Yields S (fun _ => True) shown :=
  look (g := fun _ ps => ((ps.head?.map (·.token)).map Token.display).getD Token.displayEnd)
    fun _ _ _ => trivial

theorem read : Yields S (fun src => src.scope = S) read :=
  look (g := fun src _ => src) fun _ _ hps => hps.scope

theorem lift {x : Except StaticFault α} : Yields S (fun a => x = .ok a) (lift x) := by
  cases x with
  | error f => exact fail
  | ok a => exact pure rfl

theorem advance : Yields S (fun _ => True) advance := by
  intro src ps a qs hps hr
  have hcheck : checkReadable src ps.tail = .ok (a, qs) := hr
  obtain ⟨rfl, hends⟩ := checkReadable_eq_ok hcheck
  exact ⟨trivial, hps.scope, fun p hp => hps.formed p (List.mem_of_mem_tail hp), hends⟩

theorem take {t : Token} : Yields S (fun _ => True) (take t) := by
  apply peek.bind
  intro next _
  split
  · exact advance
  · exact shown.bind fun _ _ => fail

theorem resolve {text : String} :
    Yields S (fun n => S.makeName text = .ok n) (resolve text) := by
  apply read.bind
  rintro src rfl
  exact lift

end Yields

end Reader

namespace Spelling

variable {S : Scope}

/-- A spelling that a scope resolves, of everything that has one. -/
noncomputable def chosen (S : Scope) : Spelling where
  name n := Classical.epsilon fun text => S.Names text n
  «variable» b := Classical.epsilon fun text => S.Refers text b
  declared uri := Classical.epsilon fun text => S.Declares text uri
  function n := Classical.epsilon fun text => ∃ uri, S.CallsAs text n uri true
  digits n := Classical.epsilon fun text => Number.Denoted text n

theorem chosen_names {text : String} {n : ExpandedName} (h : S.Names text n) :
    (chosen S).Names S n :=
  Classical.epsilon_spec (p := fun text => S.Names text n) ⟨text, h⟩

theorem chosen_refers {text : String} {b : Binding} (h : S.Refers text b) :
    (chosen S).Refers S b :=
  Classical.epsilon_spec (p := fun text => S.Refers text b) ⟨text, h⟩

theorem chosen_declares {text uri : String} (h : S.Declares text uri) :
    (chosen S).Declares S uri :=
  Classical.epsilon_spec (p := fun text => S.Declares text uri) ⟨text, h⟩

theorem chosen_calls {text uri : String} {n : ExpandedName} (h : S.CallsAs text n uri true) :
    ∃ uri, S.CallsAs ((chosen S).function n) n uri true :=
  Classical.epsilon_spec (p := fun text => ∃ uri, S.CallsAs text n uri true) ⟨text, uri, h⟩

theorem chosen_denotes {text : String} {n : Number} (h : Number.Denoted text n) :
    (chosen S).Denotes n :=
  Classical.epsilon_spec (p := fun text => Number.Denoted text n) ⟨text, h⟩

end Spelling

namespace Grammar

open Reader Expr

/-- An expression of the grammar in a scope, however it is spelled. -/
def Produced (S : Scope) (e : Expr) : Prop := e.Grammatical S (.chosen S)

variable {S : Scope}

theorem producedAll {es : List Expr} (h : ∀ e ∈ es, Produced S e) :
    GrammaticalAll S (.chosen S) es := by
  induction es with
  | nil => trivial
  | cons e es ih => exact ⟨h e (.head _), ih fun e he => h e (.tail _ he)⟩

theorem requireNodeSet_yields (e : Expr) (construct : String) :
    Yields S (fun _ => e.MayBeNodes) (requireNodeSet e construct) := by
  rw [requireNodeSet]
  split
  · next h => exact Yields.pure (.inl h)
  · next h => exact Yields.pure (.inr h)
  · exact Yields.fail

theorem kindTest_yields (kind : String) (along : Axis) :
    Yields S (fun test => along.meetsContent = true → test.Grammatical S (.chosen S) along)
      (kindTest kind) := by
  rw [kindTest.eq_def]
  split
  · exact Yields.pure fun _ => trivial
  · exact Yields.pure fun h => .inr ⟨h, .inl rfl⟩
  · exact Yields.pure fun h => .inr ⟨h, .inr (.inl rfl)⟩
  · apply Yields.peek.bind
    intro next _
    split
    · apply Yields.advance.bind
      intro _ _
      apply Yields.pure
      intro h
      split
      · next hname => exact .inr ⟨h, rfl, rfl, hname⟩
      · trivial
    · exact Yields.pure fun h => .inr ⟨h, .inr (.inr rfl)⟩

theorem lies_of_not_meetsContent {along : Axis} (h : along.meetsContent = false) :
    (along == .attribute || along == .namespaces) = true := by
  cases along <;> first | rfl | cases h

theorem nodeTest_yields (along : Axis) :
    Yields S (fun test => test.Grammatical S (.chosen S) along) (nodeTest along) := by
  apply Yields.peek.bind
  intro next hnext
  split
  · next text =>
    apply Yields.resolve.bind
    intro n hn
    apply Yields.advance.bind
    intro _ _
    exact Yields.pure (.inl ⟨rfl, Spelling.chosen_names ⟨hnext _ rfl, hn⟩⟩)
  · next declared =>
    apply Yields.read.bind
    rintro src rfl
    apply Yields.lift.bind
    intro uri huri
    apply Yields.advance.bind
    intro _ _
    exact Yields.pure ⟨rfl, Spelling.chosen_declares ⟨hnext _ rfl, huri⟩⟩
  · apply Yields.advance.bind
    intro _ _
    exact Yields.pure (.inl rfl)
  · next kind =>
    apply Yields.advance.bind
    intro _ _
    apply (kindTest_yields kind along).bind
    intro test htest
    apply Yields.take.bind
    intro _ _
    apply Yields.pure
    split
    · trivial
    · next houtside =>
      cases hmeets : along.meetsContent with
      | true => exact htest hmeets
      | false =>
        rw [lies_of_not_meetsContent hmeets, Bool.and_true, Bool.not_eq_true,
          bne_eq_false_iff_eq] at houtside
        rw [houtside]
        trivial
  · exact Yields.shown.bind fun _ _ => Yields.fail

theorem stepAxis_yields : Yields S (fun _ => True) stepAxis := by
  have hat : Yields S (fun _ => True) atNodeTest :=
    Yields.peek.bind fun _ _ => Yields.pure trivial
  apply Yields.peek.bind
  intro next _
  split
  · apply Yields.advance.bind
    intro _ _
    apply hat.bind
    intro b _
    cases b with
    | true => exact Yields.pure trivial
    | false => exact Yields.fail.bind (P := fun _ => True) fun _ _ => Yields.pure trivial
  · apply Yields.advance.bind
    intro _ _
    apply hat.bind
    intro b _
    cases b with
    | true => exact Yields.pure trivial
    | false =>
      apply Yields.shown.bind
      intro _ _
      exact Yields.fail.bind (P := fun _ => True) fun _ _ => Yields.pure trivial
  · apply hat.bind
    intro b _
    cases b with
    | true => exact Yields.pure trivial
    | false =>
      apply Yields.shown.bind
      intro _ _
      exact Yields.fail.bind (P := fun _ => True) fun _ _ => Yields.pure trivial

theorem throughDescendants_produced {e : Expr} (he : Produced S e) (hnodes : e.MayBeNodes) :
    Produced S (throughDescendants e) ∧ (throughDescendants e).MayBeNodes :=
  ⟨⟨he, hnodes, trivial, trivial⟩, .inl rfl⟩

/-- A call without a prefix is one of a system function. -/
theorem systemCall_yields {name : String} {args : List Expr} {position : Nat}
    (hargs : ∀ e ∈ args, Produced S e) :
    Yields S (Produced S) (systemCall name args position) := by
  rw [systemCall]
  split
  · exact Yields.failAt
  · next f hf =>
    have hcore : f.isSetFunction = false := by
      have hmem := List.mem_of_find?_eq_some hf
      revert hmem
      cases f <;> first | exact fun _ => rfl | (intro hmem; simp [SystemFunction.core] at hmem)
    cases harity : f.arityFault? args.length with
    | some fault => exact Yields.failAt.bind (P := fun _ => False) fun _ h => h.elim
    | none =>
      by_cases hcurrent : f = .current
      · rw [if_pos hcurrent]
        exact Yields.pure trivial
      · rw [if_neg hcurrent]
        apply Yields.read.bind
        rintro src rfl
        dsimp only
        split
        · exact Yields.failAt.bind (P := fun _ => False) fun _ h => h.elim
        · next hkey =>
          refine Yields.pure ⟨rfl, rfl, hcurrent, harity, fun h => ?_, ?_, producedAll hargs⟩
          · simpa [h] using hkey
          · intro hset
            rw [hcore] at hset
            cases hset

theorem requireNodeSets_yields (construct : String) (es : List Expr) :
    Yields S (fun _ => ∀ e ∈ es, e.MayBeNodes) (requireNodeSets construct es) := by
  induction es with
  | nil => exact Yields.pure (List.forall_mem_nil _)
  | cons e es ih =>
    apply (requireNodeSet_yields e construct).bind
    intro _ he
    exact ih.imp fun _ hes => List.forall_mem_cons.mpr ⟨he, hes⟩

theorem distinctCall_yields (hset : (Spelling.chosen S).Declares S Name.setsNamespace)
    {args : List Expr} {position : Nat} (hargs : ∀ e ∈ args, Produced S e) :
    Yields S (Produced S) (distinctCall args position) := by
  rw [distinctCall.eq_def]
  split
  · next base =>
    apply (requireNodeSet_yields base _).bind
    intro _ hnodes
    exact Yields.pure ⟨hset, hargs base (.head _), hnodes⟩
  · next base key =>
    apply (requireNodeSet_yields base _).bind
    intro _ hnodes
    exact Yields.pure ⟨hset, ⟨hargs base (.head _), hnodes⟩, hargs key (.tail _ (.head _))⟩
  · exact Yields.failAt

/-- A call with the prefix of the set functions. -/
theorem setCall_yields (hset : (Spelling.chosen S).Declares S Name.setsNamespace)
    {name : String} {args : List Expr} {position : Nat} (hargs : ∀ e ∈ args, Produced S e) :
    Yields S (Produced S) (setCall name args position) := by
  rw [setCall]
  split
  · next op hop =>
    apply (requireNodeSets_yields _ args).bind
    intro _ hnodes
    split
    · next l r =>
      have hl := hargs l (.head _)
      have hr := hargs r (.tail _ (.head _))
      exact Yields.pure ⟨.inr hset, ⟨hl, hnodes l (.head _)⟩, hr, hnodes r (.tail _ (.head _))⟩
    · exact Yields.failAt
  · split
    · exact distinctCall_yields hset hargs
    · split
      · exact Yields.failAt
      · next f hf =>
        have hne : f ≠ .current ∧ f ≠ .key := by
          have hmem := List.mem_of_find?_eq_some hf
          constructor
          · rintro rfl
            simp [SystemFunction.setFunctions] at hmem
          · rintro rfl
            simp [SystemFunction.setFunctions] at hmem
        cases harity : f.arityFault? args.length with
        | some fault => exact Yields.failAt.bind (P := fun _ => False) fun _ h => h.elim
        | none =>
          apply Yields.read.bind
          rintro src rfl
          exact Yields.pure ⟨rfl, rfl, hne.1, harity, fun h => absurd h hne.2, fun _ => hset,
            producedAll hargs⟩

/-- A call with a prefix. -/
theorem namespaceCall_yields {name declared localName : String} {args : List Expr}
    {position : Nat} (hname : name = declared ++ ":" ++ localName)
    (hd : IsSimpleName declared.toList) (hl : IsSimpleName localName.toList)
    (hargs : ∀ e ∈ args, Produced S e) :
    Yields S (Produced S) (namespaceCall name declared localName args position) := by
  apply Yields.read.bind
  rintro src rfl
  dsimp only
  split
  · exact Yields.failAt
  · next uri huri =>
    split
    · next hset =>
      subst hset
      exact setCall_yields (Spelling.chosen_declares ⟨hd, huri⟩) hargs
    · next hne =>
      split
      · next havailable =>
        have hcalls : src.scope.CallsAs name (.make (some uri) localName) uri true :=
          ⟨declared, localName, hname, hd, hl, huri, hne, rfl, havailable⟩
        exact Yields.pure ⟨Spelling.chosen_calls hcalls, producedAll hargs⟩
      · next havailable =>
        exact Yields.pure ⟨name, .make (some uri) localName, uri, rfl, declared, localName, hname,
          hd, hl, huri, hne, rfl, by simpa using havailable⟩

theorem callOf_yields {name : String} {args : List Expr} {position : Nat}
    (hname : IsName name.toList) (hargs : ∀ e ∈ args, Produced S e) :
    Yields S (Produced S) (callOf name args position) := by
  rcases hname with hsimple | ⟨declared, localName, heq, hd, hl⟩
  · rw [callOf_unqualified hsimple]
    exact systemCall_yields hargs
  · obtain rfl : name = String.ofList declared ++ ":" ++ String.ofList localName := by
      rw [← String.toList_inj, heq]
      simp
    rw [← String.toList_ofList (l := declared)] at hd
    rw [← String.toList_ofList (l := localName)] at hl
    rw [callOf_qualified hd]
    exact namespaceCall_yields rfl hd hl hargs

theorem variableReference_yields : Yields S (Produced S) variableReference := by
  have hname : Yields S (fun text => IsName text.toList) Reader.name := by
    apply Yields.peek.bind
    intro next hnext
    split
    · exact Yields.pure (hnext _ rfl)
    · exact Yields.shown.bind fun _ _ => Yields.fail
  apply hname.bind
  intro text htext
  apply Yields.resolve.bind
  intro n hn
  apply Yields.read.bind
  rintro src rfl
  apply Yields.lift.bind
  intro b hb
  apply Yields.advance.bind
  intro _ _
  exact Yields.pure (Spelling.chosen_refers ⟨htext, n, hn, hb⟩)

section nested

variable {nested : Reader Expr} (hnested : Yields S (Produced S) nested)
include hnested

theorem bracketed_yields :
    Yields S (fun es => ∀ e ∈ es, Produced S e) (bracketed nested) := by
  have hupto (n : Nat) :
      Yields S (fun es => ∀ e ∈ es, Produced S e) (bracketedUpTo nested n) := by
    induction n with
    | zero => exact Yields.pure (List.forall_mem_nil _)
    | succ n ih =>
      apply Yields.peek.bind
      intro next _
      split
      · apply Yields.advance.bind
        intro _ _
        apply hnested.bind
        intro e he
        apply Yields.take.bind
        intro _ _
        apply ih.bind
        intro es hes
        exact Yields.pure (List.forall_mem_cons.mpr ⟨he, hes⟩)
      · exact Yields.pure (List.forall_mem_nil _)
  exact Yields.remaining.bind fun n _ => hupto n

/-- What a step makes of nodes. -/
theorem step_yields :
    Yields S (fun f => ∀ e, Produced S e → e.MayBeNodes → Produced S (f e) ∧ (f e).MayBeNodes)
      (step nested) := by
  apply Yields.peek.bind
  intro next _
  split
  · apply Yields.advance.bind
    intro _ _
    exact Yields.pure fun e he hnodes => ⟨⟨he, hnodes, trivial, trivial⟩, .inl rfl⟩
  · apply Yields.advance.bind
    intro _ _
    exact Yields.pure fun e he hnodes => ⟨⟨he, hnodes, trivial, trivial⟩, .inl rfl⟩
  · apply stepAxis_yields.bind
    intro along _
    apply (nodeTest_yields along).bind
    intro test htest
    apply (bracketed_yields hnested).bind
    intro predicates hpredicates
    exact Yields.pure fun e he hnodes =>
      ⟨⟨he, hnodes, htest, producedAll hpredicates⟩, .inl rfl⟩

theorem steps_yields {e : Expr} (he : Produced S e) (hnodes : e.MayBeNodes) :
    Yields S (Produced S) (steps nested e) := by
  have hupto (n : Nat) (e : Expr) (he : Produced S e) (hnodes : e.MayBeNodes) :
      Yields S (Produced S) (stepsUpTo nested n e) := by
    induction n generalizing e with
    | zero => exact Yields.pure he
    | succ n ih =>
      apply Yields.peek.bind
      intro next _
      split
      · apply Yields.advance.bind
        intro _ _
        apply (step_yields hnested).bind
        intro f hf
        obtain ⟨hfe, hfnodes⟩ := hf e he hnodes
        exact ih _ hfe hfnodes
      · apply Yields.advance.bind
        intro _ _
        apply (step_yields hnested).bind
        intro f hf
        obtain ⟨hthrough, hthroughNodes⟩ := throughDescendants_produced he hnodes
        obtain ⟨hfe, hfnodes⟩ := hf _ hthrough hthroughNodes
        exact ih _ hfe hfnodes
      · exact Yields.pure he
  exact Yields.remaining.bind fun n _ => hupto n e he hnodes

theorem arguments_yields : Yields S (fun es => ∀ e ∈ es, Produced S e) (arguments nested) := by
  have hupto (n : Nat) :
      Yields S (fun es => ∀ e ∈ es, Produced S e) (argumentsUpTo nested n) := by
    induction n with
    | zero => exact Yields.pure (List.forall_mem_nil _)
    | succ n ih =>
      apply Yields.peek.bind
      intro next _
      split
      · apply Yields.advance.bind
        intro _ _
        apply hnested.bind
        intro e he
        apply ih.bind
        intro es hes
        exact Yields.pure (List.forall_mem_cons.mpr ⟨he, hes⟩)
      · exact Yields.pure (List.forall_mem_nil _)
  apply Yields.peek.bind
  intro next _
  split
  · apply Yields.advance.bind
    intro _ _
    exact Yields.pure (List.forall_mem_nil _)
  · apply hnested.bind
    intro first hfirst
    apply Yields.remaining.bind
    intro n _
    apply (hupto n).bind
    intro more hmore
    apply Yields.take.bind
    intro _ _
    exact Yields.pure (List.forall_mem_cons.mpr ⟨hfirst, hmore⟩)

theorem functionCall_yields {name : String} (hname : IsName name.toList) :
    Yields S (Produced S) (functionCall nested name) := by
  apply Yields.position.bind
  intro position _
  apply Yields.advance.bind
  intro _ _
  apply (arguments_yields hnested).bind
  intro args hargs
  exact callOf_yields hname hargs

theorem primary_yields : Yields S (Produced S) (primary nested) := by
  apply Yields.peek.bind
  intro next hnext
  split
  · apply Yields.advance.bind
    intro _ _
    exact variableReference_yields
  · apply Yields.advance.bind
    intro _ _
    apply hnested.bind
    intro e he
    apply Yields.take.bind
    intro _ _
    exact Yields.pure he
  · next s =>
    apply Yields.advance.bind
    intro _ _
    exact Yields.pure (hnext (.literal s) rfl)
  · next digits =>
    apply Yields.advance.bind
    intro _ _
    exact Yields.pure (Spelling.chosen_denotes ⟨hnext (.number digits) rfl, rfl⟩)
  · next name => exact functionCall_yields hnested (hnext (.function name) rfl)
  · exact Yields.shown.bind fun _ _ => Yields.fail

theorem filtered_yields : Yields S (Produced S) (filtered nested) := by
  have hupto (n : Nat) (e : Expr) (he : Produced S e) :
      Yields S (Produced S) (filtersUpTo nested n e) := by
    induction n generalizing e with
    | zero => exact Yields.pure he
    | succ n ih =>
      apply Yields.peek.bind
      intro next _
      split
      · apply (requireNodeSet_yields e _).bind
        intro _ hnodes
        apply Yields.advance.bind
        intro _ _
        apply hnested.bind
        intro predicate hpredicate
        apply Yields.take.bind
        intro _ _
        exact ih _ ⟨he, hnodes, hpredicate⟩
      · exact Yields.pure he
  apply (primary_yields hnested).bind
  intro e he
  exact Yields.remaining.bind fun n _ => hupto n e he

theorem path_yields : Yields S (Produced S) (path nested) := by
  have hroot : Produced S .root ∧ Expr.root.MayBeNodes := ⟨trivial, .inl rfl⟩
  have hcontext : Produced S .contextNode ∧ Expr.contextNode.MayBeNodes := ⟨trivial, .inl rfl⟩
  have hparent : Produced S .parentNode ∧ Expr.parentNode.MayBeNodes := ⟨trivial, .inl rfl⟩
  -- a first step, and the steps behind it
  have hfirst (start : Expr) (h : Produced S start ∧ start.MayBeNodes) :
      Yields S (Produced S) (step nested >>= fun first => steps nested (first start)) := by
    apply (step_yields hnested).bind
    intro first hfirst
    obtain ⟨he, hnodes⟩ := hfirst start h.1 h.2
    exact steps_yields hnested he hnodes
  apply Yields.peek.bind
  intro next _
  split
  · apply Yields.advance.bind
    intro _ _
    apply Yields.peek.bind
    intro after _
    split
    · exact Yields.pure hroot.1
    · exact hfirst .root hroot
  · apply Yields.advance.bind
    intro _ _
    exact hfirst _ (throughDescendants_produced hroot.1 hroot.2)
  · apply Yields.advance.bind
    intro _ _
    exact steps_yields hnested hcontext.1 hcontext.2
  · apply Yields.advance.bind
    intro _ _
    exact steps_yields hnested hparent.1 hparent.2
  · split
    · exact hfirst .contextNode hcontext
    · apply (filtered_yields hnested).bind
      intro e he
      apply Yields.peek.bind
      intro after _
      split
      · apply (requireNodeSet_yields e _).bind
        intro _ hnodes
        exact steps_yields hnested he hnodes
      · apply (requireNodeSet_yields e _).bind
        intro _ hnodes
        exact steps_yields hnested he hnodes
      · exact Yields.pure he

theorem union_yields : Yields S (Produced S) (union nested) := by
  have hupto (n : Nat) (e : Expr) (he : Produced S e) :
      Yields S (Produced S) (unionUpTo (path nested) n e) := by
    induction n generalizing e with
    | zero => exact Yields.pure he
    | succ n ih =>
      apply Yields.peek.bind
      intro next _
      split
      · apply (requireNodeSet_yields e _).bind
        intro _ hnodes
        apply Yields.advance.bind
        intro _ _
        apply (path_yields hnested).bind
        intro r hr
        apply (requireNodeSet_yields r _).bind
        intro _ hrnodes
        exact ih _ ⟨.inl rfl, ⟨he, hnodes⟩, hr, hrnodes⟩
      · exact Yields.pure he
  apply (path_yields hnested).bind
  intro e he
  exact Yields.remaining.bind fun n _ => hupto n e he

theorem unary_yields : Yields S (Produced S) (unary nested) := by
  have hupto (n : Nat) : Yields S (Produced S) (unaryUpTo (union nested) n) := by
    induction n with
    | zero => exact union_yields hnested
    | succ n ih =>
      apply Yields.peek.bind
      intro next _
      split
      · apply Yields.advance.bind
        intro _ _
        apply ih.bind
        intro e he
        exact Yields.pure (S := S) (P := Produced S) (a := .negate e) he
      · exact union_yields hnested
  exact Yields.remaining.bind fun n _ => hupto n

end nested

/-- Operands joined by operators that make expressions of the grammar of such. -/
theorem chain_yields {operator? : Token → Option (Expr → Expr → Expr)} {operand : Reader Expr}
    (hmake : ∀ t make, operator? t = some make →
      ∀ l r, Produced S l → Produced S r → Produced S (make l r))
    (h : Yields S (Produced S) operand) : Yields S (Produced S) (chain operator? operand) := by
  have hupto (n : Nat) (e : Expr) (he : Produced S e) :
      Yields S (Produced S) (chainUpTo operator? operand n e) := by
    induction n generalizing e with
    | zero => exact Yields.pure he
    | succ n ih =>
      apply Yields.peek.bind
      intro next _
      split
      · exact Yields.pure he
      · next make hoperator =>
        obtain ⟨t, -, ht⟩ := Option.bind_eq_some_iff.mp hoperator
        apply Yields.advance.bind
        intro _ _
        apply h.bind
        intro r hr
        exact ih _ (hmake t make ht e r he hr)
  apply h.bind
  intro e he
  exact Yields.remaining.bind fun n _ => hupto n e he

/-- The operators make logical expressions, comparisons and arithmetic ones. -/
theorem operators_make {operator? : Token → Option (Expr → Expr → Expr)} {t : Token}
    {make : Expr → Expr → Expr} (h : operator? ∈ operators) (hmake : operator? t = some make) :
    (∃ op, make = .logical op) ∨ (∃ op, make = .compare op) ∨ ∃ op, make = .arithmetic op := by
  simp only [operators, List.mem_cons, List.not_mem_nil, or_false] at h
  cases t with
  | logical op =>
    rcases h with rfl | rfl | rfl | rfl | rfl | rfl <;> cases op <;>
      first | exact .inl ⟨_, (Option.some.inj hmake).symm⟩ | cases hmake
  | comparison op =>
    rcases h with rfl | rfl | rfl | rfl | rfl | rfl <;> cases op <;>
      first | exact .inr (.inl ⟨_, (Option.some.inj hmake).symm⟩) | cases hmake
  | arithmetic op =>
    rcases h with rfl | rfl | rfl | rfl | rfl | rfl <;> cases op <;>
      first | exact .inr (.inr ⟨_, (Option.some.inj hmake).symm⟩) | cases hmake
  | _ => rcases h with rfl | rfl | rfl | rfl | rfl | rfl <;> cases hmake

theorem chained_yields {nested : Reader Expr} (hnested : Yields S (Produced S) nested)
    (ops : List (Token → Option (Expr → Expr → Expr))) (hops : ∀ o ∈ ops, o ∈ operators) :
    Yields S (Produced S) (chained nested ops) := by
  induction ops with
  | nil => exact unary_yields hnested
  | cons operator? ops ih =>
    apply chain_yields _ (ih fun o ho => hops o (.tail _ ho))
    intro t make hmake l r hl hr
    rcases operators_make (hops operator? (.head _)) hmake with ⟨op, rfl⟩ | ⟨op, rfl⟩ | ⟨op, rfl⟩
    · exact ⟨hl, hr⟩
    · exact ⟨hl, hr⟩
    · exact ⟨hl, hr⟩

theorem exprUpTo_yields (n : Nat) : Yields S (Produced S) (exprUpTo n) := by
  induction n with
  | zero => exact Yields.shown.bind fun _ _ => Yields.fail
  | succ n ih => exact chained_yields ih operators fun _ h => h

theorem expr_yields : Yields S (Produced S) expr :=
  Yields.remaining.bind fun n _ => exprUpTo_yields (n + 1)

end Grammar

namespace Expr

open Grammar Reader

/-- A text that can be read has tokens up to its end, and what is read is of the grammar. -/
theorem read_produced {S : Scope} {text : String} {e : Expr} (h : read S text = .ok e) :
    (TokenList.ofText text).fault = none ∧ Produced S e := by
  obtain ⟨hstart, qs, hexpr, hends⟩ := run_eq_ok h
  have hlegible : Legible S ⟨text, S, (TokenList.ofText text).fault⟩
      (TokenList.ofText text).tokens := ⟨rfl, TokenList.ofChars_formed, hstart⟩
  obtain ⟨he, hqs⟩ := expr_yields hlegible hexpr
  exact ⟨hqs.ends hends, he⟩

end Expr

end PathLanguage
