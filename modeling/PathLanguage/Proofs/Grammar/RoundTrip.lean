/- Round trip: the text of an expression is read as that expression, with operators of one strength
grouped from the left and parentheses only where they are needed. -/
import PathLanguage.Expr.Parse
import PathLanguage.Proofs.Grammar.Operand

namespace PathLanguage

namespace Grammar

open Reader Expr

/-- What may follow an expression at a level: nothing that goes on with it at a stronger one, and a
step only behind nodes. -/
structure Follows (ℓ : Nat) (e : Expr) (rest : List Token) : Prop where
  stops : Stops (ℓ + 1) rest
  nodes : rest.head? = some .slash ∨ rest.head? = some .doubleSlash → e.MayBeNodes

/-- From the tokens of an expression, its level comes to that expression and goes on with what
follows; every nesting of the expression takes a token. -/
def Restores (S : Scope) (w : Spelling) (e : Expr) : Prop :=
  ∀ ⦃src : Source⦄ ⦃rest : List Token⦄ ⦃n : Nat⦄, Reads S src → (e.bare w).length ≤ n →
    Follows e.level e rest →
    Resumes src (readerAt (exprUpTo n) e.level) (loopAt (exprUpTo n) e.level) (e.bare w) e rest

variable {S : Scope} {w : Spelling} {src : Source} {rest : List Token} {e l r : Expr}
  {ℓ n : Nat}

theorem Stops.follows (h : Stops (ℓ + 1) rest) (hℓ : ℓ < 8) : Follows ℓ e rest where
  stops := h
  nodes := by
    rintro (hr | hr)
    · exact absurd (h _ 8 hr rfl) (by omega)
    · exact absurd (h _ 8 hr rfl) (by omega)

/-- No token joins operands at the level of minus signs. -/
theorem stops_six (h : Stops 7 rest) : Stops 6 rest := by
  intro t k ht hk
  have hlt := h t k ht hk
  have hne : k ≠ 6 := by
    rintro rfl
    cases t with
    | logical op | comparison op | arithmetic op => cases op <;> cases hk
    | _ => cases hk
  omega

theorem level_le (e : Expr) : e.level ≤ 10 := by
  unfold Expr.level
  split
  · next op _ _ => cases op <;> decide
  · next op _ _ => cases op <;> decide
  · next op _ _ => cases op <;> decide
  all_goals decide

/-- What stands on its own is a primary expression. -/
theorem restores_of_primary (hlevel : e.level = 10)
    (h : ∀ {src : Source} {rest : List Token} {n : Nat}, Reads S src → (e.bare w).length ≤ n →
      Takes src (primary (exprUpTo n)) (e.bare w) e rest) : Restores S w e := by
  intro src rest n hsrc hn _ ps hps
  obtain ⟨qs, hr, hqs⟩ := h hsrc hn ps hps
  rw [hlevel]
  exact ⟨rest.length, qs, hr, hqs, Nat.le_refl _⟩

theorem length_predicateTokens {predicates : List Expr} (h : e ∈ predicates) :
    (e.bare w).length + 2 ≤ (predicateTokens (bareAll w predicates)).length := by
  induction h with
  | head es =>
    simp only [predicateTokens, bareAll, List.flatMap_cons, List.length_append, List.length_cons]
    omega
  | tail a h ih =>
    simp only [predicateTokens, bareAll, List.flatMap_cons, List.length_append] at ih ⊢
    omega

theorem length_argumentTokens {args : List Expr} (h : e ∈ args) :
    (e.bare w).length + 1 ≤ (argumentTokens (bareAll w args)).length := by
  have hmore {es : List Expr} (h : e ∈ es) :
      (e.bare w).length ≤ (moreTokens (bareAll w es)).length := by
    induction h with
    | head es =>
      simp only [moreTokens, bareAll, List.flatMap_cons, List.length_append, List.length_cons]
      omega
    | tail a h ih =>
      simp only [moreTokens, bareAll, List.flatMap_cons, List.length_append] at ih ⊢
      omega
  cases h with
  | head es =>
    simp only [bareAll, argumentTokens, List.length_append, List.length_singleton]
    omega
  | tail a h =>
    have hlength := hmore h
    simp only [bareAll, argumentTokens, List.length_append, List.length_singleton]
    omega

/-- Tokens begin with one that may begin an expression. -/
def Begins (ts : List Token) : Prop := ∃ t more, ts = t :: more ∧ t ≠ .closeParen

theorem Begins.append {ts : List Token} (h : Begins ts) (us : List Token) : Begins (ts ++ us) := by
  obtain ⟨t, more, rfl, hne⟩ := h
  exact ⟨t, more ++ us, rfl, hne⟩

theorem Begins.enclosed {ts : List Token} {wanted strength : Nat} (h : Begins ts) :
    Begins (Expr.enclosed wanted strength ts) := by
  rw [Expr.enclosed]
  split
  · exact h
  · exact ⟨.openParen, _, rfl, by decide⟩

mutual

theorem begins : ∀ {e : Expr}, e.Grammatical S w → Begins (e.bare w)
  | .value (.string _), _ | .value (.number _), _ | .root, _ | .contextNode, _ | .parentNode, _
  | .currentNode, _ | .set .intersect _ _, _ | .set .except _ _, _ | .distinct _, _
  | .distinctBy _ _, _ | .negate _, _ | .extension _ _, _ | .reference _, _ =>
    ⟨_, _, rfl, nofun⟩
  | .failure _, ⟨_, _, _, rfl, _⟩ => ⟨_, _, rfl, nofun⟩
  | .call f args _ _, _ => by
    refine ⟨_, _, rfl, ?_⟩
    rw [systemFunction]
    split
    · nofun
    · nofun
  | .path start along test predicates, ⟨hstart, _⟩ => by
    have htokens : Begins (startTokens start (Expr.enclosed 8 start.level (start.bare w)) ++
        [.axis along]) := by
      cases start with
      | root => exact ⟨_, _, rfl, nofun⟩
      | contextNode => exact ⟨_, _, rfl, nofun⟩
      | _ => exact ((begins hstart).enclosed.append _).append _
    have hsplit := htokens.append (test.tokens w along ++ predicateTokens (bareAll w predicates))
    simpa [Expr.bare] using hsplit
  | .filter _ _, ⟨h, _⟩ | .set .union _ _, ⟨_, ⟨h, _⟩, _⟩ | .logical _ _ _, ⟨h, _⟩
  | .compare _ _ _, ⟨h, _⟩ | .arithmetic _ _ _, ⟨h, _⟩ => (begins h).enclosed.append _

theorem beginsAll : ∀ {es : List Expr}, GrammaticalAll S w es → ∀ e ∈ es, Begins (e.bare w)
  | [], _ => nofun
  | _ :: _, ⟨h, hs⟩ => List.forall_mem_cons.mpr ⟨begins h, beginsAll hs⟩

end

namespace Restores

/-- An expression inside brackets or parentheses. -/
theorem nested (h : Restores S w e) (hsrc : Reads S src) (hn : (e.bare w).length < n)
    (hstops : Stops 0 rest) : Takes src (exprUpTo n) (e.bare w) e rest := by
  cases n with
  | zero => exact absurd hn (Nat.not_lt_zero _)
  | succ n =>
    have hfollows : Follows e.level e rest :=
      ⟨hstops.mono (Nat.zero_le _), by
        rintro (hr | hr)
        · exact absurd (hstops _ 8 hr rfl) (Nat.not_lt_zero _)
        · exact absurd (hstops _ 8 hr rfl) (Nat.not_lt_zero _)⟩
    have hlevel := h hsrc (Nat.le_of_lt_succ hn) hfollows
    have hloosest := Resumes.descend hlevel (level_le e) (Nat.zero_le _)
      (hstops.mono (Nat.zero_le _)) hfollows.nodes
    exact Resumes.stops hloosest hstops

/-- An expression at a level, in parentheses where it binds more loosely. -/
theorem enclosed {k : List Token} (h : Restores S w e) (hsrc : Reads S src) (hℓ : ℓ ≤ 10)
    (hn : (Expr.enclosed ℓ e.level (e.bare w)).length ≤ n) (hfollows : Follows ℓ e k) :
    Resumes src (readerAt (exprUpTo n) ℓ) (loopAt (exprUpTo n) ℓ)
      (Expr.enclosed ℓ e.level (e.bare w)) e k := by
  rw [Expr.enclosed] at hn ⊢
  split at hn
  · next hle =>
    rw [if_pos hle]
    have hlevel := h hsrc hn
      ⟨hfollows.stops.mono (Nat.succ_le_succ hle), hfollows.nodes⟩
    exact Resumes.descend hlevel (level_le e) hle hfollows.stops hfollows.nodes
  · next hle =>
    rw [if_neg hle]
    have hlength : (e.bare w).length < n := by simp at hn; omega
    have hclose : Stops 0 (.closeParen :: k) := by
      rintro t j ht hj
      obtain rfl := Option.some.inj ht
      cases hj
    have hprimary : Takes src (primary (exprUpTo n)) (.openParen :: e.bare w ++ [.closeParen]) e
        k := by
      apply Takes.peek
      apply Takes.advance hsrc.whole
      apply Takes.bind (h.nested hsrc hlength hclose)
      apply Takes.take hsrc.whole
      exact Takes.pure
    have htop : Resumes src (readerAt (exprUpTo n) 10) (loopAt (exprUpTo n) 10)
        (.openParen :: e.bare w ++ [.closeParen]) e k := by
      intro ps hps
      obtain ⟨qs, hr, hqs⟩ := hprimary ps hps
      exact ⟨k.length, qs, hr, hqs, Nat.le_refl _⟩
    exact Resumes.descend htop (Nat.le_refl _) hℓ hfollows.stops hfollows.nodes

/-- Operands on both sides of an operator of some strength. -/
theorem infixed {operator? : Token → Option (Expr → Expr → Expr)} (op : Token)
    {make : Expr → Expr → Expr} (hl : Restores S w l) (hr : Restores S w r)
    (ho : operators[ℓ]? = some operator?) (hmake : operator? op = some make)
    (hlevel : (make l r).level = ℓ)
    (hbare : (make l r).bare w = infixTokens ℓ op l.level (l.bare w) r.level (r.bare w)) :
    Restores S w (make l r) := by
  intro src rest n hsrc hn hfollows
  rw [hlevel] at hfollows ⊢
  rw [hbare] at hn ⊢
  have hℓ : ℓ < 6 := (List.getElem?_eq_some_iff.mp ho).1
  have hjoins := joins_of_operator ho hmake
  obtain ⟨operator', ho', -, hloop⟩ := exists_operator hℓ
  obtain rfl : operator? = operator' := Option.some.inj (ho.symm.trans ho')
  simp only [infixTokens, List.length_append, List.length_cons] at hn
  -- the left operand is followed by the operator, which stops every stronger level
  have hop : Stops (ℓ + 1)
      (op :: Expr.enclosed (ℓ + 1) r.level (r.bare w) ++ rest) := by
    intro t k ht hk
    obtain rfl := Option.some.inj ht
    rw [hjoins] at hk
    obtain rfl := Option.some.inj hk
    exact Nat.lt_succ_self _
  have hleft := hl.enclosed (n := n) hsrc (by omega) (by omega) (hop.follows (by omega))
  have hright := hr.enclosed (k := rest) hsrc (ℓ := ℓ + 1) (n := n) (by omega) (by omega)
    ⟨hfollows.stops.mono (Nat.le_succ _), (hfollows.stops.follows (by omega)).nodes⟩
  have htakes := Resumes.stops hright hfollows.stops
  apply Resumes.step hleft
  intro limit p ps hp hps
  obtain ⟨qs, hq, hqs⟩ := htakes ps hps
  refine ⟨qs, ?_, hqs⟩
  rw [hloop, chainUpTo, run_peek]
  simp only [List.map_cons, List.head?_cons, Option.bind_some, hp, hmake]
  rw [run_bind_ok (advance_ok hsrc.whole p), run_bind_ok hq]

theorem union (hl : Restores S w l) (hr : Restores S w r) (hlnodes : l.MayBeNodes)
    (hrnodes : r.MayBeNodes) : Restores S w (.set .union l r) := by
  intro src rest n hsrc hn hfollows
  change Follows 7 _ rest at hfollows
  change (Expr.enclosed 7 l.level (l.bare w) ++
    Token.bar :: Expr.enclosed 8 r.level (r.bare w)).length ≤ n at hn
  simp only [List.length_append, List.length_cons] at hn
  have hbar : Stops 8 (.bar :: Expr.enclosed 8 r.level (r.bare w) ++ rest) := by
    intro t k ht hk
    obtain rfl := Option.some.inj ht
    obtain rfl := Option.some.inj hk
    decide
  have hleft := hl.enclosed (n := n) (ℓ := 7) hsrc (by decide) (by omega)
    (hbar.follows (by decide))
  have hright := hr.enclosed (k := rest) (n := n) (ℓ := 8) hsrc (by decide) (by omega)
    ⟨hfollows.stops.mono (by decide), fun _ => hrnodes⟩
  have htakes := Resumes.stops hright hfollows.stops
  apply Resumes.step hleft
  intro limit p ps hp hps
  obtain ⟨qs, hq, hqs⟩ := htakes ps hps
  refine ⟨qs, ?_, hqs⟩
  change unionUpTo (path (exprUpTo n)) (limit + 1) l src (p :: ps) = _
  rw [unionUpTo, run_peek, List.map_cons, List.head?_cons, hp, if_pos rfl,
    run_bind_ok (requireNodeSet_ok hlnodes _ _), run_bind_ok (advance_ok hsrc.whole p),
    run_bind_ok (r := path (exprUpTo n)) hq, run_bind_ok (requireNodeSet_ok hrnodes _ _)]
  rfl

theorem negate (h : Restores S w e) : Restores S w (.negate e) := by
  intro src rest n hsrc hn hfollows
  change Follows 6 _ rest at hfollows
  change (Token.arithmetic .minus :: Expr.enclosed 6 e.level (e.bare w)).length ≤ n at hn
  have hoperand := h.enclosed (k := rest) (n := n) (ℓ := 6) hsrc (by decide)
    (Nat.le_of_succ_le hn) (hfollows.stops.follows (by decide))
  have htakes := Resumes.stops hoperand (stops_six hfollows.stops)
  intro ps hps
  cases ps with
  | nil => cases hps
  | cons p ps =>
    obtain ⟨hp, htail⟩ : p.token = .arithmetic .minus ∧ _ := List.cons.inj hps
    obtain ⟨qs, hq, hqs⟩ := htakes ps htail
    refine ⟨rest.length, qs, ?_, hqs, Nat.le_refl _⟩
    change unary (exprUpTo n) src (p :: ps) = .ok (.negate e, qs)
    rw [unary, run_remaining, List.length_cons, unaryUpTo, run_peek, List.map_cons,
      List.head?_cons, hp, if_pos rfl, run_bind_ok (advance_ok hsrc.whole p),
      run_bind_ok (r := unaryUpTo (Grammar.union (exprUpTo n)) ps.length) hq]
    rfl

theorem filter {predicate : Expr} (h : Restores S w e) (hp : Restores S w predicate)
    (hnodes : e.MayBeNodes) : Restores S w (.filter e predicate) := by
  intro src rest n hsrc hn hfollows
  change (Expr.enclosed 9 e.level (e.bare w) ++
    (Token.openBracket :: predicate.bare w ++ [Token.closeBracket])).length ≤ n at hn
  simp only [List.length_append, List.length_cons, List.length_nil] at hn
  have hopen : Stops 10 (.openBracket :: (predicate.bare w ++ [.closeBracket]) ++ rest) := by
    intro t k ht hk
    obtain rfl := Option.some.inj ht
    obtain rfl := Option.some.inj hk
    decide
  have hclose : Stops 0 (.closeBracket :: rest) := by
    intro t k ht hk
    obtain rfl := Option.some.inj ht
    cases hk
  have hbase := h.enclosed (n := n) (ℓ := 9) hsrc (by decide) (by omega)
    ⟨hopen, fun _ => hnodes⟩
  have htakes := hp.nested (n := n) hsrc (by omega) hclose
  apply Resumes.step hbase
  intro limit p ps hp hps
  rw [List.append_assoc] at hps
  obtain ⟨qs, hq, hqs⟩ := htakes ps hps
  cases qs with
  | nil => cases hqs
  | cons q qs =>
    obtain ⟨hclosing, htail⟩ : q.token = .closeBracket ∧ _ := List.cons.inj hqs
    refine ⟨qs, ?_, htail⟩
    change filtersUpTo (exprUpTo n) (limit + 1) e src (p :: ps) = _
    rw [filtersUpTo, run_peek, List.map_cons, List.head?_cons, hp, if_pos rfl,
      run_bind_ok (requireNodeSet_ok hnodes _ _), run_bind_ok (advance_ok hsrc.whole p),
      run_bind_ok hq, ← hclosing, run_bind_ok (take_ok hsrc.whole q)]
    rfl

theorem startTokens_cases (start : Expr) (ts : List Token) :
    (start = .root ∧ startTokens start ts = [.slash]) ∨
      (start = .contextNode ∧ startTokens start ts = []) ∨
      startTokens start ts = ts ++ [.slash] := by
  cases start with
  | root => exact .inl ⟨rfl, rfl⟩
  | contextNode => exact .inr (.inl ⟨rfl, rfl⟩)
  | _ => exact .inr (.inr rfl)

/-- A path: its first step goes on from the root, from the context node or from another path. -/
theorem path {along : Axis} {test : NodeTest} {predicates : List Expr} (h : Restores S w e)
    (hnodes : e.MayBeNodes) (htest : test.Grammatical S w along)
    (hpredicates : ∀ p ∈ predicates, Restores S w p) :
    Restores S w (.path e along test predicates) := by
  intro src rest n hsrc hn hfollows
  change Follows 8 _ rest at hfollows
  let last := Token.axis along ::
    (test.tokens w along ++ predicateTokens (bareAll w predicates))
  have hbare : (Expr.path e along test predicates).bare w =
      startTokens e (Expr.enclosed 8 e.level (e.bare w)) ++ last := by
    simp [Expr.bare, last]
  rw [hbare] at hn ⊢
  rw [List.length_append] at hn
  have hlast : Takes src (step (exprUpTo n)) last
      (fun start => .path start along test predicates) rest := by
    apply step_takes hsrc htest
    · intro p hp rest' hrest'
      have hlength := length_predicateTokens (w := w) hp
      apply (hpredicates p hp).nested hsrc
      · simp only [last, List.length_cons, List.length_append] at hn
        omega
      · intro t k ht hk
        obtain rfl := Option.some.inj (hrest'.symm.trans ht)
        cases hk
    · intro hopen
      exact absurd (hfollows.stops _ 9 hopen rfl) (by decide)
  have hbegins : (last ++ rest).head?.any Token.beginsStep = true := rfl
  -- the first step, from where the tokens before it leave off
  have hfirst (start : Expr) {ps : List PlacedToken} (hps : ps.map (·.token) = last ++ rest) :
      ∃ limit qs, (step (exprUpTo n) >>= fun last => steps (exprUpTo n) (last start)) src ps =
        stepsUpTo (exprUpTo n) limit (.path start along test predicates) src qs ∧
        qs.map (·.token) = rest ∧ rest.length ≤ limit := by
    obtain ⟨qs, hq, hqs⟩ := hlast ps hps
    refine ⟨qs.length, qs, ?_, hqs, length_le_of_map hqs⟩
    rw [run_bind_ok hq, steps, run_remaining]
  rcases startTokens_cases e (Expr.enclosed 8 e.level (e.bare w)) with
    ⟨rfl, hstart⟩ | ⟨rfl, hstart⟩ | hstart
  · rw [hstart]
    intro ps hps
    cases ps with
    | nil => cases hps
    | cons p ps =>
      obtain ⟨hp, htail⟩ : p.token = .slash ∧ _ := List.cons.inj hps
      have hpath : Grammar.path (exprUpTo n) src (p :: ps) =
          (step (exprUpTo n) >>= fun last => steps (exprUpTo n) (last .root)) src ps := by
        rw [Grammar.path, run_peek, List.map_cons, List.head?_cons, hp]
        dsimp only
        rw [run_bind_ok (advance_ok hsrc.whole p), run_peek, htail]
        rfl
      obtain ⟨limit, qs, hfirst⟩ := hfirst .root htail
      exact ⟨limit, qs, hpath.trans hfirst.1, hfirst.2⟩
  · rw [hstart]
    intro ps hps
    have hpath : Grammar.path (exprUpTo n) src ps =
        (step (exprUpTo n) >>= fun last => steps (exprUpTo n) (last .contextNode)) src ps := by
      rw [Grammar.path, run_peek, hps]
      rfl
    obtain ⟨limit, qs, hfirst⟩ := hfirst .contextNode hps
    exact ⟨limit, qs, hpath.trans hfirst.1, hfirst.2⟩
  · rw [hstart] at hn ⊢
    rw [List.length_append, List.length_singleton] at hn
    have hslash : Stops 9 (.slash :: last ++ rest) := by
      intro t k ht hk
      obtain rfl := Option.some.inj ht
      obtain rfl := Option.some.inj hk
      decide
    have hbase := h.enclosed (n := n) (ℓ := 8) hsrc (by decide) (by omega)
      ⟨hslash, fun _ => hnodes⟩
    rw [List.append_assoc]
    apply Resumes.step hbase
    intro limit p ps hp hps
    obtain ⟨qs, hq, hqs⟩ := hlast ps hps
    refine ⟨qs, ?_, hqs⟩
    change stepsUpTo (exprUpTo n) (limit + 1) e src (p :: ps) = _
    rw [stepsUpTo, run_peek, List.map_cons, List.head?_cons, hp]
    dsimp only
    rw [run_bind_ok (advance_ok hsrc.whole p), run_bind_ok hq]
    rfl

/-- A call, whose arguments are read one after another. -/
theorem called (args : List Expr) (name : String) (hlevel : e.level = 10)
    (hbare : e.bare w = .function name :: argumentTokens (bareAll w args))
    (hbegins : ∀ a ∈ args, Begins (a.bare w)) (hargs : ∀ a ∈ args, Restores S w a)
    (hcall : ∀ {src : Source}, Reads S src → ∀ position ps,
      callOf name args position src ps = .ok (e, ps)) : Restores S w e := by
  apply restores_of_primary hlevel
  intro src rest n hsrc hn
  rw [hbare] at hn ⊢
  apply functionCall_takes hsrc
  · intro a ha
    obtain ⟨t, ts, htokens, hne⟩ := hbegins a ha
    rw [htokens]
    exact ⟨fun h => hne (Option.some.inj h), nofun⟩
  · intro a ha rest' hrest'
    have hlength := length_argumentTokens (w := w) ha
    apply (hargs a ha).nested hsrc
    · rw [List.length_cons] at hn
      omega
    · intro t k ht hk
      rcases hrest' with h | h
      · obtain rfl := Option.some.inj (h.symm.trans ht)
        cases hk
      · obtain rfl := Option.some.inj (h.symm.trans ht)
        cases hk
  · exact hcall hsrc

/-- A call with the prefix of the set functions. -/
theorem setCalled (args : List Expr) {localName : String} (hlevel : e.level = 10)
    (hset : w.Declares S Name.setsNamespace)
    (hbare : e.bare w = setFunction w localName :: argumentTokens (bareAll w args))
    (hbegins : ∀ a ∈ args, Begins (a.bare w)) (hargs : ∀ a ∈ args, Restores S w a)
    (hcall : ∀ {src : Source}, Reads S src → ∀ position ps,
      setCall localName args position src ps = .ok (e, ps)) : Restores S w e := by
  apply called args _ hlevel hbare hbegins hargs
  intro src hsrc position ps
  rw [callOf_qualified hset.spelled, namespaceCall_set hsrc hset]
  exact hcall hsrc position ps

theorem root : Restores S w .root := by
  apply restores_of_primary rfl
  intro src rest n hsrc hn
  change 3 ≤ n at hn
  have hclose : Stops 0 (.closeParen :: rest) := by
    intro t k ht hk
    obtain rfl := Option.some.inj ht
    cases hk
  have hinner : Takes src (exprUpTo n) [.slash] .root (.closeParen :: rest) := by
    cases n with
    | zero => exact absurd hn (by decide)
    | succ n =>
      have hpath : Takes src (readerAt (exprUpTo n) 8) [.slash] .root (.closeParen :: rest) := by
        apply Takes.peek
        apply Takes.advance hsrc.whole
        apply Takes.peek
        exact Takes.pure
      have hunion := resumes_of_takes (ℓ := 7) (by decide) hpath nofun
      have hloosest := Resumes.descend hunion (by decide) (Nat.zero_le _)
        (hclose.mono (Nat.zero_le _)) (by rintro (h | h) <;> cases h)
      exact Resumes.stops hloosest hclose
  apply Takes.peek
  apply Takes.advance hsrc.whole
  apply Takes.bind (p := [.slash]) hinner
  apply Takes.take hsrc.whole
  exact Takes.pure

theorem contextNode : Restores S w .contextNode := by
  intro src rest n hsrc hn _ ps hps
  cases ps with
  | nil => cases hps
  | cons p ps =>
    obtain ⟨hp, htail⟩ : p.token = .dot ∧ _ := List.cons.inj hps
    refine ⟨ps.length, ps, ?_, htail, length_le_of_map htail⟩
    change Grammar.path (exprUpTo n) src (p :: ps) = _
    rw [Grammar.path, run_peek, List.map_cons, List.head?_cons, hp]
    dsimp only
    rw [run_bind_ok (advance_ok hsrc.whole p)]
    rfl

theorem parentNode : Restores S w .parentNode := by
  intro src rest n hsrc hn _ ps hps
  cases ps with
  | nil => cases hps
  | cons p ps =>
    obtain ⟨hp, htail⟩ : p.token = .twoDots ∧ _ := List.cons.inj hps
    refine ⟨ps.length, ps, ?_, htail, length_le_of_map htail⟩
    change Grammar.path (exprUpTo n) src (p :: ps) = _
    rw [Grammar.path, run_peek, List.map_cons, List.head?_cons, hp]
    dsimp only
    rw [run_bind_ok (advance_ok hsrc.whole p)]
    rfl

end Restores

mutual

/-- Every expression of the grammar comes back from its tokens. -/
theorem restores : ∀ {e : Expr}, e.Grammatical S w → Restores S w e
  | .value (.string _), _ => by
    apply restores_of_primary rfl
    intro src rest n hsrc hn
    apply Takes.peek
    apply Takes.advance hsrc.whole
    exact Takes.pure
  | .value (.number m), h => by
    apply restores_of_primary rfl
    intro src rest n hsrc hn
    have hvalue : Number.ofText (w.digits m) = m := h.value
    apply Takes.peek
    apply Takes.advance hsrc.whole
    rw [hvalue]
    exact Takes.pure
  | .root, _ => .root
  | .contextNode, _ => .contextNode
  | .parentNode, _ => .parentNode
  | .currentNode, _ => by
    apply Restores.called [] "current" rfl rfl nofun nofun
    intro src hsrc position ps
    rfl
  | .path start along test predicates, ⟨hstart, hnodes, htest, hpredicates⟩ =>
    (restores hstart).path hnodes htest (restoresAll hpredicates)
  | .filter base predicate, ⟨hbase, hnodes, hpredicate⟩ =>
    (restores hbase).filter (restores hpredicate) hnodes
  | .set .union l r, ⟨_, ⟨hl, hlnodes⟩, hr, hrnodes⟩ =>
    (restores hl).union (restores hr) hlnodes hrnodes
  | .set .intersect l r, ⟨hset, ⟨hl, hlnodes⟩, hr, hrnodes⟩ => by
    apply Restores.setCalled [l, r] rfl (hset.resolve_left nofun) rfl
    · exact List.forall_mem_cons.mpr ⟨begins hl, List.forall_mem_singleton.mpr (begins hr)⟩
    · exact List.forall_mem_cons.mpr
        ⟨restores hl, List.forall_mem_singleton.mpr (restores hr)⟩
    · intro src hsrc position ps
      exact setCall_operation rfl hlnodes hrnodes
  | .set .except l r, ⟨hset, ⟨hl, hlnodes⟩, hr, hrnodes⟩ => by
    apply Restores.setCalled [l, r] rfl (hset.resolve_left nofun) rfl
    · exact List.forall_mem_cons.mpr ⟨begins hl, List.forall_mem_singleton.mpr (begins hr)⟩
    · exact List.forall_mem_cons.mpr
        ⟨restores hl, List.forall_mem_singleton.mpr (restores hr)⟩
    · intro src hsrc position ps
      exact setCall_operation rfl hlnodes hrnodes
  | .distinct base, ⟨hset, hbase, hnodes⟩ => by
    apply Restores.setCalled [base] rfl hset rfl
    · exact List.forall_mem_singleton.mpr (begins hbase)
    · exact List.forall_mem_singleton.mpr (restores hbase)
    · intro src hsrc position ps
      exact setCall_distinct hnodes
  | .distinctBy base key, ⟨hset, ⟨hbase, hnodes⟩, hkey⟩ => by
    apply Restores.setCalled [base, key] rfl hset rfl
    · exact List.forall_mem_cons.mpr ⟨begins hbase, List.forall_mem_singleton.mpr (begins hkey)⟩
    · exact List.forall_mem_cons.mpr
        ⟨restores hbase, List.forall_mem_singleton.mpr (restores hkey)⟩
    · intro src hsrc position ps
      exact setCall_distinctBy hnodes
  | .logical op l r, ⟨hl, hr⟩ => by
    cases op with
    | or => exact (restores hl).infixed (.logical .or) (restores hr) rfl rfl rfl rfl
    | and => exact (restores hl).infixed (.logical .and) (restores hr) rfl rfl rfl rfl
  | .compare op l r, ⟨hl, hr⟩ => by
    have hmake : op.isEquality = true ∧ equality? (.comparison op) = some (.compare op) ∨
        op.isEquality = false ∧ relational? (.comparison op) = some (.compare op) := by
      cases op <;> first | exact .inl ⟨rfl, rfl⟩ | exact .inr ⟨rfl, rfl⟩
    rcases hmake with ⟨hop, hmake⟩ | ⟨hop, hmake⟩
    · have hlevel : op.strength = 2 := by rw [Comparison.strength, hop]; rfl
      exact (restores hl).infixed _ (restores hr) rfl hmake hlevel (by rw [Expr.bare, hlevel])
    · have hlevel : op.strength = 3 := by rw [Comparison.strength, hop]; rfl
      exact (restores hl).infixed _ (restores hr) rfl hmake hlevel (by rw [Expr.bare, hlevel])
  | .arithmetic op l r, ⟨hl, hr⟩ => by
    have hmake : op.strength = 4 ∧ additive? (.arithmetic op) = some (.arithmetic op) ∨
        op.strength = 5 ∧ multiplicative? (.arithmetic op) = some (.arithmetic op) := by
      cases op <;> first | exact .inl ⟨rfl, rfl⟩ | exact .inr ⟨rfl, rfl⟩
    rcases hmake with ⟨hlevel, hmake⟩ | ⟨hlevel, hmake⟩
    · exact (restores hl).infixed _ (restores hr) rfl hmake hlevel (by rw [Expr.bare, hlevel])
    · exact (restores hl).infixed _ (restores hr) rfl hmake hlevel (by rw [Expr.bare, hlevel])
  | .negate e, h => (restores (e := e) h).negate
  | .call f args _ _, ⟨rfl, rfl, hcurrent, harity, hkey, hset, hargs⟩ => by
    cases hf : f.isSetFunction with
    | true =>
      apply Restores.setCalled args rfl (hset hf)
        (by rw [Expr.bare, systemFunction, if_pos hf]) (beginsAll hargs) (restoresAll hargs)
      intro src hsrc position ps
      exact setCall_function hsrc hf harity
    | false =>
      apply Restores.called args f.signature.name rfl
        (by rw [Expr.bare, systemFunction, hf]; rfl) (beginsAll hargs) (restoresAll hargs)
      intro src hsrc position ps
      rw [callOf_unqualified f.isSimpleName]
      exact systemCall_ok hsrc hf harity hcurrent hkey
  | .extension name args, ⟨⟨uri, h⟩, hargs⟩ => by
    obtain ⟨declared, localName, htext, hd, -, huri, hne, hname, havailable⟩ := h
    apply Restores.called args _ rfl rfl (beginsAll hargs) (restoresAll hargs)
    intro src hsrc position ps
    rw [htext, callOf_qualified hd, namespaceCall_host hsrc huri hne, ← hname, havailable]
    rfl
  | .failure _, ⟨text, name, uri, rfl, h⟩ => by
    obtain ⟨declared, localName, rfl, hd, -, huri, hne, hname, havailable⟩ := h
    apply Restores.called [] _ rfl rfl nofun nofun
    intro src hsrc position ps
    rw [callOf_qualified hd, namespaceCall_host hsrc huri hne, ← hname, havailable]
    rfl
  | .reference b, h => by
    apply restores_of_primary rfl
    intro src rest n hsrc hn
    exact variable_takes hsrc h

theorem restoresAll : ∀ {es : List Expr}, GrammaticalAll S w es → ∀ e ∈ es, Restores S w e
  | [], _ => nofun
  | _ :: _, ⟨h, hs⟩ => List.forall_mem_cons.mpr ⟨restores h, restoresAll hs⟩

end

end Grammar

namespace Expr

open Grammar Reader

/-- The text of an expression of the grammar is read as that expression. -/
theorem read_render {S : Scope} {w : Spelling} {e : Expr} (h : e.Grammatical S w) :
    read S (e.render w) = .ok e := by
  obtain ⟨htokens, hfault⟩ := TokenList.ofText_spelled (bare_flow h)
  let l := TokenList.ofText (e.render w)
  let src : Source := ⟨e.render w, S, l.fault⟩
  have hsrc : Reads S src := ⟨hfault, rfl⟩
  have hexpr : Takes src Grammar.expr (e.bare w) e [] := by
    apply Takes.remaining
    apply (restores h).nested hsrc
    · simp
    · nofun
  obtain ⟨qs, hq, hqs⟩ := hexpr l.tokens (htokens.trans (List.append_nil _).symm)
  obtain rfl := List.map_eq_nil_iff.mp hqs
  exact run_ok hfault hq

end Expr

end PathLanguage
