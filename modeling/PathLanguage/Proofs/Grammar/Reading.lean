/- Reading by levels: what one level of the grammar takes from a list of tokens, and how the loops
that gather operands, steps and predicates go on and stop. -/
import PathLanguage.Proofs.Grammar.Rendering

namespace PathLanguage

namespace Reader

variable {α β : Type} {src : Source} {ps qs : List PlacedToken}

theorem run_bind_ok {r : Reader α} {f : α → Reader β} {a : α} (h : r src ps = .ok (a, qs)) :
    (r >>= f) src ps = f a src qs := by
  change (r src ps >>= fun p => f p.1 src p.2) = _
  rw [h]
  rfl

theorem run_bind_error {r : Reader α} {f : α → Reader β} {e : SyntaxFault}
    (h : r src ps = .error e) : (r >>= f) src ps = .error e := by
  change (r src ps >>= fun p => f p.1 src p.2) = _
  rw [h]
  rfl

theorem length_le_of_map {rest : List Token} (h : ps.map (·.token) = rest) :
    rest.length ≤ ps.length := by
  apply Nat.le_of_eq
  rw [← h, List.length_map]

/-- Looking at the next token leaves it where it is. -/
theorem run_peek (f : Option Token → Reader β) :
    (peek? >>= f) src ps = f (ps.map (·.token)).head? src ps := by
  rw [List.head?_map]
  rfl

theorem run_remaining (f : Nat → Reader β) : (remaining >>= f) src ps = f ps.length src ps := rfl

theorem run_read (f : Source → Reader β) : (read >>= f : Reader β) src ps = f src src ps := rfl

theorem checkReadable_run : checkReadable src ps = (match ps, src.fault with
    | [], some (cause, position) => failAt position cause
    | _, _ => (return () : Reader Unit)) src ps := rfl

theorem checkReadable_ok (hsrc : src.fault = none) : checkReadable src ps = .ok ((), ps) := by
  rw [checkReadable_run, hsrc]
  cases ps <;> rfl

theorem checkReadable_eq_ok {u : Unit} (h : checkReadable src ps = .ok (u, qs)) :
    qs = ps ∧ (ps = [] → src.fault = none) := by
  rw [checkReadable_run] at h
  cases hfault : src.fault with
  | none =>
    rw [hfault] at h
    cases ps <;> cases h <;> exact ⟨rfl, fun _ => rfl⟩
  | some cause =>
    rw [hfault] at h
    cases ps with
    | nil => cases h
    | cons p ps =>
      cases h
      exact ⟨rfl, nofun⟩

theorem advance_ok (hsrc : src.fault = none) (p : PlacedToken) :
    advance src (p :: ps) = .ok ((), ps) :=
  checkReadable_ok hsrc

theorem take_ok (hsrc : src.fault = none) (p : PlacedToken) :
    take p.token src (p :: ps) = .ok ((), ps) := by
  rw [take, run_peek]
  simp only [List.map_cons, List.head?_cons, if_true]
  exact advance_ok hsrc p

/-- A whole text, when the tokens are all there and all taken. -/
theorem run_ok {r : Reader α} {beyond : String → SyntaxCause} {S : Scope} {text : String} {a : α}
    (hfault : (TokenList.ofText text).fault = none)
    (hr : r ⟨text, S, (TokenList.ofText text).fault⟩ (TokenList.ofText text).tokens =
      .ok (a, [])) : r.run beyond S text = .ok a := by
  let l := TokenList.ofText text
  change Except.map Prod.fst ((checkReadable >>= fun _ => r >>= fun a => peek? >>= _ : Reader α)
    ⟨text, S, l.fault⟩ l.tokens) = .ok a
  rw [run_bind_ok (checkReadable_ok hfault), run_bind_ok hr]
  rfl

/-- From tokens that begin with some, and go on with `rest`, a reader takes just those. -/
def Takes (src : Source) (r : Reader α) (ts : List Token) (a : α) (rest : List Token) : Prop :=
  ∀ ps, ps.map (·.token) = ts ++ rest →
    ∃ qs, r src ps = .ok (a, qs) ∧ qs.map (·.token) = rest

namespace Takes

variable {r : Reader α} {f : α → Reader β} {ts us rest : List Token} {a : α} {b : β}

theorem pure : Takes src (pure a) [] a rest := fun ps h => ⟨ps, rfl, h⟩

theorem bind {p q : List Token} (h : Takes src r p a (q ++ rest)) (hf : Takes src (f a) q b rest) :
    Takes src (r >>= f) (p ++ q) b rest := by
  intro ps hps
  rw [List.append_assoc] at hps
  obtain ⟨qs, hr, hqs⟩ := h ps hps
  rw [run_bind_ok hr]
  exact hf qs hqs

/-- Goes on with a function of the result. -/
theorem map (h : Takes src r ts a rest) (g : α → β) :
    Takes src (do return g (← r)) ts (g a) rest := by
  rw [← List.append_nil ts]
  exact bind (q := []) h pure

theorem peek {f : Option Token → Reader β} (h : Takes src (f (ts ++ rest).head?) ts b rest) :
    Takes src (peek? >>= f) ts b rest := by
  intro ps hps
  rw [run_peek, hps]
  exact h ps hps

theorem remaining {f : Nat → Reader β}
    (h : Takes src (f (ts ++ rest).length) ts b rest) :
    Takes src (remaining >>= f) ts b rest := by
  intro ps hps
  rw [run_remaining, ← List.length_map, hps]
  exact h ps hps

theorem position {f : Nat → Reader β} (h : ∀ n, Takes src (f n) ts b rest) :
    Takes src (position >>= f) ts b rest := by
  intro ps hps
  cases ps with
  | nil => exact h _ [] hps
  | cons p ps => exact h p.start _ hps

theorem read {f : Source → Reader β} (h : Takes src (f src) ts b rest) :
    Takes src (MonadReader.read >>= f) ts b rest :=
  h

theorem advance (hsrc : src.fault = none) {t : Token} {f : Unit → Reader β}
    (h : Takes src (f ()) us b rest) : Takes src (advance >>= f) (t :: us) b rest := by
  intro ps hps
  cases ps with
  | nil => cases hps
  | cons p ps =>
    rw [run_bind_ok (advance_ok hsrc p)]
    exact h ps (List.cons.inj hps).2

theorem take (hsrc : src.fault = none) {t : Token} {f : Unit → Reader β}
    (h : Takes src (f ()) us b rest) : Takes src (take t >>= f) (t :: us) b rest := by
  intro ps hps
  cases ps with
  | nil => cases hps
  | cons p ps =>
    obtain ⟨rfl, htail⟩ := List.cons.inj hps
    rw [run_bind_ok (take_ok hsrc p)]
    exact h ps htail

theorem lift {x : Except StaticFault α} (h : x = .ok a) {f : α → Reader β}
    (hf : Takes src (f a) ts b rest) : Takes src (lift x >>= f) ts b rest := by
  subst h
  exact hf

/-- What is read up to its own end, read on from there. -/
theorem of_eq {p : List Token} (h : Takes src r p a rest) (heq : p = us) :
    Takes src r us a rest :=
  heq ▸ h

end Takes

/-- A reader comes to the same as the loop that goes on from an expression, when the tokens of the
expression are taken; the loop can go on as long as there are tokens. -/
def Resumes (src : Source) (r : Reader Expr) (loop : Nat → Expr → Reader Expr) (ts : List Token)
    (e : Expr) (rest : List Token) : Prop :=
  ∀ ps, ps.map (·.token) = ts ++ rest →
    ∃ limit qs, r src ps = loop limit e src qs ∧ qs.map (·.token) = rest ∧ rest.length ≤ limit

namespace Resumes

variable {r : Reader Expr} {loop : Nat → Expr → Reader Expr} {ts us rest : List Token}
  {e e' : Expr}

/-- The loop goes round once more, with the next token and those behind it. -/
theorem step {t : Token} (h : Resumes src r loop ts e (t :: us ++ rest))
    (hstep : ∀ n p ps, p.token = t → ps.map (·.token) = us ++ rest →
      ∃ qs, loop (n + 1) e src (p :: ps) = loop n e' src qs ∧ qs.map (·.token) = rest) :
    Resumes src r loop (ts ++ t :: us) e' rest := by
  intro ps hps
  rw [List.append_assoc] at hps
  obtain ⟨limit, qs, hr, hqs, hlimit⟩ := h ps hps
  cases limit with
  | zero => exact absurd hlimit (Nat.not_succ_le_zero _)
  | succ n =>
    cases qs with
    | nil => cases hqs
    | cons p qs =>
      obtain ⟨hp, htail⟩ := List.cons.inj hqs
      obtain ⟨qs', hq, hqs'⟩ := hstep n p qs hp htail
      refine ⟨n, qs', hr.trans hq, hqs', ?_⟩
      simp at hlimit
      omega

/-- The loop stops. -/
theorem takes (h : Resumes src r loop ts e rest)
    (hstop : ∀ n ps, ps.map (·.token) = rest → loop n e src ps = .ok (e, ps)) :
    Takes src r ts e rest := by
  intro ps hps
  obtain ⟨n, qs, hr, hqs, -⟩ := h ps hps
  exact ⟨qs, hr.trans (hstop n qs hqs), hqs⟩

end Resumes

end Reader

/-- The level of the grammar at which a token goes on behind an operand. -/
def Token.joins : Token → Option Nat
  | .logical op => some op.strength
  | .comparison op => some op.strength
  | .arithmetic op => some op.strength
  | .bar => some 7
  | .slash | .doubleSlash => some 8
  | .openBracket => some 9
  | _ => none

namespace Grammar

open Reader

/-- The tokens behind an operand of some level do not go on with it. -/
def Stops (ℓ : Nat) (rest : List Token) : Prop :=
  ∀ t k, rest.head? = some t → t.joins = some k → k < ℓ

theorem Stops.mono {ℓ ℓ' : Nat} {rest : List Token} (h : Stops ℓ rest) (hle : ℓ ≤ ℓ') :
    Stops ℓ' rest :=
  fun t k ht hk => Nat.lt_of_lt_of_le (h t k ht hk) hle

/-- The infix operators, the loosest first. -/
def operators : List (Token → Option (Expr → Expr → Expr)) :=
  [logical? .or, logical? .and, equality?, relational?, additive?, multiplicative?]

def chained (nested : Reader Expr) : List (Token → Option (Expr → Expr → Expr)) → Reader Expr
  | [] => unary nested
  | operator? :: rest => chain operator? (chained nested rest)

/-- The reader of the expressions that bind as strongly as a level wants. -/
def readerAt (nested : Reader Expr) : Nat → Reader Expr
  | 7 => union nested
  | 8 => path nested
  | 9 => filtered nested
  | 10 => primary nested
  | ℓ => chained nested (operators.drop ℓ)

/-- The loop of a level, which gathers what follows a first operand. -/
def loopAt (nested : Reader Expr) : Nat → Nat → Expr → Reader Expr
  | 7 => unionUpTo (path nested)
  | 8 => stepsUpTo nested
  | 9 => filtersUpTo nested
  | ℓ => match operators[ℓ]? with
    | some operator? => chainUpTo operator? (readerAt nested (ℓ + 1))
    | none => fun _ e => return e

variable {src : Source} {nested : Reader Expr} {ts us rest : List Token} {e r : Expr} {ℓ : Nat}

/-- What makes an infix operator of a token, at the level that the token joins operands at. -/
theorem joins_of_operator {operator? : Token → Option (Expr → Expr → Expr)} {t : Token}
    {make : Expr → Expr → Expr} (h : operators[ℓ]? = some operator?)
    (ht : operator? t = some make) : t.joins = some ℓ := by
  match ℓ with
  | 0 | 1 | 2 | 3 | 4 | 5 =>
    obtain rfl := Option.some.inj h
    cases t with
    | logical op => cases op <;> first | rfl | cases ht
    | comparison op => cases op <;> first | rfl | cases ht
    | arithmetic op => cases op <;> first | rfl | cases ht
    | _ => cases ht
  | _ + 6 => cases h

/-- At the levels of infix operators a chain is read. -/
theorem exists_operator (h : ℓ < 6) : ∃ operator?, operators[ℓ]? = some operator? ∧
    (∀ nested, readerAt nested ℓ = chain operator? (readerAt nested (ℓ + 1))) ∧
    ∀ nested, loopAt nested ℓ = chainUpTo operator? (readerAt nested (ℓ + 1)) :=
  match ℓ, h with
  | 0, _ | 1, _ | 2, _ | 3, _ | 4, _ | 5, _ => ⟨_, rfl, fun _ => rfl, fun _ => rfl⟩

theorem chainUpTo_stops {operator? : Token → Option (Expr → Expr → Expr)} {operand : Reader Expr}
    (h : ∀ t, rest.head? = some t → operator? t = none) (n : Nat) {ps : List PlacedToken}
    (hps : ps.map (·.token) = rest) :
    chainUpTo operator? operand n e src ps = .ok (e, ps) := by
  cases n with
  | zero => rfl
  | succ n =>
    rw [chainUpTo, run_peek, hps]
    have hnone : rest.head?.bind operator? = none := by
      cases hr : rest.head? with
      | none => rfl
      | some t => exact h t hr
    rw [hnone]
    rfl

/-- A loop stops at tokens that do not go on with its operand. -/
theorem loopAt_stops (hne : ∀ {t : Token}, t.joins = some ℓ → rest.head? ≠ some t) (n : Nat)
    {ps : List PlacedToken} (hps : ps.map (·.token) = rest) :
    loopAt nested ℓ n e src ps = .ok (e, ps) := by
  by_cases hℓ : ℓ < 6
  · obtain ⟨operator?, ho, -, hloop⟩ := exists_operator hℓ
    rw [hloop]
    refine chainUpTo_stops (fun t ht => ?_) n hps
    cases hmake : operator? t with
    | none => rfl
    | some make => exact absurd ht (hne (joins_of_operator ho hmake))
  match ℓ, n with
  | 0, _ | 1, _ | 2, _ | 3, _ | 4, _ | 5, _ => exact absurd (by decide) hℓ
  | 6, _ | 10, _ | _ + 11, _ | 7, 0 | 8, 0 | 9, 0 => rfl
  | 7, n + 1 =>
    change unionUpTo (path nested) (n + 1) e src ps = _
    rw [unionUpTo, run_peek, hps, if_neg (hne rfl)]
    rfl
  | 8, n + 1 =>
    change stepsUpTo nested (n + 1) e src ps = _
    rw [stepsUpTo, run_peek, hps]
    cases hr : rest.head? with
    | none => rfl
    | some t =>
      cases t with
      | slash | doubleSlash => exact absurd hr (hne rfl)
      | _ => rfl
  | 9, n + 1 =>
    change filtersUpTo nested (n + 1) e src ps = _
    rw [filtersUpTo, run_peek, hps, if_neg (hne rfl)]
    rfl

theorem Resumes.stops (h : Resumes src (readerAt nested ℓ) (loopAt nested ℓ) ts e rest)
    (hstops : Stops ℓ rest) : Takes src (readerAt nested ℓ) ts e rest :=
  h.takes fun n _ hps =>
    loopAt_stops (fun ht hr => absurd (hstops _ ℓ hr ht) (Nat.lt_irrefl ℓ)) n hps

theorem fail_ne_ok {α : Type} {cause : SyntaxCause} {ps qs : List PlacedToken} {a : α} :
    (fail cause : Reader α) src ps ≠ .ok (a, qs) := by
  cases ps <;> nofun

/-- The tokens that a primary expression begins with. -/
def BeginsPrimary : Token → Prop
  | .dollar | .openParen | .literal _ | .number _ | .function _ => True
  | _ => False

theorem primary_begins {ps qs : List PlacedToken} (h : primary nested src ps = .ok (e, qs)) :
    ∃ t, (ps.map (·.token)).head? = some t ∧ BeginsPrimary t := by
  rw [primary, run_peek] at h
  cases ht : (ps.map (·.token)).head? with
  | none =>
    rw [ht] at h
    exact absurd h fail_ne_ok
  | some t =>
    refine ⟨t, rfl, ?_⟩
    rw [ht] at h
    cases t with
    | dollar | openParen | literal | number | function => trivial
    | _ => exact absurd h fail_ne_ok

/-- A reader that goes on from the result of another one. -/
theorem bind_eq_ok {α β : Type} {r : Reader α} {f : α → Reader β} {ps qs : List PlacedToken} {b : β}
    (h : (r >>= f) src ps = .ok (b, qs)) :
    ∃ a qs', r src ps = .ok (a, qs') ∧ f a src qs' = .ok (b, qs) := by
  cases hr : r src ps with
  | error x =>
    rw [run_bind_error hr] at h
    cases h
  | ok p => exact ⟨p.1, p.2, rfl, (run_bind_ok hr).symm.trans h⟩

theorem path_begins {ps qs : List PlacedToken} (h : path nested src ps = .ok (e, qs)) :
    ∃ t, (ps.map (·.token)).head? = some t ∧ t ≠ .arithmetic .minus := by
  cases ht : (ps.map (·.token)).head? with
  | none =>
    rw [path, run_peek, ht] at h
    obtain ⟨_, _, hfiltered, -⟩ := bind_eq_ok (r := filtered nested) h
    obtain ⟨_, _, hprimary, -⟩ := bind_eq_ok (r := primary nested) hfiltered
    obtain ⟨t, hhead, -⟩ := primary_begins hprimary
    exact absurd (ht.symm.trans hhead) nofun
  | some t =>
    refine ⟨t, rfl, ?_⟩
    rintro rfl
    rw [path, run_peek, ht] at h
    obtain ⟨_, _, hfiltered, -⟩ := bind_eq_ok (r := filtered nested) h
    obtain ⟨_, _, hprimary, -⟩ := bind_eq_ok (r := primary nested) hfiltered
    obtain ⟨t, hhead, hbegins⟩ := primary_begins hprimary
    obtain rfl := Option.some.inj (ht.symm.trans hhead)
    exact hbegins

/-- An operand without a minus sign is one behind no minus sign. -/
theorem unary_of_union {ps qs : List PlacedToken} (h : union nested src ps = .ok (e, qs)) :
    unary nested src ps = .ok (e, qs) := by
  obtain ⟨_, _, hpath, -⟩ := bind_eq_ok (r := path nested) h
  obtain ⟨t, hhead, hminus⟩ := path_begins hpath
  rw [unary, run_remaining]
  cases ps with
  | nil => exact h
  | cons p ps =>
    have hne : (List.map (·.token) (p :: ps)).head? ≠ some (.arithmetic .minus) := by
      rw [hhead]
      exact fun heq => hminus (Option.some.inj heq)
    rw [List.length_cons, unaryUpTo, run_peek, if_neg hne]
    exact h

theorem requireNodeSet_ok (h : e.MayBeNodes) (construct : String) (ps : List PlacedToken) :
    requireNodeSet e construct src ps = .ok ((), ps) := by
  rw [requireNodeSet]
  rcases h with h | h <;> rw [h] <;> rfl

theorem eq_slash_of_joins {t : Token} (h : t.joins = some 8) : t = .slash ∨ t = .doubleSlash := by
  cases t with
  | slash => exact .inl rfl
  | doubleSlash => exact .inr rfl
  | logical op | comparison op | arithmetic op => cases op <;> cases h
  | _ => cases h

/-- A filtered expression is a path without steps, and goes on as one if it may be nodes. -/
theorem path_of_filtered {ps qs : List PlacedToken} (h : filtered nested src ps = .ok (e, qs))
    (hnodes : (qs.map (·.token)).head? = some .slash ∨
      (qs.map (·.token)).head? = some .doubleSlash → e.MayBeNodes) :
    path nested src ps = stepsUpTo nested qs.length e src qs := by
  obtain ⟨_, _, hprimary, -⟩ := bind_eq_ok (r := primary nested) h
  obtain ⟨t, hhead, hbegins⟩ := primary_begins hprimary
  have hpath : path nested src ps = pathFromPrimary nested src ps := by
    rw [path, run_peek, hhead]
    cases t with
    | dollar | openParen | literal | number | function => rfl
    | _ => exact hbegins.elim
  rw [hpath, pathFromPrimary, run_bind_ok h, run_peek]
  cases ht : (qs.map (·.token)).head? with
  | none => exact (loopAt_stops (ℓ := 8) (by simp [ht]) _ rfl).symm
  | some t =>
    by_cases hslash : t = .slash ∨ t = .doubleSlash
    · have hsteps : (requireNodeSet e "A path expression" >>= fun _ => steps nested e) src qs =
          stepsUpTo nested qs.length e src qs := by
        rw [run_bind_ok (requireNodeSet_ok (hnodes (by simpa [ht] using hslash)) _ qs), steps,
          run_remaining]
      rcases hslash with rfl | rfl
      · exact hsteps
      · exact hsteps
    · have hstop : stepsUpTo nested qs.length e src qs = .ok (e, qs) := by
        refine loopAt_stops (ℓ := 8) (fun {u} hu hr => hslash ?_) _ rfl
        obtain rfl := Option.some.inj (ht.symm.trans hr)
        exact eq_slash_of_joins hu
      rw [hstop]
      cases t with
      | slash | doubleSlash => simp at hslash
      | _ => rfl

/-- What a level reads, the next looser one goes on from. -/
theorem resumes_of_takes (hℓ : ℓ < 10) (h : Takes src (readerAt nested (ℓ + 1)) ts e rest)
    (hnodes : ℓ = 8 → (rest.head? = some .slash ∨ rest.head? = some .doubleSlash) →
      e.MayBeNodes) :
    Resumes src (readerAt nested ℓ) (loopAt nested ℓ) ts e rest := by
  intro ps hps
  obtain ⟨qs, hr, hqs⟩ := h ps hps
  have hlength := length_le_of_map hqs
  by_cases hchain : ℓ < 6
  · obtain ⟨operator?, -, hreader, hloop⟩ := exists_operator hchain
    refine ⟨qs.length, qs, ?_, hqs, hlength⟩
    rw [hreader, hloop, chain, run_bind_ok hr, run_remaining]
  match ℓ with
  | 0 | 1 | 2 | 3 | 4 | 5 => exact absurd (by decide) hchain
  | 6 => exact ⟨qs.length, qs, unary_of_union hr, hqs, hlength⟩
  | 7 => exact ⟨qs.length, qs, run_bind_ok (r := path nested) hr, hqs, hlength⟩
  | 8 => exact ⟨qs.length, qs, path_of_filtered hr (by rw [hqs]; exact hnodes rfl), hqs, hlength⟩
  | 9 => exact ⟨qs.length, qs, run_bind_ok (r := primary nested) hr, hqs, hlength⟩
  | _ + 10 => exact absurd hℓ (by omega)

/-- What a level goes on from, every looser one goes on from, behind tokens that do not go on with
it at a level in between. -/
theorem Resumes.descend {k : Nat} (h : Resumes src (readerAt nested k) (loopAt nested k) ts e rest)
    (hk : k ≤ 10) (hℓ : ℓ ≤ k) (hstops : Stops (ℓ + 1) rest)
    (hnodes : (rest.head? = some .slash ∨ rest.head? = some .doubleSlash) → e.MayBeNodes) :
    Resumes src (readerAt nested ℓ) (loopAt nested ℓ) ts e rest := by
  induction hd : k - ℓ generalizing ℓ with
  | zero =>
    obtain rfl : ℓ = k := by omega
    exact h
  | succ d ih =>
    have hnext := ih (ℓ := ℓ + 1) (by omega) (hstops.mono (Nat.le_succ _)) (by omega)
    exact resumes_of_takes (by omega) (Resumes.stops hnext hstops) fun _ => hnodes

end Grammar

end PathLanguage
