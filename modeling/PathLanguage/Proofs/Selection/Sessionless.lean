/- What evaluations that stand alone say in whatever session, and what cursors deliver and
expressions stand for by it. -/
import PathLanguage.Proofs.Echo.Evaluation
import PathLanguage.Proofs.Selection.Course

namespace PathLanguage

open Node (docOrder)

variable {T : Transformation} {ι α β : Type}

namespace Action

/-- An action comes to a result in some session. -/
def Reaches (a : Action α) (x : α) : Prop := ∃ s, (a.attempt.run s).1 = .ok x

/-- Actions that come to one result at most, whichever is run and in whatever session. -/
def Converge (as : ι → Action α) : Prop :=
  ∀ i j x y, (as i).Reaches x → (as j).Reaches y → x = y

/-- The result of one of several actions, or a default one if none of them has a result. -/
def Settles [Inhabited α] (as : ι → Action α) (x : α) : Prop :=
  (∃ i, (as i).Reaches x) ∨ (∀ i y, ¬ (as i).Reaches y) ∧ x = default

theorem exists_settles [Inhabited α] (as : ι → Action α) : ∃ x, Settles as x := by
  by_cases h : ∃ i x, (as i).Reaches x
  · obtain ⟨i, x, hx⟩ := h
    exact ⟨x, .inl ⟨i, hx⟩⟩
  · exact ⟨default, .inr ⟨fun i y hy => h ⟨i, y, hy⟩, rfl⟩⟩

theorem Converge.settles_unique [Inhabited α] {as : ι → Action α} (h : Converge as) {x y : α}
    (hx : Settles as x) (hy : Settles as y) : x = y := by
  rcases hx with ⟨i, hx⟩ | ⟨hnone, rfl⟩
  · rcases hy with ⟨j, hy⟩ | ⟨hnone, rfl⟩
    · exact h i j x y hx hy
    · exact absurd hx (hnone i x)
  · rcases hy with ⟨j, hy⟩ | ⟨-, rfl⟩
    · exact absurd hy (hnone j y)
    · rfl

theorem Reaches.within {a b : Action α} {x : α} (h : a.Reaches x) (hw : a.Within b) :
    b.Reaches x := by
  obtain ⟨s, hs⟩ := h
  exact ⟨s, congrArg Prod.fst (hw s x _ (Prod.ext hs rfl))⟩

/-- What an action comes to, one that it echoes comes to in a new session. -/
theorem Reaches.echoed {a : Action α} {b : Action β} {R : Pasts → α → β → Prop} {x : α}
    (hx : a.Reaches x) (h : ∀ h : Pasts, h.loads = false → Action.Echoes T h (R h) a b) :
    ∃ p : Pasts, ∃ y, b.verdict = .ok y ∧ R p x y := by
  obtain ⟨s, hx⟩ := hx
  have hp := h ⟨s, {}, false⟩ rfl s {} (.start nofun nofun)
  rw [hx] at hp
  rcases hp with ⟨hg, -⟩ | ⟨hr, -⟩
  · cases hg
  · rw [verdict]
    generalize (b.attempt.run {}).1 = r at hr
    cases hr with
    | ok hr => exact ⟨_, _, rfl, hr⟩

/-- Actions of growing depth converge if each is echoed by the deeper ones. -/
theorem converge_of_echoes [SemilatticeSup ι] {as : ι → Action α}
    (h : ∀ (h : Pasts) i j, h.loads = false → i ≤ j → Action.Echoes T h Eq (as i) (as j)) :
    Converge as := by
  intro i j x y hx hy
  obtain ⟨-, _, hx, rfl⟩ := hx.echoed (R := fun _ => Eq) (b := as (i ⊔ j))
    fun p hp => h p i _ hp le_sup_left
  obtain ⟨-, _, hy, rfl⟩ := hy.echoed (R := fun _ => Eq) (b := as (i ⊔ j))
    fun p hp => h p j _ hp le_sup_right
  rw [hx] at hy
  exact Except.ok.inj hy

end Action

open Action (Converge Settles)

namespace Expr

theorem judge_echoes {h : Pasts} {E E' D D' : Engine} (hE : E.Echoes T h E')
    (hD : D.Echoes T h D') {p p' : Expr} (hp : p.Echo h p') (focus : Context) :
    Action.Echoes T h Eq (p.judge T E D focus) (p'.judge T E' D' focus) := by
  refine (hE.value focus hp).bind fun v v' hv => ?_
  have hb := Value.asBoolean_echoes hD hv
  cases hv with
  | number x => exact .pure rfl
  | _ => exact hb

theorem StandsAlone.judgements {p : Expr} (hp : p.StandsAlone false) (focus : Context) :
    Converge (p.judgements T focus) := by
  refine Action.converge_of_echoes (T := T) fun h d d' hl hd => ?_
  have hp := p.echo_self h (hl ▸ hp)
  exact judge_echoes (engine_echoes T h hd.1) (engine_echoes T h hd.2) hp focus

theorem StandsAlone.strings {e : Expr} (he : e.StandsAlone false) (c : Context) :
    Converge fun d => (engine T d).string e c :=
  Action.converge_of_echoes (T := T) fun h _ _ hl hd =>
    (engine_echoes T h hd).string c (e.echo_self h (hl ▸ he))

end Expr

/-- What evaluations say that stand alone, in whatever session; what others say is left open. -/
def Oracle.sessionless (T : Transformation) : Oracle where
  truth p c n position size b :=
    match Strategy.ofPredicate p with
    | .positions least most => b = (least ≤ position && position ≤ most)
    | _ => p.StandsAlone false → Settles (p.judgements T (c.withFocus n position size)) b
  text e c n k := e.StandsAlone false → Settles (fun d => (engine T d).string e (c.withNode n)) k
  value e c ns := ∃ d, ((engine T d).nodeSet e c).Reaches ns
  kept _ _ := True

namespace Oracle

variable {p : Expr} {c : Context} {n : Node} {position size : Nat} {b b' : Bool}

/-- The position decides. -/
theorem sessionless_of_positions {least most : Nat}
    (hs : Strategy.ofPredicate p = .positions least most) :
    (sessionless T).truth p c n position size b ↔ b = (least ≤ position && position ≤ most) := by
  simp [sessionless, hs]

/-- A judgement decides. -/
theorem sessionless_of_judged
    (hs : ¬ ∃ least most, Strategy.ofPredicate p = .positions least most) :
    (sessionless T).truth p c n position size b ↔
      (p.StandsAlone false → Settles (p.judgements T (c.withFocus n position size)) b) := by
  cases h : Strategy.ofPredicate p with
  | positions least most => exact absurd ⟨least, most, h⟩ hs
  | _ => simp [sessionless, h]

theorem sessionless_lawful (T : Transformation) : (sessionless T).Lawful where
  truth p c n position size := by
    by_cases hs : ∃ least most, Strategy.ofPredicate p = .positions least most
    · obtain ⟨least, most, hs⟩ := hs
      exact ⟨_, (sessionless_of_positions hs).mpr rfl⟩
    · obtain ⟨b, hb⟩ := Action.exists_settles (p.judgements T (c.withFocus n position size))
      exact ⟨b, (sessionless_of_judged hs).mpr fun _ => hb⟩
  text e c n := by
    obtain ⟨k, hk⟩ := Action.exists_settles fun d => (engine T d).string e (c.withNode n)
    exact ⟨k, fun _ => hk⟩
  size {p c n position size b} hl ht size' := by
    by_cases hs : ∃ least most, Strategy.ofPredicate p = .positions least most
    · obtain ⟨least, most, hs⟩ := hs
      rwa [sessionless_of_positions hs] at ht ⊢
    · have heq : p.judgements T (c.withFocus n position size) =
          p.judgements T (c.withFocus n position size') :=
        Expr.judgements_like (Context.like_withFocus c n (fun _ => rfl) (by simp [hl])) fun _ => rfl
      rw [sessionless_of_judged hs] at ht ⊢
      rwa [← heq]
  unplaced {p c n position size b} hp ht position' size' := by
    obtain ⟨hposition, hlast, htype⟩ := Expr.of_not_positional hp
    by_cases hs : ∃ least most, Strategy.ofPredicate p = .positions least most
    · obtain ⟨least, most, hs⟩ := hs
      obtain ⟨x, rfl⟩ | rfl := Expr.of_positions hs
      · exact absurd (.inl rfl) htype
      · cases hposition
    · have heq : p.judgements T (c.withFocus n position size) =
          p.judgements T (c.withFocus n position' size') :=
        Expr.judgements_like (Context.like_withFocus c n (by simp [hposition]) (by simp [hlast]))
          fun hn => absurd hn htype
      rw [sessionless_of_judged hs] at ht ⊢
      rwa [← heq]
  positions hs c n position size := (sessionless_of_positions hs).mpr rfl

end Oracle

namespace Setting

variable {S : Setting} {s₀ s : Session} {a : Action α}

theorem Ensures.reaches {Q : α → Session → Prop} (h : S.Ensures s a Q) :
    S.Ensures s a fun x _ => a.Reaches x := by
  intro hs
  obtain ⟨ht, hst, -⟩ := h hs
  exact ⟨ht, hst, fun x hx => ⟨s, hx⟩⟩

theorem sessionless_answers (hS : S.Safe) (s₀ : Session) (n : Nat) :
    S.Answers (fun _ => .sessionless S.transformation) s₀ (engine S.transformation n) where
  truth {s p m position last} h0 hp hc hm hproper := by
    have hE := engine_safe hS n
    have hsafe := Cursor.accepts_safe hE hp hc hm position last
    by_cases hs : ∃ least most, Strategy.ofPredicate p.predicate = .positions least most
    · obtain ⟨least, most, hs⟩ := hs
      unfold Cursor.accepts
      rw [hproper.strategy, hs]
      exact .pure fun u _ => (Oracle.sessionless_of_positions hs).mpr rfl
    · obtain ⟨d, d', hw⟩ := Cursor.accepts_within hproper
        (fun least most h => hs ⟨least, most, hproper.strategy ▸ h⟩) n m position last
      refine hsafe.reaches.imp fun b t _ _ hb u _ => (Oracle.sessionless_of_judged hs).mpr ?_
      exact fun _ => .inl ⟨(d, d'), hb.within hw⟩
  text {s e c m} h0 he hc hm := by
    have hE := engine_safe hS n
    exact (hE.string he (hc.withNode hm)).reaches.imp fun k _ _ _ hk _ _ _ => .inl ⟨n, hk⟩

theorem sessionless_values (hS : S.Safe) (s₀ : Session) (n : Nat) :
    S.Values (fun _ => .sessionless S.transformation) s₀ (engine S.transformation n) where
  value _ he hc := ((engine_safe hS n).nodeSet he hc).reaches.imp fun _ _ _ _ h _ _ => ⟨n, h⟩
  kept _ _ := trivial

/-- At every depth cursors are read truly, and those of expressions yield what these stand for. -/
theorem sessionless_selects (hS : S.Safe) (s₀ : Session) (n : Nat) :
    S.Reads (fun _ => .sessionless S.transformation) s₀ (engine S.transformation n) ∧
      S.Selects (fun _ => .sessionless S.transformation)
        (fun _ => .sessionless S.transformation) s₀ (engine S.transformation n) :=
  engine_selects hS (fun _ => Oracle.sessionless_lawful _) (fun _ => ⟨fun _ h => h, id⟩)
    (sessionless_answers hS s₀) (sessionless_values hS s₀) n

end Setting

end PathLanguage
