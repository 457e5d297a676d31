/- Expressions that stand alone and hand on no lazy node-set are definite: they stand for the same
nodes in every session. -/
import PathLanguage.Proofs.Selection.Sessionless

namespace PathLanguage

open Node (docOrder)
open Action (Settles)

variable {T : Transformation}

/-- A leaf of an expression that stands alone and hands no node-set on as it finds it. -/
structure Leaf.Definite (l : Leaf) : Prop where
  standsAlone : l.StandsAlone false
  handsOn : l ≠ .call .leading

/-- An expression that stands alone and none of whose node-sets are lazy. -/
def Expr.Definite (e : Expr) : Prop := ∀ l ∈ e.leaves, l.Definite

theorem Leaf.definite_append {ls ms : List Leaf} (h : ∀ l ∈ ls ++ ms, l.Definite) :
    (∀ l ∈ ls, l.Definite) ∧ ∀ l ∈ ms, l.Definite :=
  List.forall_mem_append.mp h

theorem Expr.Definite.standsAlone {e : Expr} (he : e.Definite) : e.StandsAlone false :=
  fun l hl => (he l hl).standsAlone

/-- A node-set whose nodes are at hand. -/
def NodeSet.AtHand (ns : NodeSet) : Prop := ∀ id definition, ns ≠ .intent id definition

/-- A value that is no lazy node-set. -/
def Value.AtHand (v : Value) : Prop := ∀ ns, v = .nodeSet ns → ns.AtHand

/-- The nodes at hand in document order, each once. -/
def NodeSet.atHand : NodeSet → List Node
  | .empty | .intent .. => []
  | .single n _ => n.toList
  | .extent e => docOrder e.nodes

theorem NodeSet.atHand_ofNodes (ns : List Node) (sorted : Bool) :
    (NodeSet.ofNodes ns sorted).AtHand := by
  unfold NodeSet.ofNodes
  split <;> exact nofun

section atHand

variable {E : Engine} {e : Expr} {c : Context}

theorem Function.sortedSet_atHand (ns : List Node) :
    Returns (sortedSet ns) fun v => ∀ ms, v = .nodeSet ms → ms.AtHand :=
  .bind_any fun _ => .pure fun _ h => Value.nodeSet.inj h ▸ NodeSet.atHand_ofNodes _ _

theorem Function.systemProperty_atHand (name : ExpandedName) (ms : NodeSet) :
    systemProperty name ≠ .nodeSet ms := by
  unfold systemProperty
  split
  · split <;> exact nofun
  · exact nofun

theorem Function.besideFirst_atHand (a b : NodeSet) (side : Ordering) :
    Returns (besideFirst T E a b side) fun r => ∀ ms ∈ r, ms.AtHand := by
  refine .bind_any fun n => ?_
  split
  · exact .pure nofun
  · have hrest (ns : List Node) :
        Returns (pure (some (NodeSet.ofNodes ns true))) fun r => ∀ ms ∈ r, ms.AtHand := by
      refine .pure ?_
      rintro _ ⟨⟩
      exact NodeSet.atHand_ofNodes ns true
    refine .bind_any fun e => .ite (fun _ => .pure ?_) fun _ => .ite (fun _ => .bind_any fun _ =>
      hrest _) fun _ => hrest _
    rintro _ ⟨⟩
    exact nofun

/-- Of the functions that stand alone, every one but `leading` gives node-sets that are at hand. -/
theorem Function.Call.run_atHand (c : Call) (hc : c.function.StandsAlone false)
    (hl : c.function ≠ .leading) :
    Returns (c.run T E) fun v => ∀ ms, v = .nodeSet ms → ms.AtHand := by
  obtain ⟨f, args, bound, scope, context⟩ := c
  have hother (h : f.result ≠ .nodeSet) (h' : f.result ≠ .any) :
      Returns ((⟨f, args, bound, scope, context⟩ : Call).run T E)
        fun v => ∀ ms, v = .nodeSet ms → ms.AtHand :=
    (run_has _).imp fun v hv ms he => absurd (he ▸ hv h').symm h
  cases f with
  | current => exact .bind_any fun _ => .pure fun _ h => Value.nodeSet.inj h ▸ nofun
  | id => exact .bind_any fun v => .bind_any fun n => .bind_any fun ids => sortedSet_atHand _
  | trailing =>
    refine .bind_any fun a => .bind_any fun b => .bind (P := NodeSet.AtHand) ?_ fun ms hms =>
      .pure fun _ h => Value.nodeSet.inj h ▸ hms
    refine (besideFirst_atHand a b .gt).bind fun r hr => .pure ?_
    cases r with
    | none => exact nofun
    | some ms => exact hr ms rfl
  | systemProperty =>
    exact .bind_any fun _ => .bind_any fun name => .pure fun ms h =>
      absurd h (systemProperty_atHand name ms)
  | leading => exact absurd rfl hl
  | key => exact absurd rfl hc.1
  | document => exact nomatch hc.2 rfl
  | _ => exact hother nofun nofun

theorem Expr.nodeSetOf_atHand {v : Value} (h : ∀ ms, v = .nodeSet ms → ms.AtHand) :
    Returns (nodeSetOf v) NodeSet.AtHand := by
  cases v with
  | nodeSet ns => exact .pure (h ns rfl)
  | string | number | boolean | object => exact .fail

/-- A value that is no lazy node-set. -/
theorem Expr.Definite.atHand {v : Value} (hv : (Expr.value v).Definite) (ms : NodeSet)
    (h : v = .nodeSet ms) : ms.AtHand := by
  rintro id d rfl
  subst h
  exact (hv (.lazy id d) List.mem_cons_self).standsAlone.elim

theorem NodeSet.AtHand.definite {v : NodeSet} (hv : v.AtHand) :
    (Expr.value (.nodeSet v)).Definite := by
  intro l hl
  cases v with
  | empty => cases hl
  | single n navigable =>
    obtain ⟨m, -, rfl⟩ := List.mem_map.mp hl
    exact ⟨trivial, nofun⟩
  | extent e =>
    obtain rfl := List.mem_singleton.mp hl
    exact ⟨trivial, nofun⟩
  | intent id d => exact absurd rfl (hv id d)

theorem Expr.Definite.value_atHand (he : e.Definite) (hne : e.isNodeSetExpr = false) (n : Nat)
    (c : Context) :
    Returns ((engine T n).value e c) fun v => ∀ ms, v = .nodeSet ms → ms.AtHand := by
  cases n with
  | zero => exact .fail
  | succ n =>
    change Returns (e.evaluate T (engine T n) c) _
    cases e with
    | value v => exact .pure he.atHand
    | call f args bound scope =>
      have hf := he (.call f) List.mem_cons_self
      exact Function.Call.run_atHand _ hf.standsAlone fun h => hf.handsOn (congrArg Leaf.call h)
    | extension name args => exact (he (.host name) List.mem_cons_self).standsAlone.elim
    | reference b =>
      have hb : b.constant.isSome = true := (he (.variable b) List.mem_cons_self).standsAlone
      obtain ⟨k, hk⟩ := Option.isSome_iff_exists.mp hb
      simp only [evaluate, hk]
      cases k with
      | string | number | boolean => exact .pure fun ms h => by cases h
    | failure f => exact .throw
    | logical | compare | compareNode | compareNodes | positionRange | isLast | arithmetic | negate
    | template => exact .bind_any fun _ => .pure fun ms h => by cases h
    | _ => cases hne

/-- The value of an operand is at hand. -/
theorem Expr.Definite.nodeSet_atHand (he : e.Definite) (hne : e.isNodeSetExpr = false) (n : Nat)
    (c : Context) : Returns ((engine T n).nodeSet e c) NodeSet.AtHand := by
  cases n with
  | zero => exact .fail
  | succ n =>
    change Returns (e.evaluateNodeSet (engine T n) c) _
    unfold evaluateNodeSet
    split
    · exact nodeSetOf_atHand he.atHand
    · rw [hne]
      exact (he.value_atHand hne n c).bind fun v hv => nodeSetOf_atHand hv

theorem NodeSet.Echo.eq_of_atHand {h : Pasts} {ns ms : NodeSet} (hn : ns.Echo h ms)
    (hm : ms.AtHand) : ns = ms := by
  cases hn with
  | intent k hd => exact absurd rfl (hm _ _)
  | empty | single | extent => rfl

end atHand

namespace Oracle

variable {e : Expr} {c : Context}

theorem sessionless_value_unique (he : e.Definite) (hne : e.isNodeSetExpr = false)
    {ns ms : NodeSet} (hn : (sessionless T).value e c ns) (hm : (sessionless T).value e c ms) :
    ns.AtHand ∧ ns = ms := by
  obtain ⟨d, hn⟩ := hn
  obtain ⟨d', hm⟩ := hm
  have hecho {d d' : Nat} (hd : d ≤ d') (h : Pasts) (hl : h.loads = false) :
      Action.Echoes T h (NodeSet.Echo h) ((engine T d).nodeSet e c) ((engine T d').nodeSet e c) :=
    (engine_echoes T h hd).nodeSet c (e.echo_self h (hl ▸ he.standsAlone))
  obtain ⟨p, ks, hk, hnk⟩ := hn.echoed (hecho (le_max_left d d'))
  obtain ⟨q, ks', hk', hmk⟩ := hm.echoed (hecho (le_max_right d d'))
  obtain rfl : ks = ks' := by
    rw [hk] at hk'
    exact Except.ok.inj hk'
  have hks := he.nodeSet_atHand hne (max d d') c {} ks hk
  obtain rfl := hnk.eq_of_atHand hks
  exact ⟨hks, (hmk.eq_of_atHand hks).symm⟩

theorem sessionless_value_self (v : NodeSet) (c : Context) :
    (sessionless T).value (.value (.nodeSet v)) c v := ⟨1, {}, rfl⟩

variable {g : Context} {ns ms : List Node}

/-- A node-set at hand stands for its own nodes. -/
theorem Selects.of_atHand (h : (sessionless T).Selects g e c ns) {v : NodeSet}
    (he : e = .value (.nodeSet v)) (hv : v.AtHand) : ns = v.atHand := by
  induction h with
  | empty =>
    cases he
    rfl
  | single =>
    cases he
    rfl
  | extent =>
    cases he
    rfl
  | kept | lazy =>
    cases he
    exact absurd rfl (hv _ _)
  | operand hne hw _ ih =>
    subst he
    obtain ⟨-, rfl⟩ := sessionless_value_unique hv.definite rfl hw (sessionless_value_self v _)
    exact ih rfl
  | _ => cases he

/-- An operand stands for the nodes of its value. -/
theorem Selects.of_operand (he : e.Definite) (hne : e.isNodeSetExpr = false)
    (h : (sessionless T).Selects g e c ns) :
    ∃ v, (sessionless T).value e c v ∧ ns = v.atHand := by
  cases h with
  | empty => exact ⟨.empty, sessionless_value_self _ c, rfl⟩
  | single => exact ⟨_, sessionless_value_self _ c, rfl⟩
  | extent => exact ⟨_, sessionless_value_self _ c, rfl⟩
  | kept | lazy => exact absurd rfl (he.atHand _ rfl _ _)
  | @operand _ _ v _ _ hv hsel =>
    exact ⟨v, hv, hsel.of_atHand rfl (sessionless_value_unique he hne hv hv).1⟩
  | _ => cases hne

theorem sessionless_truth_unique {p : Expr} (hp : p.Definite) {n : Node} {k size : Nat}
    {b b' : Bool} (hb : (sessionless T).truth p c n k size b)
    (hb' : (sessionless T).truth p c n k size b') : b = b' := by
  by_cases hs : ∃ least most, Strategy.ofPredicate p = .positions least most
  · obtain ⟨least, most, hs⟩ := hs
    rw [sessionless_of_positions hs] at hb hb'
    exact hb.trans hb'.symm
  · rw [sessionless_of_judged hs] at hb hb'
    exact (hp.standsAlone.judgements _).settles_unique (hb hp.standsAlone) (hb' hp.standsAlone)

theorem sessionless_textBy_unique {key : Option (Expr × Context)}
    (hkey : ∀ p ∈ key, p.1.Definite) (n : Node) (k k' : String)
    (hk : (sessionless T).textBy key n k) (hk' : (sessionless T).textBy key n k') : k = k' := by
  cases key with
  | none => exact Eq.trans hk (Eq.symm hk')
  | some p =>
    have hp := (hkey p rfl).standsAlone
    exact (hp.strings _).settles_unique (hk hp) (hk' hp)

/-- A definite expression stands for one list of nodes. -/
theorem Selects.unique (h : (sessionless T).Selects g e c ns) (he : e.Definite)
    (h' : (sessionless T).Selects g e c ms) : ns = ms := by
  have hvalue {e : Expr} {c : Context} {ns ms : List Node} (he : e.Definite)
      (hne : e.isNodeSetExpr = false) (h : (sessionless T).Selects g e c ns)
      (h' : (sessionless T).Selects g e c ms) : ns = ms := by
    obtain ⟨v, hv, rfl⟩ := h.of_operand he hne
    obtain ⟨w, hw, rfl⟩ := h'.of_operand he hne
    rw [(sessionless_value_unique he hne hv hw).2]
  have hsame {o : Option Node} {n m : Node} (hn : o = some n) (hm : o = some m) : n = m :=
    Option.some.inj (hn.symm.trans hm)
  induction h generalizing ms with
  | root hn =>
    cases h' with
    | operand hne => cases hne
    | root hn' => rw [hsame hn hn']
  | contextNode hn =>
    cases h' with
    | operand hne => cases hne
    | contextNode hn' => rw [hsame hn hn']
  | parentNode hn =>
    cases h' with
    | operand hne => cases hne
    | parentNode hn' => rw [hsame hn hn']
  | currentNode hn =>
    cases h' with
    | operand hne => cases hne
    | currentNode hn' => rw [hsame hn hn']
  | «attribute» name hn =>
    cases h' with
    | operand hne => cases hne
    | «attribute» _ hn' => rw [hsame hn hn']
  | axis along test hn =>
    cases h' with
    | operand hne => cases hne
    | axis _ _ hn' => rw [hsame hn hn']
  | path _ hr ih =>
    obtain ⟨hs, hp⟩ := Leaf.definite_append he
    cases h' with
    | operand hne => cases hne
    | path h' hr' =>
      obtain rfl := ih hs h'
      rw [List.right_unique_forall₂' (fun o a b ha hb => ?_) hr hr']
      refine ha.unique (fun p hin n k size b b' => sessionless_truth_unique fun l hl => ?_) hb
      exact hp l (leavesOfAll_eq _ ▸ List.mem_flatMap.mpr ⟨p, hin, hl⟩)
  | filter _ hp ih =>
    obtain ⟨hb, hpd⟩ := Leaf.definite_append he
    cases h' with
    | operand hne => cases hne
    | filter h' hp' =>
      obtain rfl := ih hb h'
      exact hp.unique (fun n k b b' => sessionless_truth_unique hpd) hp'
  | set _ _ ihl ihr =>
    obtain ⟨hl, hr⟩ := Leaf.definite_append he
    cases h' with
    | operand hne => cases hne
    | set hl' hr' => rw [ihl hl hl', ihr hr hr']
  | distinct _ hf ih =>
    cases h' with
    | operand hne => cases hne
    | distinct h' hf' =>
      obtain rfl := ih he h'
      exact hf.unique (sessionless_textBy_unique nofun) hf'
  | distinctBy _ hf ih =>
    obtain ⟨hb, hk⟩ := Leaf.definite_append he
    cases h' with
    | operand hne => cases hne
    | distinctBy h' hf' =>
      obtain rfl := ih hb h'
      refine hf.unique (sessionless_textBy_unique ?_) hf'
      rintro _ ⟨⟩
      exact hk
  | sorted _ ih =>
    cases h' with
    | operand hne => cases hne
    | sorted h' => exact ih (Leaf.definite_append he).1 h'
  | empty => exact hvalue he rfl .empty h'
  | single => exact hvalue he rfl .single h'
  | extent => exact hvalue he rfl .extent h'
  | kept hk => exact hvalue he rfl (.kept hk) h'
  | lazy hd => exact hvalue he rfl (.lazy hd) h'
  | operand hne hv hsel => exact hvalue he hne (.operand hne hv hsel) h'

end Oracle

end PathLanguage
