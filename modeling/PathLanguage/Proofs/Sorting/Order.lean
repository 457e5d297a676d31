/- The order of key values is a linear one: that of numbers with NaN below all of them, that of
texts in lower case and then as they are written, either of them in one of the two directions. -/
import Mathlib
import PathLanguage.Evaluation.Sorting
import PathLanguage.Proofs.Number.Order

namespace PathLanguage

namespace KeyValue

section Lexicographic

variable {α β : Type} {o p : Ordering}

/-- Two pairs compare by their second parts once the first ones are alike. -/
theorem compares_pair [LT α] [LT β] {a b : α} {x y : β} (h : o.Compares a b)
    (hp : p.Compares x y) : (o.then p).Compares (toLex (a, x)) (toLex (b, y)) := by
  cases o with
  | lt => exact Prod.Lex.toLex_lt_toLex.mpr (.inl h)
  | gt => exact Prod.Lex.toLex_lt_toLex.mpr (.inl h)
  | eq =>
    obtain rfl : a = b := h
    cases p with
    | lt => exact Prod.Lex.toLex_lt_toLex.mpr (.inr ⟨rfl, hp⟩)
    | gt => exact Prod.Lex.toLex_lt_toLex.mpr (.inr ⟨rfl, hp⟩)
    | eq => exact congrArg (fun z => toLex (a, z)) hp

/-- Two lists compare by what follows once the first elements are alike. -/
theorem compares_cons [LT α] {a b : α} {as bs : List α} (h : o.Compares a b)
    (hp : p.Compares as bs) : (o.then p).Compares (a :: as) (b :: bs) := by
  cases o with
  | lt => exact List.cons_lt_cons_iff.mpr (.inl h)
  | gt => exact List.cons_lt_cons_iff.mpr (.inl h)
  | eq =>
    obtain rfl : a = b := h
    cases p with
    | lt => exact List.cons_lt_cons_iff.mpr (.inr ⟨rfl, hp⟩)
    | gt => exact List.cons_lt_cons_iff.mpr (.inr ⟨rfl, hp⟩)
    | eq => exact congrArg (a :: ·) hp

theorem compares_compare [LinearOrder α] (a b : α) : (compare a b).Compares a b := by
  rw [← cmp_eq_compare]
  exact cmp_compares a b

end Lexicographic

/-- The place of a number among all of them; NaN comes first. -/
def numberPlace (n : Number) : WithBot (ℤ ×ₗ ℤ) := if n.isNaN then ⊥ else ↑n.rank

/-- Whether a character comes after those of upper case. -/
def belowUpper (c : Char) : ℤ := if Text.isUppercase c then 0 else 1

/-- The place of a character among those of a text as it is written: upper case before the rest
and then by code, or all of it the other way round. -/
def letterPlace : CaseOrder → Char → ℤ ×ₗ ℤ
  | .upperFirst, c => toLex (belowUpper c, c.toNat)
  | .lowerFirst, c => toLex (-belowUpper c, -c.toNat)

/-- What an ascending key compares: the place of a number, or a text in lower case and then as it
is written. -/
abbrev Standing := WithBot (ℤ ×ₗ ℤ) ⊕ₗ (List ℕ ×ₗ List (ℤ ×ₗ ℤ))

def standing (caseOrder : CaseOrder) : KeyValue → Standing
  | .number n => toLex (.inl (numberPlace n))
  | .text folded raw => toLex (.inr (toLex (folded.map Char.toNat, raw.map (letterPlace caseOrder))))

/-- What a key compares; a descending one goes through the same values from the last. -/
abbrev KeyPlace := Standing ⊕ₗ Standingᵒᵈ

def place (rule : SortRule) (v : KeyValue) : KeyPlace :=
  match rule.direction with
  | .ascending => toLex (.inl (v.standing rule.caseOrder))
  | .descending => toLex (.inr (OrderDual.toDual (v.standing rule.caseOrder)))

/-- What the keys of one node come to; the first difference decides between two nodes. -/
def places (rules : List SortRule) (vs : List KeyValue) : List KeyPlace := rules.zipWith place vs

/-- Two numbers that are no NaN compare as their ranks do. -/
theorem cmp?_compares {a b : Number} (ha : a.isNaN = false) (hb : b.isNaN = false) {o : Ordering}
    (h : a.cmp? b = some o) : o.Compares a.rank b.rank := by
  have hlt : o = .lt ↔ a.rank < b.rank := by
    simpa [Number.lt, h, ha, hb] using Number.lt_iff (a := a) (b := b)
  have hle : o = .lt ∨ o = .eq ↔ a.rank ≤ b.rank := by
    simpa [Number.le, h, ha, hb] using Number.le_iff (a := a) (b := b)
  cases o with
  | lt => exact hlt.mp rfl
  | eq => exact (hle.mp (.inr rfl)).eq_of_not_lt fun hr => by cases hlt.mpr hr
  | gt => exact not_le.mp fun hr => by rcases hle.mpr hr with h | h <;> cases h

theorem orderNumbers_compares (a b : Number) :
    (orderNumbers a b).Compares (numberPlace a) (numberPlace b) := by
  cases ha : a.isNaN with
  | true =>
    cases hb : b.isNaN with
    | true => simp [orderNumbers, numberPlace, ha, hb]
    | false => simp [orderNumbers, numberPlace, ha, hb, WithBot.bot_lt_coe]
  | false =>
    cases hb : b.isNaN with
    | true => simp [orderNumbers, numberPlace, ha, hb, WithBot.bot_lt_coe]
    | false =>
      obtain ⟨o, ho⟩ : ∃ o, a.cmp? b = some o := by
        cases a with
        | nan => cases ha
        | infinite | finite =>
          cases b with
          | nan => cases hb
          | infinite | finite => exact ⟨_, rfl⟩
      have hrank := cmp?_compares ha hb ho
      simp only [orderNumbers, numberPlace, ha, hb, ho, Option.getD_some, Bool.false_eq_true,
        ite_false]
      exact WithBot.coe_strictMono.compares.mpr hrank

theorem orderChars_compares (as bs : List Char) :
    (orderChars as bs).Compares (as.map Char.toNat) (bs.map Char.toNat) := by
  induction as generalizing bs with
  | nil =>
    cases bs with
    | nil => rfl
    | cons b bs => exact List.nil_lt_cons _ _
  | cons a as ih =>
    cases bs with
    | nil => exact List.nil_lt_cons _ _
    | cons b bs => exact compares_cons (compares_compare _ _) (ih bs)

/-- The order of two characters of texts as they are written. -/
def orderLetters (caseOrder : CaseOrder) (a b : Char) : Ordering :=
  let upperFirst := match Text.isUppercase a, Text.isUppercase b with
    | true, false => .lt
    | false, true => .gt
    | _, _ => compare a.toNat b.toNat
  match caseOrder with
  | .upperFirst => upperFirst
  | .lowerFirst => upperFirst.swap

theorem orderLetters_upperFirst (a b : Char) : orderLetters .upperFirst a b =
    (compare (belowUpper a) (belowUpper b)).then (compare a.toNat b.toNat) := by
  cases ha : Text.isUppercase a <;> cases hb : Text.isUppercase b <;>
    simp [orderLetters, belowUpper, ha, hb] <;> rfl

theorem orderLetters_lowerFirst (a b : Char) :
    orderLetters .lowerFirst a b = (orderLetters .upperFirst a b).swap := rfl

theorem orderLetters_compares (caseOrder : CaseOrder) (a b : Char) :
    (orderLetters caseOrder a b).Compares (letterPlace caseOrder a) (letterPlace caseOrder b) := by
  have hcase := compares_compare (belowUpper a) (belowUpper b)
  have hcast : StrictMono (fun n : ℕ => (n : ℤ)) := fun _ _ => Int.ofNat_lt.mpr
  have hcode : (compare a.toNat b.toNat).Compares (a.toNat : ℤ) b.toNat :=
    hcast.compares.mpr (compares_compare a.toNat b.toNat)
  have hneg : StrictAnti (fun z : ℤ => -z) := fun _ _ => Int.neg_lt_neg
  cases caseOrder with
  | upperFirst =>
    rw [orderLetters_upperFirst]
    exact compares_pair hcase hcode
  | lowerFirst =>
    rw [orderLetters_lowerFirst, orderLetters_upperFirst, Ordering.swap_then]
    exact compares_pair (hneg.compares.mpr (Ordering.compares_swap.mpr hcase))
      (hneg.compares.mpr (Ordering.compares_swap.mpr hcode))

theorem letterPlace_injective (caseOrder : CaseOrder) :
    Function.Injective (letterPlace caseOrder) := by
  intro a b h
  have hcode : a.toNat = b.toNat := by
    cases caseOrder with
    | upperFirst => exact Int.ofNat_inj.mp (congrArg (fun p => (ofLex p).2) h)
    | lowerFirst => exact Int.ofNat_inj.mp (Int.neg_inj.mp (congrArg (fun p => (ofLex p).2) h))
  exact Char.toNat_inj.mp hcode

/-- The first two characters that differ decide between two texts as they are written. -/
theorem orderCase_cons (caseOrder : CaseOrder) (a b : Char) (as bs : List Char) :
    orderCase caseOrder (a :: as) (b :: bs) =
      (orderLetters caseOrder a b).then (orderCase caseOrder as bs) := by
  have heq : orderLetters caseOrder a b = .eq ↔ a = b :=
    (orderLetters_compares caseOrder a b).eq_eq.trans (letterPlace_injective caseOrder).eq_iff
  by_cases hab : a = b
  · rw [heq.mpr hab, orderCase, if_pos (beq_iff_eq.mpr hab)]
    rfl
  · have hne : orderLetters caseOrder a b ≠ .eq := mt heq.mp hab
    rw [orderCase, if_neg (mt beq_iff_eq.mp hab)]
    change orderLetters caseOrder a b = _
    cases ho : orderLetters caseOrder a b with
    | lt | gt => rfl
    | eq => exact absurd ho hne

theorem orderCase_compares (caseOrder : CaseOrder) (as bs : List Char) :
    (orderCase caseOrder as bs).Compares (as.map (letterPlace caseOrder))
      (bs.map (letterPlace caseOrder)) := by
  induction as generalizing bs with
  | nil =>
    cases bs with
    | nil => rfl
    | cons b bs => exact List.nil_lt_cons _ _
  | cons a as ih =>
    cases bs with
    | nil => exact List.nil_lt_cons _ _
    | cons b bs =>
      rw [orderCase_cons]
      exact compares_cons (orderLetters_compares caseOrder a b) (ih bs)

/-- The value is of the kind that its key compares. -/
def Fits (rule : SortRule) : KeyValue → Prop
  | .number _ => rule.type = .number
  | .text _ _ => rule.type = .text

/-- Values of the kinds that keys compare, one for each. -/
abbrev FitAll (rules : List SortRule) (vs : List KeyValue) : Prop :=
  List.Forall₂ (fun rule v => Fits rule v) rules vs

variable {rule : SortRule} {rules : List SortRule}

/-- A direction compares the places as it does the values. -/
theorem place_compares {a b : KeyValue} {o : Ordering}
    (h : o.Compares (a.standing rule.caseOrder) (b.standing rule.caseOrder))
    (hascending : rule.direction = .ascending → order rule a b = o)
    (hdescending : rule.direction = .descending → order rule a b = o.swap) :
    (order rule a b).Compares (place rule a) (place rule b) := by
  cases hd : rule.direction with
  | ascending =>
    rw [hascending hd]
    simp only [place, hd]
    exact Sum.Lex.inl_strictMono.compares.mpr h
  | descending =>
    rw [hdescending hd]
    simp only [place, hd]
    exact Sum.Lex.inr_strictMono.compares.mpr
      (toDual_compares_toDual.mpr (Ordering.compares_swap.mpr h))

theorem order_compares {a b : KeyValue} (ha : a.Fits rule) (hb : b.Fits rule) :
    (order rule a b).Compares (place rule a) (place rule b) := by
  cases a with
  | number x =>
    cases b with
    | number y =>
      exact place_compares (Sum.Lex.inl_strictMono.compares.mpr (orderNumbers_compares x y))
        (fun hd => by simp only [order, hd]) (fun hd => by simp only [order, hd])
    | text fb rb => cases ha.symm.trans hb
  | text fa ra =>
    cases b with
    | number y => cases ha.symm.trans hb
    | text fb rb =>
      have htexts := compares_pair (orderChars_compares fa fb)
        (orderCase_compares rule.caseOrder ra rb)
      exact place_compares (Sum.Lex.inr_strictMono.compares.mpr htexts)
        (fun hd => by simp only [order, hd]) (fun hd => by simp only [order, hd])

theorem orderAll_compares {as bs : List KeyValue} (ha : FitAll rules as) (hb : FitAll rules bs) :
    (orderAll rules as bs).Compares (places rules as) (places rules bs) := by
  induction ha generalizing bs with
  | nil => rfl
  | cons ha _ ih =>
    cases hb with
    | cons hb hbs => exact compares_cons (order_compares ha hb) (ih hbs)

end KeyValue

end PathLanguage
