/- The table of global variables, and computations that leave it in order: when they are over, with
a result or a fault, every variable is as it was or has been computed. -/
import PathLanguage.Evaluation
import PathLanguage.Proofs.Session.Returns

namespace PathLanguage

/-- What a computation that is over may have done to a variable: nothing, or computed its value. -/
inductive Slot.Settles : Option Slot → Option Slot → Prop
  | same (slot : Option Slot) : Settles slot slot
  | computed (definition : Expr) (v : Value) :
    Settles (some (.pending definition)) (some (.evaluated v))

theorem Slot.Settles.trans {a b c : Option Slot} (h : Settles a b) (h' : Settles b c) :
    Settles a c := by
  cases h with
  | same => exact h'
  | computed definition v =>
    cases h' with
    | same => exact .computed definition v

namespace Session

/-- Every variable of one session settles to what it is in the other. -/
def Settles (s t : Session) : Prop := ∀ name, Slot.Settles (s.slot? name) (t.slot? name)

/-- No variable is being computed. -/
def Idle (s : Session) : Prop := ∀ name, s.slot? name ≠ some .evaluating

variable {s t u : Session} {name : ExpandedName}

namespace Settles

theorem refl (s : Session) : s.Settles s := fun _ => .same _

theorem trans (h : s.Settles t) (h' : t.Settles u) : s.Settles u :=
  fun name => (h name).trans (h' name)

/-- Changes of anything else leave the variables as they are. -/
theorem of_globals (h : t.globals = s.globals) : s.Settles t := by
  intro name
  have heq : t.slot? name = s.slot? name := congrArg (List.lookup name) h
  rw [heq]
  exact .same _

theorem evaluated (h : s.Settles t) {v : Value} (hs : s.slot? name = some (.evaluated v)) :
    t.slot? name = some (.evaluated v) := by
  have hn := h name
  rw [hs] at hn
  generalize t.slot? name = slot at hn ⊢
  cases hn
  rfl

theorem evaluating (h : s.Settles t) (hs : s.slot? name = some .evaluating) :
    t.slot? name = some .evaluating := by
  have hn := h name
  rw [hs] at hn
  generalize t.slot? name = slot at hn ⊢
  cases hn
  rfl

theorem of_evaluating (h : s.Settles t) (ht : t.slot? name = some .evaluating) :
    s.slot? name = some .evaluating := by
  have hn := h name
  rw [ht] at hn
  generalize s.slot? name = slot at hn ⊢
  cases hn
  rfl

/-- A pending variable was pending before, with the same definition. -/
theorem of_pending (h : s.Settles t) {d : Expr} (ht : t.slot? name = some (.pending d)) :
    s.slot? name = some (.pending d) := by
  have hn := h name
  rw [ht] at hn
  generalize s.slot? name = slot at hn ⊢
  cases hn
  rfl

theorem idle (h : s.Settles t) (hs : s.Idle) : t.Idle :=
  fun name ht => hs name (h.of_evaluating ht)

end Settles

end Session

/-- A computation that leaves the variables of every session settled. -/
def Tidy {α : Type} (m : StateM Session α) : Prop := ∀ s : Session, s.Settles (m.run s).2

/-- An action that leaves them settled, whatever its outcome. -/
def Action.Tidy {α : Type} (a : Action α) : Prop := PathLanguage.Tidy a.attempt

section

variable {α β : Type}

namespace Tidy

theorem pure (x : α) : Tidy (pure x) := fun s => .refl s

theorem bind {m : StateM Session α} {f : α → StateM Session β} (h : Tidy m)
    (hf : ∀ x, Tidy (f x)) : Tidy (m >>= f) :=
  fun s => (h s).trans (hf _ _)

end Tidy

namespace Action.Tidy

theorem pure (x : α) : (Pure.pure x : Action α).Tidy := fun s => .refl s

theorem throw (f : Fault) : (MonadExcept.throw f : Action α).Tidy := fun s => .refl s

theorem fail (f : Fault) : (Action.fail f : Action α).Tidy := throw f

theorem throw_bind (f : Fault) (g : α → Action β) :
    ((MonadExcept.throw f : Action α) >>= g).Tidy :=
  fun s => .refl s

theorem ofExcept (r : Except Fault α) : (Action.ofExcept r).Tidy := by
  cases r with
  | ok x => exact pure x
  | error f => exact throw f

theorem bind {a : Action α} {f : α → Action β} (h : a.Tidy) (hf : ∀ x, (f x).Tidy) :
    (a >>= f).Tidy := by
  change PathLanguage.Tidy (a.attempt >>= ExceptT.bindCont f)
  apply PathLanguage.Tidy.bind h
  intro r
  cases r with
  | ok x => exact hf x
  | error e => exact throw e

/-- Goes on with a function of the result. -/
theorem map {a : Action α} (h : a.Tidy) (f : α → β) : (do return f (← a) : Action β).Tidy :=
  h.bind fun x => pure (f x)

/-- Reads the session. -/
theorem get {f : Session → Action β} (h : ∀ s, (f s).Tidy) : (do f (← MonadState.get)).Tidy :=
  fun s => h s s

/-- Changes the session, though not its variables. -/
theorem update {f : Session → α × Session} (h : ∀ s, (f s).2.globals = s.globals) :
    (Action.update f).Tidy :=
  fun s => .of_globals (h s)

theorem modify {f : Session → Session} (h : ∀ s, (f s).globals = s.globals) :
    (modify f : Action PUnit).Tidy :=
  fun s => .of_globals (h s)

/-- A computation that cannot fail, as part of an action. -/
theorem lift {m : StateM Session α} (h : PathLanguage.Tidy m) : (liftM m : Action α).Tidy := h

theorem outcome {a : Action α} (h : a.Tidy) : a.outcome.Tidy := h

theorem ite {p : Prop} [Decidable p] {a b : Action α} (ha : a.Tidy) (hb : b.Tidy) :
    (if p then a else b).Tidy := by
  by_cases h : p
  · rw [if_pos h]
    exact ha
  · rw [if_neg h]
    exact hb

end Action.Tidy

end

/-- The conversions that a host function may use are tidy. -/
structure HostCall.Tidy (call : HostCall) : Prop where
  asString : ∀ v, (call.asString v).Tidy
  asNumber : ∀ v, (call.asNumber v).Tidy
  asBoolean : ∀ v, (call.asBoolean v).Tidy
  firstNode : ∀ ns, (call.firstNode ns).Tidy

/-- Host functions reach the variables through these conversions only. -/
def FunctionLibrary.Tidy (l : FunctionLibrary) : Prop :=
  ∀ o ∈ l.overloads, ∀ call args, call.Tidy → (o.run call args).Tidy

/-- An engine all of whose evaluations are tidy. -/
structure Engine.Tidy (E : Engine) : Prop where
  value : ∀ e c, (E.value e c).Tidy
  boolean : ∀ e c, (E.boolean e c).Tidy
  number : ∀ e c, (E.number e c).Tidy
  string : ∀ e c, (E.string e c).Tidy
  nodeSet : ∀ e c, (E.nodeSet e c).Tidy
  cursor : ∀ e c sort, (E.cursor e c sort).Tidy
  reduce : ∀ mask e c, (E.reduce mask e c).Tidy
  next : ∀ c, PathLanguage.Tidy (E.next c)
  size : ∀ c, PathLanguage.Tidy (E.size c)
  drain : ∀ c, (E.drain c).Tidy
  find : ∀ test c, (E.find test c).Tidy
  search : ∀ name value root c, (E.search name value root c).Tidy

namespace Engine.Tidy

variable {E : Engine}

theorem pull (h : E.Tidy) (c : Cursor) : (E.pull c).Tidy := by
  apply Action.Tidy.bind (.lift (h.next c))
  intro p
  cases p.outcome with
  | ok n => exact .pure _
  | error f => exact .throw f

theorem head (h : E.Tidy) (c : Cursor) : (E.head c).Tidy := (h.pull c).map _

theorem extent (h : E.Tidy) (c : Cursor) : (E.extent c).Tidy := (h.drain c).map _

theorem sortedCursor (h : E.Tidy) (c : Cursor) : (E.sortedCursor c).Tidy := by
  apply Action.Tidy.ite (.pure c)
  apply (h.extent c).bind
  intro e
  exact (Action.Tidy.ofExcept e.sort).map _

theorem exhausted : Engine.exhausted.Tidy where
  value _ _ := .fail _
  boolean _ _ := .fail _
  number _ _ := .fail _
  string _ _ := .fail _
  nodeSet _ _ := .fail _
  cursor _ _ _ := .fail _
  reduce _ _ _ := .fail _
  next _ := .pure _
  size _ := .pure _
  drain _ := .fail _
  find _ _ := .fail _
  search _ _ _ _ := .fail _

end Engine.Tidy

end PathLanguage
