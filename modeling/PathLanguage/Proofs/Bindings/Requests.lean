/- Runs of evaluations that share one table of variables. After each of them no variable is left
marked: it has the definition it began with, or a value that stays. -/
import PathLanguage.Proofs.Bindings.Evaluation
import PathLanguage.Proofs.NodeSet.Observation

namespace PathLanguage

/-- What may be asked of a transformation from outside; cursors can be opened, read now and then,
and given up. -/
inductive Request where
  | value (e : Expr) (c : Context)
  | boolean (e : Expr) (c : Context)
  | number (e : Expr) (c : Context)
  | string (e : Expr) (c : Context)
  | nodeSet (e : Expr) (c : Context)
  | reduce (mask : Dependencies) (e : Expr) (c : Context)
  | «open» (e : Expr) (c : Context) (sort : Bool)
  | next (c : Cursor)
  | size (c : Cursor)
  | drain (c : Cursor)
  | ask (ns : NodeSet) (q : Question)
  | convert (v : Value) (type : DataType)
  | compare (a : Value) (op : Comparison) (b : Value)
  | «variable» (b : Binding) (c : Context)
  | search (name : ExpandedName) (text : String) (root : Node) (c : Context)
  | «match» (p : Pattern) (n : Node) (c : Context)
  | load (uri : String)

namespace Request

/-- Meets one request, whatever its outcome. -/
def run (T : Transformation) (E : Engine) : Request → StateM Session Unit
  | value e c => discard (E.value e c).attempt
  | boolean e c => discard (E.boolean e c).attempt
  | number e c => discard (E.number e c).attempt
  | string e c => discard (E.string e c).attempt
  | nodeSet e c => discard (E.nodeSet e c).attempt
  | reduce mask e c => discard (E.reduce mask e c).attempt
  | «open» e c sort => discard (E.cursor e c sort).attempt
  | next c => discard (E.next c)
  | size c => discard (E.size c)
  | drain c => discard (E.drain c).attempt
  | ask ns q => discard (ns.ask T E q).attempt
  | convert v type => discard (v.convert T E type).attempt
  | compare a op b => discard (a.compare T E op b).attempt
  | «variable» b c => discard (c.valueOf T E b).attempt
  | search name text root c => discard (E.search name text root c).attempt
  | «match» p n c => discard (p.accepts E n c).attempt
  | load uri => discard (Function.loadDocument T uri).attempt

/-- The session after requests, one after the other. -/
def after (T : Transformation) (depth : Nat) : List Request → Session → Session
  | [], s => s
  | r :: rest, s => after T depth rest ((r.run T (engine T depth)).run s).2

end Request

variable {T : Transformation} {E : Engine} {s t u : Session}

theorem Tidy.discard {α : Type} {m : StateM Session α} (h : Tidy m) : Tidy (discard m) :=
  fun s => h s

theorem Value.convert_tidy (hE : E.Tidy) (v : Value) (type : DataType) :
    (v.convert T E type).Tidy := by
  cases type with
  | boolean => exact (Value.asBoolean_tidy hE v).map _
  | number => exact (Value.asNumber_tidy hE v).map _
  | string => exact (Value.asString_tidy hE v).map _
  | _ => exact .pure v

theorem NodeSet.ask_tidy (hE : E.Tidy) (ns : NodeSet) (q : Question) : (ns.ask T E q).Tidy := by
  cases q with
  | enumerate => exact (members_tidy hE ns).map _
  | enumerateSorted sort =>
    exact (enumerateSorted_tidy hE ns sort).bind fun c => (hE.drain c).map _
  | count => exact (count_tidy hE ns).map _
  | first => exact (first_tidy hE ns).map _
  | string => exact (asString_tidy hE ns).map _
  | boolean => exact (asBoolean_tidy hE ns).map _
  | materialize => exact (materialize_tidy hE ns).map _
  | compare op v => exact (Value.compare_tidy hE _ op v).map _

namespace Request

theorem run_tidy (hE : E.Tidy) (r : Request) : Tidy (r.run T E) := by
  cases r with
  | value e c => exact (hE.value e c).discard
  | boolean e c => exact (hE.boolean e c).discard
  | number e c => exact (hE.number e c).discard
  | string e c => exact (hE.string e c).discard
  | nodeSet e c => exact (hE.nodeSet e c).discard
  | reduce mask e c => exact (hE.reduce mask e c).discard
  | «open» e c sort => exact (hE.cursor e c sort).discard
  | next c => exact (hE.next c).discard
  | size c => exact (hE.size c).discard
  | drain c => exact (hE.drain c).discard
  | ask ns q => exact (NodeSet.ask_tidy hE ns q).discard
  | convert v type => exact (Value.convert_tidy hE v type).discard
  | compare a op b => exact (Value.compare_tidy hE a op b).discard
  | «variable» b c => exact (c.valueOf_tidy hE b).discard
  | search name text root c => exact (hE.search name text root c).discard
  | «match» p n c => exact (Pattern.accepts_tidy hE p n c).discard
  | load uri => exact (Function.loadDocument_tidy uri).discard

/-- A run of requests leaves every variable as it was or computed. -/
theorem after_settles (hosts : T.functions.Tidy) (depth : Nat) (rs : List Request) (s : Session) :
    s.Settles (after T depth rs s) := by
  induction rs generalizing s with
  | nil => exact .refl s
  | cons r rest ih =>
    have hstep := run_tidy (T := T) (engine_tidy hosts depth) r s
    exact hstep.trans (ih _)

end Request

/-- The sessions that are met from one on, in the midst of an evaluation as well as after it, as
far as the variables go: a computation may be over, or that of a pending variable begin. -/
inductive Session.Meets (s : Session) : Session → Prop
  | start : s.Meets s
  | ended {u t : Session} (h : s.Meets u) (ht : u.Settles t) : s.Meets t
  | begun {u : Session} {name : ExpandedName} {definition : Expr} (h : s.Meets u)
    (hu : u.slot? name = some (.pending definition)) : s.Meets (u.setSlot name .evaluating)

namespace Session.Meets

variable {name : ExpandedName}

theorem evaluated (h : s.Meets t) {v : Value} (hs : s.slot? name = some (.evaluated v)) :
    t.slot? name = some (.evaluated v) := by
  induction h with
  | start => exact hs
  | ended h ht ih => exact ht.evaluated ih
  | @begun u other d h hu ih =>
    have hne : name ≠ other := by
      rintro rfl
      rw [ih] at hu
      cases hu
    rw [slot?_setSlot_ne u hne]
    exact ih

/-- The mark of a computation under way is still there whatever is computed meanwhile. -/
theorem evaluating (h : s.Meets t) (hs : s.slot? name = some .evaluating) :
    t.slot? name = some .evaluating := by
  induction h with
  | start => exact hs
  | ended h ht ih => exact ht.evaluating ih
  | @begun u other d h hu ih =>
    have hne : name ≠ other := by
      rintro rfl
      rw [ih] at hu
      cases hu
    rw [slot?_setSlot_ne u hne]
    exact ih

theorem of_pending (h : s.Meets t) {d : Expr} (ht : t.slot? name = some (.pending d)) :
    s.slot? name = some (.pending d) := by
  induction h with
  | start => exact ht
  | ended h hu ih => exact ih (hu.of_pending ht)
  | @begun u other d' h hu ih =>
    have hne : name ≠ other := by
      rintro rfl
      rw [slot?_setSlot_self] at ht
      cases ht
    rw [slot?_setSlot_ne u hne] at ht
    exact ih ht

end Session.Meets

/-- What the evaluation of a pending variable comes to: its definition is evaluated under the mark,
and the outcome takes the place of the mark. -/
structure Computes (T : Transformation) (E : Engine) (name : ExpandedName) (d : Expr)
    (s : Session) : Prop where
  outcome : ((globalValue T E name).attempt.run s).1 =
    ((E.value d T.globalContext).attempt.run (s.setSlot name .evaluating)).1
  settles : s.Settles ((globalValue T E name).attempt.run s).2
  ok : ∀ v t, (globalValue T E name).attempt.run s = (.ok v, t) →
    t.slot? name = some (.evaluated v)
  error : ∀ f t, (globalValue T E name).attempt.run s = (.error f, t) →
    t.slot? name = some (.pending d)

theorem computes_of_pending (hE : E.Tidy) {name : ExpandedName} {d : Expr}
    (hs : s.slot? name = some (.pending d)) : Computes T E name d s := by
  refine ⟨?_, globalValue_tidy hE name s, fun v t h => ?_, fun f t h => ?_⟩
  · rw [globalValue_pending hs, guarded_run]
    generalize (E.value d T.globalContext).attempt.run (s.setSlot name .evaluating) = result
    obtain ⟨r, t⟩ := result
    cases r <;> rfl
  · rw [globalValue_pending hs] at h
    exact guarded_ok h
  · rw [globalValue_pending hs] at h
    exact guarded_error h

/-- After any requests no variable is marked, and each has its first definition or has been
computed. From then on, and in the midst of whatever is evaluated: a pending variable has its first
definition, which is evaluated under a mark and stays if that fails; a value stays, and references
give it without an evaluation; a reference to a marked variable is circular. -/
theorem Request.variables_kept (hosts : T.functions.Tidy) (depth : Nat) (hs : s.Idle)
    (rs : List Request) :
    (after T depth rs s).Idle ∧ s.Settles (after T depth rs s) ∧
      ∀ u, (after T depth rs s).Meets u →
        (∀ name d, u.slot? name = some (.pending d) → s.slot? name = some (.pending d) ∧
          ∀ n, Computes T (engine T n) name d u) ∧
        (∀ name v, u.slot? name = some (.evaluated v) → ∀ t, u.Meets t →
          t.slot? name = some (.evaluated v) ∧
            ∀ E, (globalValue T E name).attempt.run t = (.ok v, t)) ∧
        (∀ name, u.slot? name = some .evaluating → ∀ t, u.Meets t →
          ∀ E, (globalValue T E name).attempt.run t = (.error (.circularVariable name), t)) := by
  have hsettles := after_settles hosts depth rs s
  refine ⟨hsettles.idle hs, hsettles, fun u hu => ⟨?_, ?_, ?_⟩⟩
  · intro name d hd
    have hstart := hsettles.of_pending (hu.of_pending hd)
    exact ⟨hstart, fun n => computes_of_pending (engine_tidy hosts n) hd⟩
  · intro name v hv t ht
    have hkept := ht.evaluated hv
    exact ⟨hkept, fun E => globalValue_evaluated hkept⟩
  · intro name hname t ht E
    exact globalValue_evaluating (ht.evaluating hname)

/-- A host function that gives the text of its first argument. -/
def HostFunction.echo : HostFunction
  | call, v :: _ => return .string (← call.asString v)
  | _, [] => return .string ""

/-- A transformation to which the host adds that function. -/
def Transformation.echoing : Transformation :=
  { functions := .register {} (.unqualified "echo") 0 none .echo }

theorem Transformation.echoing_tidy : echoing.functions.Tidy := by
  intro o ho call args h
  obtain rfl := List.mem_singleton.mp ho
  cases args with
  | nil => exact .pure _
  | cons v rest => exact (h.asString v).map _

/-- Variables `a` and `b`, which refer to each other, and `c`, which the host function computes. -/
def Session.cyclic : Session :=
  { globals := [
      (.unqualified "a", .pending (.reference ⟨.unqualified "b", true, none⟩)),
      (.unqualified "b", .pending (.reference ⟨.unqualified "a", true, none⟩)),
      (.unqualified "c", .pending (.extension (.unqualified "echo") [.value (.string "x")]))] }

theorem Session.cyclic_idle : cyclic.Idle := by
  intro name h
  simp only [slot?, cyclic, List.lookup_cons, List.lookup_nil] at h
  split at h
  · cases h
  split at h
  · cases h
  split at h <;> cases h

/-- After references to `a` and `c` the former is pending as before and the latter computed. -/
theorem Request.variables_kept_of_cycle :
    let request := fun name => «variable» ⟨.unqualified name, true, none⟩ .blank
    let t := after .echoing 9 [request "a", request "c"] .cyclic
    Transformation.echoing.functions.Tidy ∧ Session.cyclic.Idle ∧ t.Idle ∧
      Computes .echoing (engine .echoing 9) (.unqualified "a")
        (.reference ⟨.unqualified "b", true, none⟩) t ∧
      ∀ E, (globalValue .echoing E (.unqualified "c")).attempt.run t = (.ok (.string "x"), t) := by
  intro request t
  have hkept := variables_kept Transformation.echoing_tidy 9 Session.cyclic_idle
    [request "a", request "c"]
  obtain ⟨hidle, -, hmet⟩ := hkept
  obtain ⟨hpending, hevaluated, -⟩ := hmet t .start
  refine ⟨Transformation.echoing_tidy, Session.cyclic_idle, hidle, ?_, ?_⟩
  · exact (hpending _ _ rfl).2 9
  · exact (hevaluated _ _ rfl t .start).2

end PathLanguage
