/- Calls of system functions and searches of keys in contexts that differ in a position or a size to
which they are indifferent. -/
import PathLanguage.Proofs.Placement.Reduction

namespace PathLanguage

open Dependencies

/-- Contexts that differ in the position and the size at most, and not in what `d` asks for. -/
structure Context.Like (d : Dependencies) (c c' : Context) : Prop where
  node? : c.node? = c'.node?
  current? : c.current? = c'.current?
  locals : c.locals = c'.locals
  position : d.position = true → c.position = c'.position
  last : d.last = true → c.last = c'.last

namespace Context

variable {c c' : Context} {d d' : Dependencies}

theorem Like.mono (h : Like d c c') (hd : d'.PlacedIn d) : Like d' c c' :=
  ⟨h.node?, h.current?, h.locals, fun hp => h.position (hd.position hp),
    fun hl => h.last (hd.last hl)⟩

theorem Like.ambient (h : Like d c c') : c.ambient = c'.ambient := by
  simp [Context.ambient, h.current?, h.locals]

theorem Like.node (h : Like d c c') : c.node = c'.node := by
  simp only [Context.node, h.node?]

theorem Like.current (h : Like d c c') : c.current = c'.current := by
  simp only [Context.current, h.current?]

theorem Like.eq (h : Like d c c') (hp : d.position = true) (hl : d.last = true) : c = c' := by
  cases c
  cases c'
  obtain ⟨rfl, rfl, rfl, hp', hl'⟩ := h
  obtain rfl := hp' hp
  obtain rfl := hl' hl
  rfl

theorem withFocus_ambient (c : Context) (n : Node) (position last : Nat) :
    c.ambient.withFocus n position last = c.withFocus n position last := rfl

theorem Like.withFocus (h : Like d c c') (n : Node) (position last : Nat) :
    c.withFocus n position last = c'.withFocus n position last := by
  rw [← withFocus_ambient c, h.ambient, withFocus_ambient]

/-- The place of a node in focus matters only to what asks for it. -/
theorem like_withFocus (c : Context) (n : Node) {p p' l l' : Nat}
    (hp : d.position = true → p = p') (hl : d.last = true → l = l') :
    Like d (c.withFocus n p l) (c.withFocus n p' l') :=
  ⟨rfl, rfl, rfl, hp, hl⟩

end Context

/-- An engine to which the position and the size do not matter where they are not asked for. -/
structure Engine.Unplaced (E : Engine) : Prop where
  value : ∀ {e c c'}, Context.Like e.dependencies c c' → E.value e c = E.value e c'
  boolean : ∀ {e c c'}, Context.Like e.dependencies c c' → E.boolean e c = E.boolean e c'
  number : ∀ {e c c'}, Context.Like e.dependencies c c' → E.number e c = E.number e c'
  string : ∀ {e c c'}, Context.Like e.dependencies c c' → E.string e c = E.string e c'
  nodeSet : ∀ {e c c'}, Context.Like e.dependencies c c' → E.nodeSet e c = E.nodeSet e c'
  cursor : ∀ {e c c'} sort, Context.Like e.dependencies c c' →
    E.cursor e c sort = E.cursor e c' sort
  reduce : ∀ {mask e c c'}, Context.Like (e.dependencies ∩ mask) c c' →
    E.reduce mask e c = E.reduce mask e c'
  search : ∀ name value root c, E.search name value root c.ambient = E.search name value root c

variable {T : Transformation} {E : Engine}

namespace Pattern

theorem passes_ambient (s : PatternStep) (n : Node) (c : Context) :
    passes E s n c.ambient = passes E s n c := rfl

theorem accepts_ambient (p : Pattern) (n : Node) (c : Context)
    (h : ∀ name value root, E.search name value root c.ambient = E.search name value root c) :
    accepts E p n c.ambient = accepts E p n c := by
  induction p generalizing n with
  | document => rfl
  | test t => rfl
  | step s => rfl
  | under connector upper s ih =>
    simp only [accepts, passes_ambient, ih]
  | id ids => rfl
  | key name value => simp only [accepts, h]
  | union a b iha ihb => simp only [accepts, iha, ihb]

end Pattern

namespace Key

theorem enterNode_ambient (c : Context)
    (h : ∀ name value root, E.search name value root c.ambient = E.search name value root c)
    (n : Node) (ds : List KeyDefinition) (es : Entries) :
    enterNode T E c.ambient n ds es = enterNode T E c n ds es := by
  induction ds generalizing es with
  | nil => rfl
  | cons d ds ih =>
    simp only [enterNode, Pattern.accepts_ambient d.pattern n c h, ih]
    rfl

theorem enterNodes_ambient (c : Context)
    (h : ∀ name value root, E.search name value root c.ambient = E.search name value root c)
    (ds : List KeyDefinition) (ns : List Node) (es : Entries) :
    enterNodes T E c.ambient ds ns es = enterNodes T E c ds ns es := by
  induction ns generalizing es with
  | nil => rfl
  | cons n ns ih => simp only [enterNodes, enterNode_ambient c h, ih]

theorem search_ambient (c : Context)
    (h : ∀ name value root, E.search name value root c.ambient = E.search name value root c)
    (name : ExpandedName) (value : String) (root : Node) :
    search T E name value root c.ambient = search T E name value root c := by
  simp only [search, enterNodes_ambient c h]

end Key

namespace Function

theorem searchAll_ambient (hE : E.Unplaced) (name : ExpandedName) (root : Node) (c : Context)
    (values : List String) :
    searchAll E name root c.ambient values = searchAll E name root c values := by
  induction values with
  | nil => rfl
  | cons v values ih => simp only [searchAll, hE.search, ih]

theorem byKey_ambient (hE : E.Unplaced) (name : String) (v : Value) (scope : Option Scope)
    (n : Node) (c : Context) : byKey T E name v scope n c.ambient = byKey T E name v scope n c := by
  simp only [byKey, searchAll_ambient hE]

namespace Call

/-- Calls that differ in their contexts only, in nothing that they ask for. -/
structure Like (k k' : Call) : Prop where
  function : k.function = k'.function
  args : k.args = k'.args
  bound : k.bound = k'.bound
  scope : k.scope = k'.scope
  context : Context.Like (Expr.call k.function k.args k.bound k.scope).dependencies k.context
    k'.context

variable {k k' : Call}

theorem Like.arg (h : k.Like k') (i : Nat) : k.arg i = k'.arg i := by
  simp only [Call.arg, h.args, h.function]

theorem Like.of_mem (h : k.Like k') {e : Expr} (he : e ∈ k.args) :
    Context.Like e.dependencies k.context k'.context :=
  h.context.mono ((placedIn_of_mem he).trans placedIn_union_right)

theorem Like.focus (h : k.Like k') : k.focus = k'.focus := by
  simp only [Call.focus, h.bound, h.context.node]

/-- Whatever is evaluated of an argument is the same for both. -/
theorem Like.evaluateArg {α : Type} (h : k.Like k') {evaluate : Expr → Context → Action α}
    (he : ∀ {e c c'}, Context.Like e.dependencies c c' → evaluate e c = evaluate e c') (i : Nat) :
    (do evaluate (← k.arg i) k.context) = (do evaluate (← k'.arg i) k'.context) := by
  rw [← h.arg i]
  refine Returns.bind_congr (P := fun e => e ∈ k.args) ?_ fun e hmem => he (h.of_mem hmem)
  unfold Call.arg
  split
  · next e hi => exact .pure (List.mem_of_getElem? hi)
  · exact .fail

theorem Like.stringArg (hE : E.Unplaced) (h : k.Like k') (i : Nat) :
    k.stringArg E i = k'.stringArg E i := h.evaluateArg hE.string i

theorem Like.numberArg (hE : E.Unplaced) (h : k.Like k') (i : Nat) :
    k.numberArg E i = k'.numberArg E i := h.evaluateArg hE.number i

theorem Like.booleanArg (hE : E.Unplaced) (h : k.Like k') (i : Nat) :
    k.booleanArg E i = k'.booleanArg E i := h.evaluateArg hE.boolean i

theorem Like.valueArg (hE : E.Unplaced) (h : k.Like k') (i : Nat) :
    k.valueArg E i = k'.valueArg E i := h.evaluateArg hE.value i

theorem Like.nodeSetArg (hE : E.Unplaced) (h : k.Like k') (i : Nat) :
    k.nodeSetArg E i = k'.nodeSetArg E i := h.evaluateArg hE.nodeSet i

theorem Like.optionalArg {α : Type} (h : k.Like k') {evaluate : Expr → Context → Action α}
    (he : ∀ {e c c'}, Context.Like e.dependencies c c' → evaluate e c = evaluate e c') (i : Nat) :
    k.optionalArg i evaluate = k'.optionalArg i evaluate := by
  unfold Call.optionalArg
  rw [← h.args]
  split
  · next e hi => rw [he (h.of_mem (List.mem_of_getElem? hi))]
  · rfl

theorem Like.subject (hE : E.Unplaced) (h : k.Like k') : k.subject T E = k'.subject T E := by
  have hargs := h.args
  unfold Call.subject
  cases ha : k.args with
  | nil => simp only [← hargs, ha, h.focus]
  | cons e es => simp only [← hargs, ha, hE.nodeSet (h.of_mem (e := e) (by simp [ha]))]

theorem Like.subjectString (hE : E.Unplaced) (h : k.Like k') :
    k.subjectString E = k'.subjectString E := by
  have hargs := h.args
  unfold Call.subjectString
  cases ha : k.args with
  | nil => simp only [← hargs, ha, h.focus]
  | cons e es => simp only [← hargs, ha, hE.string (h.of_mem (e := e) (by simp [ha]))]

theorem joinedArgs_like (hE : E.Unplaced) {c c' : Context} {es : List Expr}
    (h : ∀ e ∈ es, Context.Like e.dependencies c c') : joinedArgs E c es = joinedArgs E c' es := by
  induction es with
  | nil => rfl
  | cons e es ih =>
    rw [List.forall_mem_cons] at h
    simp only [joinedArgs, hE.string h.1, ih h.2]

theorem run_like (hE : E.Unplaced) (h : k.Like k') : k.run T E = k'.run T E := by
  have hfocus := h.focus
  have hcur := h.context.current
  have hkey : ∀ name v n, byKey T E name v k.scope n k.context =
      byKey T E name v k'.scope n k'.context := fun name v n => by
    rw [← h.scope, ← byKey_ambient hE, h.context.ambient, byKey_ambient hE]
  have hjoin : joinedArgs E k.context k.args = joinedArgs E k'.context k'.args := by
    rw [← h.args]
    exact joinedArgs_like hE fun e he => h.of_mem he
  have hstring := h.stringArg hE
  have hnumber := h.numberArg hE
  have hboolean := h.booleanArg hE
  have hvalue := h.valueArg hE
  have hnodes := h.nodeSetArg hE
  have hsubject := h.subject (T := T) hE
  have hown := h.subjectString hE
  have hset := h.optionalArg hE.nodeSet
  have hlength := h.optionalArg hE.number
  have hformat := h.optionalArg hE.string
  have hfirst : ∀ e ∈ k.args, E.number e k.context = E.number e k'.context :=
    fun e he => hE.number (h.of_mem he)
  have hd := h.context
  have hargs := h.args
  have hscope := h.scope
  obtain ⟨f, args, bound, scope, c⟩ := k
  obtain ⟨f', args', bound', scope', c'⟩ := k'
  obtain rfl : f = f' := h.function
  obtain rfl : args = args' := hargs
  obtain rfl : scope = scope' := hscope
  cases f with
  | last =>
    have hlast : c.last = c'.last := hd.last (by cases bound <;> rfl)
    simp only [run, hlast]
  | position =>
    have hposition : c.position = c'.position := hd.position (by cases bound <;> rfl)
    simp only [run, hposition]
  | number =>
    cases args with
    | nil => simp only [run, hfocus]
    | cons e es => simp only [run, hfirst e (by simp)]
  | _ =>
    simp only [run, hstring, hnumber, hboolean, hvalue, hnodes, hsubject, hown, hset, hlength,
      hformat, hfocus, hcur, hkey, hjoin]

end Call

end Function

end PathLanguage
