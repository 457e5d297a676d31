/- Contexts that agree on what is asked of them, and what the predicates, keys and definitions within
an expression find of that agreement. -/
import PathLanguage.Evaluation.Transformation
import PathLanguage.Proofs.Agreement.InStep

namespace PathLanguage

/-- The names of variables that the check of a position looks up. -/
def PositionCheck.variables : PositionCheck → List ExpandedName
  | .among e => e.variables
  | .none | .first | .last => []

def PositionCheck.dependencies : PositionCheck → Dependencies
  | .among e => e.dependencies
  | .none | .first | .last => ∅

def PatternStep.variables (s : PatternStep) : List ExpandedName :=
  variablesOfAll s.predicates ++ s.check.variables

def PatternStep.dependencies (s : PatternStep) : Dependencies :=
  dependenciesOfAll s.predicates ∪ s.check.dependencies

/-- The names of variables that the predicates of a pattern look up. -/
def Pattern.variables : Pattern → List ExpandedName
  | .step s => s.variables
  | .under _ upper s => upper.variables ++ s.variables
  | .union a b => a.variables ++ b.variables
  | .document | .test _ | .id _ | .key .. => []

/-- What the predicates of a pattern read of the contexts they are evaluated in. -/
def Pattern.dependencies : Pattern → Dependencies
  | .step s => s.dependencies
  | .under _ upper s => upper.dependencies ∪ s.dependencies
  | .union a b => a.dependencies ∪ b.dependencies
  | .document | .test _ | .id _ | .key .. => ∅

/-- No predicate of a pattern reads the current node. -/
def Pattern.Closed (p : Pattern) : Prop := p.dependencies.currentNode = false

def KeyDefinition.variables (d : KeyDefinition) : List ExpandedName :=
  d.pattern.variables ++ d.use.variables

/-- The names of variables that some key definition looks up. -/
def Transformation.keyVariables (T : Transformation) : List ExpandedName :=
  T.keys.flatMap KeyDefinition.variables

/-- Two contexts agree on some parts and on some variables, and on the variables of all keys. -/
structure Context.Agrees (T : Transformation) (d : Dependencies) (names : List ExpandedName)
    (c c' : Context) : Prop where
  locals : ∀ v, v ∈ names ∨ v ∈ T.keyVariables → c.locals.lookup v = c'.locals.lookup v
  current : d.currentNode = true → c.current? = c'.current?
  node : d.contextNode = true → c.node? = c'.node?
  position : d.position = true → c.position = c'.position
  last : d.last = true → c.last = c'.last
  document : d.contextDocument = true → c.node?.map Node.document = c'.node?.map Node.document

namespace Context.Agrees

open Dependencies

variable {T : Transformation} {d e : Dependencies} {names more : List ExpandedName}
  {c c' : Context}

theorem refl (T : Transformation) (d : Dependencies) (names : List ExpandedName) (c : Context) :
    c.Agrees T d names c :=
  ⟨fun _ _ => rfl, fun _ => rfl, fun _ => rfl, fun _ => rfl, fun _ => rfl, fun _ => rfl⟩

theorem mono (h : c.Agrees T d names c') (hs : e.Sub d) (hv : more ⊆ names) :
    c.Agrees T e more c' where
  locals v hm := h.locals v (hm.imp_left (@hv v))
  current he := h.current (hs .currentNode he)
  node he := h.node (hs .contextNode he)
  position he := h.position (hs .position he)
  last he := h.last (hs .last he)
  document he := h.document (hs .contextDocument he)

theorem left {e : Dependencies} (h : c.Agrees T (d ∪ e) (names ++ more) c') :
    c.Agrees T d names c' :=
  h.mono (sub_union_left _ _) (List.subset_append_left _ _)

theorem right {e : Dependencies} (h : c.Agrees T (d ∪ e) (names ++ more) c') :
    c.Agrees T e more c' :=
  h.mono (sub_union_right _ _) (List.subset_append_right _ _)

/-- The values of variables stay as they are while the focus moves. -/
theorem moved {k k' : Context} (h : c.Agrees T d names c') (hk : k.locals = c.locals)
    (hk' : k'.locals = c'.locals) : ∀ v, v ∈ names ∨ v ∈ T.keyVariables →
      k.locals.lookup v = k'.locals.lookup v := by
  rw [hk, hk']
  exact h.locals

/-- A node that is put in focus is the same in both contexts; the rest needs to agree only on what
stays fixed for predicates. -/
theorem withFocus (h : c.Agrees T (d ∩ fixedInPredicates) names c') (n : Node)
    (position last : Nat) :
    (c.withFocus n position last).Agrees T d names (c'.withFocus n position last) where
  locals := h.moved rfl rfl
  current hd := h.current (by simpa [Inter.inter, inter, zip, fixedInPredicates] using hd)
  node _ := rfl
  position _ := rfl
  last _ := rfl
  document _ := rfl

theorem withNode (h : c.Agrees T (d ∩ fixedInPredicates) names c') (n : Node) :
    (c.withNode n).Agrees T d names (c'.withNode n) :=
  h.withFocus n 1 1

theorem ambient (h : c.Agrees T d names c') : c.ambient.Agrees T d names c'.ambient where
  locals := h.moved rfl rfl
  current := h.current
  node _ := rfl
  position _ := rfl
  last _ := rfl
  document _ := rfl

/-- For a node that is put in focus and made current only variables need to agree. -/
theorem withCurrentFocus (h : c.Agrees T e names c') (n : Node) (position last : Nat) :
    ((c.withFocus n position last).withCurrent n).Agrees T d names
      ((c'.withFocus n position last).withCurrent n) where
  locals := h.moved rfl rfl
  current _ := rfl
  node _ := rfl
  position _ := rfl
  last _ := rfl
  document _ := rfl

theorem get_node (h : c.Agrees T d names c') (hd : d.contextNode = true) :
    Action.InStep Eq c.node c'.node := by
  rw [Context.node, Context.node, h.node hd]
  split
  · exact .pure rfl
  · exact .fail _

theorem get_document (h : c.Agrees T d names c') (hd : d.contextDocument = true) :
    Action.InStep (fun n n' => n.document = n'.document) c.node c'.node := by
  have hn := h.document hd
  unfold Context.node
  generalize c.node? = n, c'.node? = n' at hn ⊢
  match n, n', hn with
  | .none, .none, _ => exact .fail _
  | .some _, .some _, hn => exact .pure (Option.some.inj hn)

theorem get_current (h : c.Agrees T d names c') (hd : d.currentNode = true) :
    Action.InStep Eq c.current c'.current := by
  rw [Context.current, Context.current, h.current hd]
  split
  · exact .pure rfl
  · exact .fail _

end Context.Agrees

/-- Two expressions that are alike, in contexts that agree on what these ask for. -/
structure AskAlike (T : Transformation) (e e' : Expr) (c c' : Context) : Prop where
  alike : e.Alike e'
  agrees : c.Agrees T e.dependencies e.variables c'

/-- Lists of expressions that are alike, in contexts that agree on what these ask for. -/
structure AllAskAlike (T : Transformation) (es es' : List Expr) (c c' : Context) : Prop where
  alike : AllAlike es es'
  agrees : c.Agrees T (dependenciesOfAll es) (variablesOfAll es) c'

theorem AskAlike.refl (T : Transformation) (e : Expr) (c : Context) : AskAlike T e e c c :=
  ⟨.refl e, .refl T _ _ c⟩

/-- In one context, all that is alike asks alike. -/
theorem Expr.Alike.ask {e e' : Expr} (h : e.Alike e') (T : Transformation) (c : Context) :
    AskAlike T e e' c c :=
  ⟨h, .refl T _ _ c⟩

theorem Value.Alike.ask {v v' : Value} (h : v.Alike v') {T : Transformation} {c c' : Context}
    {d : Dependencies} {names : List ExpandedName} (hc : c.Agrees T d names c') :
    AskAlike T (.value v) (.value v') c c' :=
  ⟨.value h, hc.mono (Dependencies.empty_sub _) (by simp [Expr.variables])⟩

section

open Dependencies

variable {T : Transformation} {e e' : Expr} {es es' : List Expr} {c c' : Context}

theorem AllAskAlike.head (h : AllAskAlike T (e :: es) (e' :: es') c c') : AskAlike T e e' c c' := by
  obtain ⟨_ | ⟨he, -⟩, hc⟩ := h
  exact ⟨he, hc.left⟩

theorem AllAskAlike.tail (h : AllAskAlike T (e :: es) (e' :: es') c c') :
    AllAskAlike T es es' c c' := by
  obtain ⟨_ | ⟨-, hs⟩, hc⟩ := h
  exact ⟨hs, hc.right⟩

theorem AllAskAlike.getElem? (h : AllAskAlike T es es' c c') (i : Nat) :
    Option.Rel (fun e e' => AskAlike T e e' c c') es[i]? es'[i]? := by
  induction es generalizing es' i with
  | nil =>
    cases h.alike
    exact .none
  | cons e es ih =>
    match es', h.alike with
    | _ :: _, .cons .. =>
      cases i with
      | zero => exact .some h.head
      | succ i => exact ih h.tail i

end

end PathLanguage
