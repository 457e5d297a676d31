/-
Reading cursors: the next node of each kind of cursor, its size, and all that remains.
-/
import PathLanguage.Evaluation.Engine

namespace PathLanguage.Cursor

/-- A cursor on the nodes of another that a predicate selects. -/
def select (base : Cursor) (predicate : Expr) (context : Context) (stopsAtReject : Bool) : Cursor :=
  let usesLast := predicate.dependencies.last
  .filter (if usesLast && !base.counts then base.lookingAhead else base)
    ⟨predicate, context.ambient, .ofPredicate predicate, usesLast, stopsAtReject⟩ none 0 false

/-- The nodes that a step selects from one origin, in axis order. -/
def ofStep (plan : StepPlan) (origin : Node) (context : Context) : Cursor :=
  plan.predicates.foldl (fun c p => c.select p context false) (onAxis origin plan.axis plan.test)

/-- A cursor on the combination of two others; the first node of each is read at once. -/
def startMerge (E : Engine) (op : SetOperator) (left right : Cursor) : Action Cursor := do
  let (leftHead, left) ← E.pull (← E.sortedCursor left)
  let (rightHead, right) ← E.pull (← E.sortedCursor right)
  return .merge op left leftHead right rightHead

/-- A cursor on the first node, in document order, of each string value or key. -/
def startDistinct (E : Engine) (base : Cursor) (key : Option Expr) (context : Context) :
    Action Cursor :=
  return .distinct (← E.sortedCursor base) (key.map (·, context.ambient)) []

def nextAhead (E : Engine) (base : Cursor) (buffer : List Node) (delivered : Nat)
    (exhausted : Bool) : StateM Session (Pull (Option Node)) :=
  match buffer with
  | n :: rest => return ⟨.ok (some n), .lookahead base rest (delivered + 1) exhausted⟩
  | [] =>
    if exhausted then return ⟨.ok none, .lookahead base [] delivered true⟩
    else do
      let p ← E.next base
      match p.outcome with
      | .ok (some n) => return ⟨.ok (some n), .lookahead p.rest [] (delivered + 1) false⟩
      | .ok none => return ⟨.ok none, .lookahead p.rest [] delivered true⟩
      | .error f => return ⟨.error f, .lookahead p.rest [] delivered false⟩

/-- Whether a predicate holds of a node in its focus. -/
def accepts (E : Engine) (s : Selection) (n : Node) (position last : Nat) : Action Bool :=
  let focus := s.context.withFocus n position last
  match s.strategy with
  | .positions least most => return least ≤ position && position ≤ most
  | .numeric => return (← E.number s.predicate focus).eq (.ofNat position)
  | .boolean => E.boolean s.predicate focus
  | .general => do
    match ← E.value s.predicate focus with
    | .number x => return x.eq (.ofNat position)
    | v => E.boolean (.value v) focus

/-- The size of the base of a filter; one that is not told counts up to the present position. -/
def baseSize (E : Engine) (base : Cursor) (s : Selection) (last : Option Nat) (position : Nat) :
    StateM Session (Pull Nat) :=
  match s.strategy, s.usesLast, last with
  | .positions .., _, _ | _, false, _ => return ⟨.ok position, base⟩
  | _, true, some l => return ⟨.ok l, base⟩
  | _, true, none => do
    let p ← E.size base
    return ⟨p.outcome.map (·.getD position), p.rest⟩

def nextSelected (E : Engine) (base : Cursor) (s : Selection) (last : Option Nat) (position : Nat)
    (finished : Bool) : StateM Session (Pull (Option Node)) :=
  let beyond := match s.strategy with
    | .positions _ most => most ≤ position
    | _ => false
  if finished || beyond then return ⟨.ok none, .filter base s last position true⟩
  else do
    let p ← E.next base
    match p.outcome with
    | .error f => return ⟨.error f, .filter p.rest s last position false⟩
    | .ok none => return ⟨.ok none, .filter p.rest s last position true⟩
    | .ok (some n) =>
      let position := position + 1
      let q ← baseSize E p.rest s last position
      match q.outcome with
      | .error f => return ⟨.error f, .filter q.rest s last position false⟩
      | .ok l =>
        let last := if s.usesLast then some l else last
        match ← (accepts E s n position l).attempt with
        | .error f => return ⟨.error f, .filter q.rest s last position false⟩
        | .ok true => return ⟨.ok (some n), .filter q.rest s last position false⟩
        | .ok false => E.next (.filter q.rest s last position s.stopsAtReject)

/-- Reads past the left head of a merge. -/
def passLeft (E : Engine) (op : SetOperator) (left : Cursor) (leftHead : Option Node)
    (right : Cursor) (rightHead : Option Node) : StateM Session (Pull Unit) := do
  let p ← E.next left
  match p.outcome with
  | .ok h => return ⟨.ok (), .merge op p.rest h right rightHead⟩
  | .error f => return ⟨.error f, .merge op p.rest leftHead right rightHead⟩

/-- Reads past the right head of a merge. -/
def passRight (E : Engine) (op : SetOperator) (left : Cursor) (leftHead : Option Node)
    (right : Cursor) (rightHead : Option Node) : StateM Session (Pull Unit) := do
  let p ← E.next right
  match p.outcome with
  | .ok h => return ⟨.ok (), .merge op left leftHead p.rest h⟩
  | .error f => return ⟨.error f, .merge op left leftHead p.rest rightHead⟩

/-- Reads past both heads of a merge, the right one first unless `leftFirst`. -/
def passBoth (E : Engine) (leftFirst : Bool) (op : SetOperator) (left : Cursor)
    (leftHead : Option Node) (right : Cursor) (rightHead : Option Node) :
    StateM Session (Pull Unit) := do
  let first ← (if leftFirst then passLeft else passRight) E op left leftHead right rightHead
  match first.outcome, first.rest with
  | .ok (), .merge op left leftHead right rightHead =>
    (if leftFirst then passRight else passLeft) E op left leftHead right rightHead
  | _, _ => return first

/-- Delivers a node once the heads are passed. -/
def deliver (n : Node) (passed : Pull Unit) : Pull (Option Node) :=
  ⟨passed.outcome.map fun _ => some n, passed.rest⟩

/-- Goes on reading once the heads are passed. -/
def goOn (E : Engine) (passed : Pull Unit) : StateM Session (Pull (Option Node)) :=
  match passed.outcome with
  | .ok () => E.next passed.rest
  | .error f => return ⟨.error f, passed.rest⟩

def nextMerged (E : Engine) (op : SetOperator) (left : Cursor) (leftHead : Option Node)
    (right : Cursor) (rightHead : Option Node) : StateM Session (Pull (Option Node)) :=
  match leftHead, rightHead with
  | none, none => return ⟨.ok none, .merge op left leftHead right rightHead⟩
  | some a, none =>
    match op with
    | .union | .except => return deliver a (← passLeft E op left leftHead right rightHead)
    | .intersect => return ⟨.ok none, .merge op left leftHead right rightHead⟩
  | none, some b =>
    match op with
    | .union => return deliver b (← passRight E op left leftHead right rightHead)
    | .intersect | .except => return ⟨.ok none, .merge op left leftHead right rightHead⟩
  | some a, some b =>
    match a.order? b, op with
    | none, _ => return ⟨.error .unordered, .merge op left leftHead right rightHead⟩
    | some .lt, .union | some .lt, .except =>
      return deliver a (← passLeft E op left leftHead right rightHead)
    | some .lt, .intersect => do goOn E (← passLeft E op left leftHead right rightHead)
    | some .gt, .union => return deliver b (← passRight E op left leftHead right rightHead)
    | some .gt, .intersect | some .gt, .except => do
      goOn E (← passRight E op left leftHead right rightHead)
    | some .eq, .union | some .eq, .intersect =>
      return deliver a (← passBoth E false op left leftHead right rightHead)
    | some .eq, .except => do goOn E (← passBoth E true op left leftHead right rightHead)

/-- The text by which `distinct` tells nodes apart. -/
def keyOf (E : Engine) (key : Option (Expr × Context)) (n : Node) : Action String :=
  match key with
  | none => return n.stringValue
  | some (e, c) => E.string e (c.withNode n)

def nextDistinct (E : Engine) (base : Cursor) (key : Option (Expr × Context))
    (seen : List String) : StateM Session (Pull (Option Node)) := do
  let p ← E.next base
  match p.outcome with
  | .error f => return ⟨.error f, .distinct p.rest key seen⟩
  | .ok none => return ⟨.ok none, .distinct p.rest key seen⟩
  | .ok (some n) =>
    match ← (keyOf E key n).attempt with
    | .error f => return ⟨.error f, .distinct p.rest key seen⟩
    | .ok k =>
      if seen.contains k then E.next (.distinct p.rest key seen)
      else return ⟨.ok (some n), .distinct p.rest key (k :: seen)⟩

def nextStep (E : Engine) (start : Cursor) (plan : StepPlan) (context : Context)
    (current : Cursor) (sorted : Bool) : StateM Session (Pull (Option Node)) := do
  let p ← E.next current
  match p.outcome with
  | .error f => return ⟨.error f, .steps start plan context p.rest sorted⟩
  | .ok (some n) => return ⟨.ok (some n), .steps start plan context p.rest sorted⟩
  | .ok none =>
    let q ← E.next start
    match q.outcome with
    | .error f => return ⟨.error f, .steps q.rest plan context .empty sorted⟩
    | .ok none => return ⟨.ok none, .steps q.rest plan context .empty sorted⟩
    | .ok (some origin) =>
      E.next (.steps q.rest plan context (ofStep plan origin context) sorted)

/-- The next node. -/
def next (E : Engine) : Cursor → StateM Session (Pull (Option Node))
  | .listed f size [] => return ⟨.ok none, .listed f size []⟩
  | .listed f size (n :: rest) => return ⟨.ok (some n), .listed f size rest⟩
  | .lookahead base buffer delivered exhausted => nextAhead E base buffer delivered exhausted
  | .filter base s last position finished => nextSelected E base s last position finished
  | .merge op left leftHead right rightHead => nextMerged E op left leftHead right rightHead
  | .distinct base key seen => nextDistinct E base key seen
  | .steps start plan context current sorted => nextStep E start plan context current sorted

/-- The number of nodes from the beginning; a lookahead reads its base to the end for it. -/
def size (E : Engine) : Cursor → StateM Session (Pull (Option Nat))
  | .listed f size rest => return ⟨.ok size, .listed f size rest⟩
  | .lookahead base buffer delivered exhausted =>
    let told := Except.ok (some (delivered + buffer.length))
    if exhausted then return ⟨told, .lookahead base buffer delivered true⟩
    else do
      let p ← E.next base
      match p.outcome with
      | .error f => return ⟨.error f, .lookahead p.rest buffer delivered false⟩
      | .ok none => return ⟨told, .lookahead p.rest buffer delivered true⟩
      | .ok (some n) => E.size (.lookahead p.rest (buffer ++ [n]) delivered false)
  | c => return ⟨.ok none, c⟩

/-- All remaining nodes. -/
def drain (E : Engine) (c : Cursor) : Action (List Node) := do
  match ← E.pull c with
  | (some n, rest) => return n :: (← E.drain rest)
  | (none, _) => return []

/-- Whether some remaining node passes a test. -/
def find (E : Engine) (test : Node → Bool) (c : Cursor) : Action Bool := do
  match ← E.pull c with
  | (some n, rest) => if test n then return true else E.find test rest
  | (none, _) => return false

end PathLanguage.Cursor
