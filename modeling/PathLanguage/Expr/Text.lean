/-
Expressions as one line of text, for messages and for a reader; not all of it reads back.
-/
import PathLanguage.Expr.Basic

namespace PathLanguage

def NodeSet.countText (count : Except Fault Nat) : String :=
  match count with
  | .ok n => s!"node-set({n})"
  | .error _ => "node-set(?)"

mutual

def Value.text : Value → String
  | .string s => if s.contains '"' then "'" ++ s ++ "'" else "\"" ++ s ++ "\""
  | .number n => n.stringValue
  | .boolean b => if b then "true()" else "false()"
  | .nodeSet ns => ns.text
  | .object t => "object(" ++ t ++ ")"

def NodeSet.text : NodeSet → String
  | .empty => "()"
  | .single n _ => NodeSet.countText (.ok (if n.isSome then 1 else 0))
  | .extent e => NodeSet.countText (e.sort.map (·.nodes.length))
  | .intent _ e => e.text

def Expr.text : Expr → String
  | .value v => v.text
  | .root => "/"
  | .contextNode => "."
  | .parentNode => ".."
  | .currentNode => "current()"
  | .attribute n => "@" ++ n.text
  | .path .root axis test predicates =>
    "/" ++ axis.name ++ "::" ++ test.text ++ predicatesText predicates
  | .path start axis test predicates =>
    start.text ++ "/" ++ axis.name ++ "::" ++ test.text ++ predicatesText predicates
  | .axis axis test origin =>
    (if origin.isSome then "\x7bbound\x7d/" else "") ++ axis.name ++ "::" ++ test.text
  | .filter base predicate =>
    (match base with
      | .path .. | .axis .. => "(" ++ base.text ++ ")"
      | _ => base.text) ++ "[" ++ predicate.text ++ "]"
  | .set .union l r => "(" ++ l.text ++ " | " ++ r.text ++ ")"
  | .set .intersect l r => "set:intersection(" ++ l.text ++ ", " ++ r.text ++ ")"
  | .set .except l r => "set:difference(" ++ l.text ++ ", " ++ r.text ++ ")"
  | .distinct base => "set:distinct(" ++ base.text ++ ")"
  | .distinctBy base key => "set:distinct(" ++ base.text ++ ", " ++ key.text ++ ")"
  | .logical op l r => "(" ++ l.text ++ " " ++ op.symbol ++ " " ++ r.text ++ ")"
  | .compare op l r => "(" ++ l.text ++ " " ++ op.symbol ++ " " ++ r.text ++ ")"
  | .compareNode op e v | .compareNodes op e v =>
    "(" ++ e.text ++ " " ++ op.symbol ++ " " ++ v.text ++ ")"
  | .arithmetic op l r => "(" ++ l.text ++ " " ++ op.symbol ++ " " ++ r.text ++ ")"
  | .negate e => "-" ++ e.text
  | .call f args _ _ => f.display ++ "(" ++ ", ".intercalate (texts args) ++ ")"
  | .extension n args => n.text ++ "(" ++ ", ".intercalate (texts args) ++ ")"
  | .reference b => "$" ++ b.name.text
  | .positionRange least most =>
    "position-range(" ++ toString least ++ ", " ++
      (if most = openEnd then "*" else toString most) ++ ")"
  | .isLast wanted => if wanted then "is-last()" else "not-last()"
  | .template parts => "avt(" ++ ", ".intercalate (texts parts) ++ ")"
  | .sorted base keys _ => "sort(" ++ base.text ++ ", " ++ ", ".intercalate (texts keys) ++ ")"
  | .failure f => "error(\"" ++ f.message ++ "\")"

def predicatesText : List Expr → String
  | [] => ""
  | p :: rest => "[" ++ p.text ++ "]" ++ predicatesText rest

def texts : List Expr → List String
  | [] => []
  | e :: rest => e.text :: texts rest

end

end PathLanguage
