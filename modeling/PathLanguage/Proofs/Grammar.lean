/- The grammar of expressions: the trees that texts have, and the text that gives each of them back.
How strongly operators bind, and which operand needs parentheses, is said by `Expr.level` and
`Expr.bare`. -/
import PathLanguage.Proofs.Grammar.Production

namespace PathLanguage.Expr

/-- An expression of the grammar, in any spelling that the scope resolves, is what its own text is
read as; and the expressions of the grammar are just those that some text is read as. -/
theorem read_inverts_render (S : Scope) (e : Expr) :
    (∀ w : Spelling, e.Grammatical S w → read S (e.render w) = .ok e) ∧
      ((∃ text, read S text = .ok e) ↔ ∃ w : Spelling, e.Grammatical S w) := by
  constructor
  · intro w h
    exact read_render h
  · constructor
    · rintro ⟨text, h⟩
      exact ⟨.chosen S, (read_produced h).2⟩
    · rintro ⟨w, h⟩
      exact ⟨e.render w, read_render h⟩

/-- Names spelled as they are, without prefixes. -/
def plainSpelling : Spelling where
  name n := n.localName
  «variable» b := b.name.localName
  declared uri := uri
  function n := n.localName
  digits n := n.text

/-- A child of the context node by its name. -/
def childNamed (localName : String) : Expr :=
  .path .contextNode .child (.named .element (.unqualified localName)) []

/-- The names of operators as names of nodes, and parentheses around a right operand only. -/
theorem read_inverts_render_operator_names :
    let e := Expr.logical .or (childNamed "or")
      (.arithmetic .div (.arithmetic .div (childNamed "div") (childNamed "mod"))
        (.arithmetic .mod (.negate .root) (childNamed "and")))
    e.render plainSpelling =
      "child:: or or child:: div div child:: mod div ( - ( / ) mod child:: and )" ∧
    e.Grammatical .standalone plainSpelling ∧
      read .standalone (e.render plainSpelling) = .ok e := by
  have hname {s : String} (hs : s ∈ ["and", "or", "div", "mod"]) :
      (childNamed s).Grammatical .standalone plainSpelling := by
    simp only [List.mem_cons, List.not_mem_nil, or_false] at hs
    rcases hs with rfl | rfl | rfl | rfl <;>
      exact ⟨trivial, .inl rfl, .inl ⟨rfl, .inl (Lexer.isSimpleName_of_all rfl), rfl⟩, trivial⟩
  intro e
  have he : e.Grammatical .standalone plainSpelling :=
    ⟨hname (by decide), ⟨hname (by decide), hname (by decide)⟩, trivial, hname (by decide)⟩
  exact ⟨by rfl, he, (read_inverts_render .standalone e).1 plainSpelling he⟩

end PathLanguage.Expr
