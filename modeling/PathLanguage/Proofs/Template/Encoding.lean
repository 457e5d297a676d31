/- Encoding of templates: literals with doubled braces, and the texts of expressions in braces. What
is split again into parts are the same parts, with literals that touch taken together. -/
import PathLanguage.Proofs.Grammar.Production
import PathLanguage.Proofs.Template.Hole

namespace PathLanguage.Template

/-- A part of a template: a literal, or a hole with the text of an expression. -/
inductive Part where
  | literal (text : String)
  | hole (text : String)
deriving DecidableEq

/-- The characters of a literal, each brace twice. -/
def doubled (cs : List Char) : List Char :=
  cs.flatMap fun c => if c = '\x7b' ∨ c = '\x7d' then [c, c] else [c]

namespace Part

def chars : Part → List Char
  | .literal text => doubled text.toList
  | .hole text => '\x7b' :: (text.toList ++ ['\x7d'])

/-- A hole has a text that is an expression of the grammar; a literal is any text. -/
def Parses (S : Scope) : Part → Prop
  | .literal _ => True
  | .hole text => ∃ e, Expr.read S text = .ok e

/-- The string of a part: of a literal the literal itself, of a hole the string of its
expression. -/
def string (E : Engine) (S : Scope) (c : Context) : Part → Action String
  | .literal text => return text
  | .hole text => do E.string (← .ofExcept ((Expr.parse S text).mapError .deferred)) c

end Part

/-- The template of some parts. -/
def encode (parts : List Part) : String := String.ofList (parts.flatMap Part.chars)

/-- The strings of all parts, in their order, joined. -/
def joined (E : Engine) (S : Scope) (c : Context) : List Part → Action String
  | [] => return ""
  | p :: rest => return (← p.string E S c) ++ (← joined E S c rest)

/-- The expressions that parts stand for behind characters not yet delivered, which are given in
reverse. -/
inductive Splits (S : Scope) : (pending : List Char) → List Part → List Expr → Prop
  | nil (pending : List Char) : Splits S pending [] (literalPart pending)
  | literal {pending : List Char} {text : String} {parts : List Part} {es : List Expr} :
    Splits S (text.toList.reverse ++ pending) parts es →
      Splits S pending (.literal text :: parts) es
  | hole {pending : List Char} {text : String} {e : Expr} {parts : List Part} {es : List Expr} :
    Expr.read S text = .ok e → Splits S [] parts es →
      Splits S pending (.hole text :: parts) (literalPart pending ++ e.simplified :: es)

section splitting

variable {S : Scope} {template : String} {pending cs rest : List Char} {parts : List Part}
  {es : List Expr} {limit : Nat}

theorem exists_splits (h : ∀ p ∈ parts, p.Parses S) (pending : List Char) :
    ∃ es, Splits S pending parts es := by
  induction parts generalizing pending with
  | nil => exact ⟨_, .nil pending⟩
  | cons p parts ih =>
    obtain ⟨hp, hparts⟩ := List.forall_mem_cons.mp h
    cases p with
    | literal text =>
      obtain ⟨es, hes⟩ := ih hparts (text.toList.reverse ++ pending)
      exact ⟨es, .literal hes⟩
    | hole text =>
      obtain ⟨e, he⟩ := hp
      obtain ⟨es, hes⟩ := ih hparts []
      exact ⟨_, .hole he hes⟩

theorem parse_of_read {text : String} {e : Expr} (h : Expr.read S text = .ok e) :
    Expr.parse S text = .ok e.simplified := by
  rw [Expr.parse, h]

theorem length_le_doubled (cs : List Char) : cs.length ≤ (doubled cs).length := by
  induction cs with
  | nil => exact Nat.le_refl 0
  | cons c cs ih =>
    rw [doubled, List.flatMap_cons, List.length_append, ← doubled, List.length_cons]
    split <;> simp only [List.length_cons, List.length_nil] <;> omega

/-- One step reads one character of a literal, doubled or not. -/
theorem partsUpTo_doubled :
    partsUpTo S template (cs.length + limit) pending (doubled cs ++ rest) =
      partsUpTo S template limit (cs.reverse ++ pending) rest := by
  induction cs generalizing pending with
  | nil => rw [List.length_nil, Nat.zero_add]; rfl
  | cons c cs ih =>
    have hlimit : (c :: cs).length + limit = cs.length + limit + 1 := by
      rw [List.length_cons]
      omega
    rw [hlimit, doubled, List.flatMap_cons, List.append_assoc, List.reverse_cons,
      List.append_assoc, List.singleton_append]
    change partsUpTo S template (cs.length + limit + 1) pending (_ ++ (doubled cs ++ rest)) = _
    split
    · next hbrace =>
      rcases hbrace with rfl | rfl
      · exact ih
      · exact ih
    · next hbrace =>
      obtain ⟨hopen, hclose⟩ := not_or.mp hbrace
      rw [List.singleton_append, partsUpTo, if_neg hclose, if_neg hopen]
      · exact ih
      · rintro _ rfl
        exact absurd rfl hopen
      · rintro _ rfl
        exact absurd rfl hclose

/-- One step reads a hole. -/
theorem partsUpTo_hole {text : String} {e : Expr} (h : Expr.read S text = .ok e) :
    partsUpTo S template (limit + 1) pending ('\x7b' :: (text.toList ++ '\x7d' :: rest)) =
      (do return literalPart pending ++ e.simplified :: (← partsUpTo S template limit [] rest)) := by
  obtain ⟨hhole, hbrace⟩ := hole?_of_fault (Expr.read_produced h).1 rest
  have hone : ∀ more, text.toList ++ '\x7d' :: rest ≠ '\x7b' :: more := by
    intro more hmore
    cases htext : text.toList with
    | nil =>
      rw [htext] at hmore
      cases hmore
    | cons c cs =>
      rw [htext] at hmore
      obtain ⟨rfl, -⟩ := List.cons.inj hmore
      exact hbrace cs htext
  rw [partsUpTo, if_neg (by decide), if_pos rfl, hhole]
  · dsimp only
    rw [String.ofList_toList, parse_of_read h]
    rfl
  · intro more _ hmore
    exact hone more hmore
  · rintro _ h
    cases h

/-- A template is split into the parts it was made of. -/
theorem partsUpTo_encoded (h : Splits S pending parts es)
    (hlimit : (parts.flatMap Part.chars).length ≤ limit) :
    partsUpTo S template limit pending (parts.flatMap Part.chars) = .ok es := by
  induction h generalizing limit with
  | nil pending => cases limit <;> rfl
  | @literal pending text parts es _ ih =>
    rw [List.flatMap_cons, List.length_append] at hlimit
    rw [List.flatMap_cons]
    rw [Part.chars] at hlimit ⊢
    have hle := length_le_doubled text.toList
    obtain ⟨n, rfl⟩ := Nat.exists_eq_add_of_le (Nat.le_trans hle (Nat.le_of_add_right_le hlimit))
    rw [partsUpTo_doubled]
    exact ih (by omega)
  | @hole pending text e parts es he _ ih =>
    rw [List.flatMap_cons, Part.chars] at hlimit ⊢
    simp only [List.cons_append, List.append_assoc, List.nil_append, List.length_cons,
      List.length_append] at hlimit ⊢
    cases limit with
    | zero => omega
    | succ n =>
      rw [partsUpTo_hole he, ih (by omega)]
      rfl

theorem parse_encode_eq (h : Splits S [] parts es) :
    parse S (encode parts) = .ok (Expr.template es).simplified := by
  rw [parse, encode, String.toList_ofList, partsUpTo_encoded h]
  · rfl
  · rw [String.length_ofList]

end splitting

end PathLanguage.Template
