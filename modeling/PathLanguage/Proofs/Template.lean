/- Templates decode what they encode: whatever literals and expressions one is made of, it can be
read, and its string is made of the literals and the strings of the expressions. -/
import PathLanguage.Proofs.Template.Encoding
import PathLanguage.Proofs.Template.Simplified

namespace PathLanguage

theorem Action.Within.of_never {α : Type} {a b : Action α} (h : Returns a fun _ => False) :
    a.Within b :=
  fun s x _ hr => (h s x (congrArg Prod.fst hr)).elim

namespace Template

open Function.Call (joinedArgs)

variable {T : Transformation} {E E' : Engine} {S : Scope} {c : Context} {pending : List Char}
  {parts : List Part} {es : List Expr} {depth : Nat}

theorem fresh_of_read {text : String} {e : Expr} (h : Expr.read S text = .ok e) : e.Fresh :=
  Expr.fresh_of_grammatical (Expr.read_produced h).2

theorem Splits.settled (h : Splits S pending parts es) :
    ∀ e ∈ es, e.Fresh ∧ e.Inert .bare Transformation.bare.run := by
  have hliteral (pending : List Char) :
      ∀ e ∈ literalPart pending, e.Fresh ∧ e.Inert .bare Transformation.bare.run := by
    rw [literalPart]
    split
    · exact List.forall_mem_nil _
    · exact List.forall_mem_singleton.mpr ⟨Expr.fresh_value rfl, Expr.inert_value _⟩
  induction h with
  | nil pending => exact hliteral pending
  | literal _ ih => exact ih
  | hole he _ ih =>
    have hsettled := Expr.simplified_settles (fresh_of_read he)
    have hsimplified := And.intro hsettled.only hsettled.inert
    exact List.forall_mem_append.mpr ⟨hliteral _, List.forall_mem_cons.mpr ⟨hsimplified, ih⟩⟩

section strings

/-- The characters not yet delivered come first. -/
theorem joinedArgs_literalPart (n : Nat) (pending : List Char) :
    joinedArgs (engine T (n + 2)) c (literalPart pending ++ es) =
      (do return String.ofList pending.reverse ++ (← joinedArgs (engine T (n + 2)) c es)) := by
  rw [literalPart]
  split
  · next hempty =>
    rw [List.isEmpty_iff] at hempty
    simp [hempty]
  · rw [List.singleton_append, joinedArgs, Expr.string_value (v := .string _) rfl]
    rfl

/-- The expressions that a template is split into have the strings of its parts. -/
theorem Splits.joinedArgs (h : Splits S pending parts es) (n : Nat) :
    joinedArgs (engine T (n + 2)) c es =
      (do return String.ofList pending.reverse ++ (← joined (engine T (n + 2)) S c parts)) := by
  induction h with
  | nil pending =>
    rw [← List.append_nil (literalPart pending), joinedArgs_literalPart]
    rfl
  | literal _ ih =>
    rw [ih, joined]
    simp [Part.string, String.append_assoc]
  | hole he _ ih =>
    rw [joinedArgs_literalPart, Function.Call.joinedArgs, ih, joined, Part.string, parse_of_read he]
    simp [Except.mapError, Action.ofExcept]

/-- Below two levels no expression of a hole comes to a string. -/
theorem string_shallow {e : Expr} (hi : e.Inert .bare Transformation.bare.run) (hd : depth < 2) :
    Returns ((engine T depth).string e c) fun _ => False := by
  match depth with
  | 0 => exact .fail
  | 1 =>
    have hbind {α β : Type} {f : α → Action β} {fault : Fault} :
        Returns ((Action.fail fault : Action α) >>= f) fun _ => False :=
      Returns.bind (P := fun _ => False) .fail fun _ h => h.elim
    cases e with
    | template es =>
      cases es with
      | nil => cases hi.rule {}
      | cons e es => exact hbind
    | _ => exact hbind
  | _ + 2 => omega

/-- Parts are joined below two levels only if none of them is a hole. -/
theorem joined_shallow {name : String} (h : ∀ p ∈ parts, p.Parses S) (hd : depth < 2)
    (hole : .hole name ∈ parts) : Returns (joined (engine T depth) S c parts) fun _ => False := by
  induction parts with
  | nil => cases hole
  | cons p parts ih =>
    obtain ⟨hp, hparts⟩ := List.forall_mem_cons.mp h
    cases p with
    | literal text =>
      have hrest : .hole name ∈ parts := by simpa using hole
      refine Returns.bind_any fun _ => ?_
      exact Returns.bind (P := fun _ => False) (ih hparts hrest) fun _ h => h.elim
    | hole text =>
      obtain ⟨e, he⟩ := hp
      have hinert := (Expr.simplified_settles (fresh_of_read he)).inert
      refine Returns.bind (P := fun _ => False) ?_ fun _ h => h.elim
      rw [Part.string, parse_of_read he]
      exact string_shallow hinert hd

/-- Literals are joined alike everywhere. -/
theorem joined_literals (h : ∀ text, .hole text ∉ parts) (E E' : Engine) :
    joined E S c parts = joined E' S c parts := by
  induction parts with
  | nil => rfl
  | cons p parts ih =>
    have hparts : ∀ text, Part.hole text ∉ parts := fun text ht => h text (.tail _ ht)
    cases p with
    | literal text => rw [joined, joined, ih hparts]; rfl
    | hole text => exact absurd (List.Mem.head _) (h text)

/-- Without holes there are none but constants. -/
theorem Splits.all_isValue (hs : Splits S pending parts es) (h : ∀ text, .hole text ∉ parts) :
    es.all Expr.isValue = true := by
  induction hs with
  | nil pending =>
    rw [literalPart]
    split <;> rfl
  | literal _ ih => exact ih fun text ht => h text (.tail _ ht)
  | hole _ _ _ => exact absurd (List.Mem.head _) (h _)

end strings

/-- The template of parts whose holes can be read, with all braces of literals doubled, can be read;
and whenever the strings of its parts can be computed one after another, its own string can be, at
most two levels deeper, and is these strings joined. -/
theorem parse_encode (S : Scope) (parts : List Part) (h : ∀ p ∈ parts, p.Parses S) :
    ∃ e, parse S (encode parts) = .ok e ∧ ∃ k ≤ 2, ∀ T c depth,
      (joined (engine T depth) S c parts).Within ((engine T (depth + k)).string e c) := by
  obtain ⟨es, hs⟩ := exists_splits h []
  have hf : ∀ e ∈ es, e.Fresh := fun e he => (hs.settled e he).1
  have hi : ∀ e ∈ es, e.Inert .bare Transformation.bare.run := fun e he => (hs.settled e he).2
  have hjoined T n c : joined (engine T (n + 2)) S c parts = joinedArgs (engine T (n + 2)) c es := by
    simp [hs.joinedArgs]
  -- with a hole among the parts, only what holds from two levels on matters
  have hdeep {text : String} (hole : .hole text ∈ parts) {T : Transformation} {c : Context}
      {a : Action String} {depth : Nat}
      (ha : ∀ n, depth = n + 2 → (joinedArgs (engine T depth) c es).Within a) :
      (joined (engine T depth) S c parts).Within a := by
    by_cases hd : depth < 2
    · exact .of_never (joined_shallow h hd hole)
    · obtain ⟨n, rfl⟩ := Nat.exists_eq_add_of_le' (Nat.le_of_not_lt hd)
      rw [hjoined]
      exact ha n rfl
  refine ⟨_, parse_encode_eq hs, ?_⟩
  cases hvalues : es.all Expr.isValue with
  | true =>
    obtain ⟨v, hv, hconstant, htext⟩ := Expr.simplified_constants hf hi hvalues
    refine ⟨2, Nat.le_refl 2, fun T c depth => ?_⟩
    rw [hv, Expr.string_value hconstant]
    by_cases hole : ∃ text, .hole text ∈ parts
    · obtain ⟨text, hole⟩ := hole
      apply hdeep hole
      rintro n rfl
      exact .of_eq (htext T n c)
    · rw [joined_literals (not_exists.mp hole) (engine T depth) (engine T (depth + 2)), hjoined]
      exact .of_eq (htext T depth c)
  | false =>
    obtain ⟨k, hk, hstring⟩ := Expr.simplified_parts hf hi hvalues
    refine ⟨k, hk, fun T c depth => ?_⟩
    rw [hstring]
    have hole : ∃ text, .hole text ∈ parts := by
      by_contra hnone
      rw [hs.all_isValue (not_exists.mp hnone)] at hvalues
      cases hvalues
    obtain ⟨text, hole⟩ := hole
    exact hdeep hole fun _ _ => .refl _

/-- Braces on both sides of a hole with a quoted brace, and a hole for the position. -/
theorem parse_encode_braces :
    let parts : List Part :=
      [.literal "\x7b", .hole "'\x7d'", .literal "\x7d", .hole "position()=last()"]
    encode parts = "\x7b\x7b\x7b'\x7d'\x7d\x7d\x7d\x7bposition()=last()\x7d" ∧
      (∀ p ∈ parts, p.Parses .standalone) ∧
      ∃ e, parse .standalone (encode parts) = .ok e ∧ ∃ k ≤ 2,
        ((engine .bare (5 + k)).string e (.onNode none)).attempt.run {} =
          (.ok "\x7b\x7d\x7dtrue", {}) := by
  intro parts
  have hquoted : Expr.read .standalone "'\x7d'" = .ok (.value (.string "\x7d")) := by rfl
  have hlast : Expr.read .standalone "position()=last()" =
      .ok (.compare .equal (.call .position [] none (some .standalone))
        (.call .last [] none (some .standalone))) := by rfl
  have hparses : ∀ p ∈ parts, p.Parses .standalone := by
    simp only [parts, List.forall_mem_cons]
    exact ⟨trivial, ⟨_, hquoted⟩, trivial, ⟨_, hlast⟩, nofun⟩
  obtain ⟨e, he, k, hk, hwithin⟩ := parse_encode .standalone parts hparses
  refine ⟨rfl, hparses, e, he, k, hk, ?_⟩
  apply hwithin .bare (.onNode none) 5
  have htest : (Expr.compare .equal (.call .position [] none (some .standalone))
        (.call .last [] none (some .standalone))).simplified =
    .isLast true := by rfl
  simp only [parts, joined, Part.string, parse_of_read hquoted, parse_of_read hlast, htest]
  rfl
end Template

end PathLanguage
