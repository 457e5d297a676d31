/- Holes of templates: in a text that has tokens up to its end all quotes stand around literals, and
no brace stands outside them. So the search for the end of a hole finds the end of the text. -/
import PathLanguage.Proofs.Token.Spacing
import PathLanguage.Template

namespace PathLanguage

open Lexer

namespace Template

/-- The search for the end of a hole goes through the characters; before and behind them the given
quotes are open, if any. -/
def Passes (quote : Option Char) (cs : List Char) (quote' : Option Char) : Prop :=
  ∀ rest, hole? quote (cs ++ rest) = (hole? quote' rest).map fun p => (cs ++ p.1, p.2)

/-- A character that neither opens a literal nor ends a hole. -/
structure IsPlain (c : Char) : Prop where
  double : c ≠ '"'
  single : c ≠ '\''
  brace : c ≠ '\x7d'

/-- A class of characters that neither quotes nor the closing brace belong to. -/
theorem isPlain_of_class {p : Char → Bool} {c : Char} (h : p c = true) (hdouble : p '"' = false)
    (hsingle : p '\'' = false) (hbrace : p '\x7d' = false) : IsPlain c where
  double := by rintro rfl; simp [hdouble] at h
  single := by rintro rfl; simp [hsingle] at h
  brace := by rintro rfl; simp [hbrace] at h

theorem isPlain_of_all {cs : List Char}
    (h : (cs.all fun c => c != '"' && c != '\'' && c != '\x7d') = true) : ∀ c ∈ cs, IsPlain c := by
  intro c hc
  have hplain := List.all_eq_true.mp h c hc
  simp only [Bool.and_eq_true, bne_iff_ne] at hplain
  exact ⟨hplain.1.1, hplain.1.2, hplain.2⟩

namespace Passes

variable {quote quote' quote'' : Option Char} {cs ds : List Char} {c q : Char}

theorem nil (quote : Option Char) : Passes quote [] quote := by
  intro rest
  exact Option.map_id'.symm

theorem append (h : Passes quote cs quote') (h' : Passes quote' ds quote'') :
    Passes quote (cs ++ ds) quote'' := by
  intro rest
  rw [List.append_assoc, h, h', Option.map_map]
  simp only [Function.comp_def, List.append_assoc]

theorem plain (h : ∀ c ∈ cs, IsPlain c) : Passes none cs none := by
  induction cs with
  | nil => exact nil none
  | cons c cs ih =>
    obtain ⟨hc, hcs⟩ := List.forall_mem_cons.mp h
    have hquote : ¬ (c = '"' ∨ c = '\'') := not_or.mpr ⟨hc.double, hc.single⟩
    have hone : Passes none [c] none := by
      intro rest
      rw [List.singleton_append, hole?, if_neg hc.brace, if_neg hquote]
      rfl
    exact hone.append (ih hcs)

/-- The characters between two quotes, whatever they are. -/
theorem inside (h : q ∉ cs) : Passes (some q) cs (some q) := by
  induction cs with
  | nil => exact nil (some q)
  | cons c cs ih =>
    obtain ⟨hc, hcs⟩ := List.ne_and_not_mem_of_not_mem_cons h
    have hone : Passes (some q) [c] (some q) := by
      intro rest
      rw [List.singleton_append, hole?, if_neg hc.symm]
      rfl
    exact hone.append (ih hcs)

theorem quoted (hq : q = '"' ∨ q = '\'') (h : q ∉ cs) : Passes none (q :: (cs ++ [q])) none := by
  have hopen : Passes none [q] (some q) := by
    intro rest
    have hbrace : q ≠ '\x7d' := by
      rcases hq with rfl | rfl
      · decide
      · decide
    rw [List.singleton_append, hole?, if_neg hbrace, if_pos hq]
    rfl
  have hclose : Passes (some q) [q] none := by
    intro rest
    rw [List.singleton_append, hole?, if_pos rfl]
    rfl
  exact hopen.append ((inside h).append hclose)

end Passes

/-- A hole ends behind what the search for its end goes through without an open quote. -/
theorem hole?_append {cs : List Char} (h : Passes none cs none) (rest : List Char) :
    hole? none (cs ++ '\x7d' :: rest) = some (cs, rest) := by
  rw [h, hole?, if_pos rfl, Option.map_some, List.append_nil]

end Template

namespace Lexer

open Template

variable {cs : List Char} {c : Char}

theorem isPlain_digit (h : c.isDigit = true) : IsPlain c :=
  isPlain_of_class h (by decide) (by decide) (by decide)

theorem isPlain_blank (h : Text.isBlank c = true) : IsPlain c :=
  isPlain_of_class h (by decide) (by decide) (by decide)

theorem IsSimpleName.isPlain (h : IsSimpleName cs) : ∀ c ∈ cs, IsPlain c := by
  cases cs with
  | nil => exact h.elim
  | cons c cs =>
    exact List.forall_mem_cons.mpr ⟨isPlain_of_class h.1 (by decide) (by decide) (by decide),
      fun d hd => isPlain_of_class (h.2 d hd) (by decide) (by decide) (by decide)⟩

theorem IsName.isPlain (h : IsName cs) : ∀ c ∈ cs, IsPlain c := by
  rcases h with h | ⟨declared, localName, rfl, hd, hl⟩
  · exact h.isPlain
  · exact List.forall_mem_append.mpr ⟨hd.isPlain,
      List.forall_mem_cons.mpr ⟨⟨by decide, by decide, by decide⟩, hl.isPlain⟩⟩

theorem IsNumber.isPlain (h : IsNumber cs) : ∀ c ∈ cs, IsPlain c := by
  have hpoint : IsPlain '.' := ⟨by decide, by decide, by decide⟩
  cases h with
  | whole h => exact fun c hc => isPlain_digit (h c hc)
  | mixed h _ hf =>
    exact List.forall_mem_append.mpr ⟨fun c hc => isPlain_digit (h c hc),
      List.forall_mem_cons.mpr ⟨hpoint, fun c hc => isPlain_digit (hf c hc)⟩⟩
  | fraction h => exact List.forall_mem_cons.mpr ⟨hpoint, fun c hc => isPlain_digit (h c hc)⟩

end Lexer

/-- A token is gone through: its quotes are those of a literal, and no brace is outside them. -/
theorem Token.Covers.passes {afterOperand : Bool} {t : Token} {cs : List Char}
    (h : t.Stands afterOperand) (hcs : t.Covers cs) : Template.Passes none cs none := by
  have hlong {name blanks mark : List Char} (hname : IsName name)
      (hblanks : ∀ c ∈ blanks, Text.isBlank c = true)
      (hmark : (mark.all fun c => c != '"' && c != '\'' && c != '\x7d') = true) :
      Template.Passes none (name ++ blanks ++ mark) none := by
    apply Template.Passes.append _ (.plain (Template.isPlain_of_all hmark))
    exact (Template.Passes.plain hname.isPlain).append
      (.plain fun c hc => isPlain_blank (hblanks c hc))
  cases t with
  | literal s =>
    obtain ⟨q, hq, hnone, rfl⟩ := hcs
    exact .quoted hq hnone
  | number s =>
    obtain rfl : cs = s.toList := hcs
    exact .plain (IsNumber.isPlain h)
  | name s =>
    obtain rfl : cs = s.toList := hcs
    exact .plain h.1.isPlain
  | prefixWildcard s =>
    obtain rfl : cs = s.toList ++ [':', '*'] := hcs.trans (by simp [Token.display])
    exact (Template.Passes.plain (IsSimpleName.isPlain h)).append
      (.plain (Template.isPlain_of_all rfl))
  | function s =>
    obtain ⟨blanks, hblanks, rfl⟩ := hcs
    exact hlong h.1 hblanks rfl
  | nodeType s =>
    obtain ⟨blanks, hblanks, rfl⟩ := hcs
    exact hlong (isName_nodeType h) hblanks rfl
  | axis a =>
    obtain ⟨blanks, hblanks, rfl⟩ := hcs
    exact hlong (.inl (isSimpleName_axis a)) hblanks rfl
  | comparison op =>
    obtain rfl := hcs
    cases op <;> exact .plain (Template.isPlain_of_all rfl)
  | arithmetic op =>
    obtain rfl := hcs
    cases op <;> exact .plain (Template.isPlain_of_all rfl)
  | logical op =>
    obtain rfl := hcs
    cases op <;> exact .plain (Template.isPlain_of_all rfl)
  | slash | doubleSlash | bar | openParen | closeParen | openBracket | closeBracket | comma
  | dollar | atSign | star | dot | twoDots =>
    obtain rfl := hcs
    exact .plain (Template.isPlain_of_all rfl)

namespace TokenList

open Template

theorem Spaced.passes {afterOperand : Bool} {offset : Nat} {cs : List Char}
    {ps : List PlacedToken} (h : Spaced offset cs ps)
    (hfollow : Token.Follow afterOperand (ps.map (·.token))) : Passes none cs none := by
  induction h generalizing afterOperand with
  | blanks h => exact .plain fun c hc => isPlain_blank (h c hc)
  | token hblanks hpiece _ _ ih =>
    exact (Passes.plain fun c hc => isPlain_blank (hblanks c hc)).append
      ((hpiece.passes hfollow.1).append (ih hfollow.2.2))

/-- No token begins with a brace. -/
theorem fault_of_brace {limit : Nat} {afterOperand : Bool} {offset : Nat} {cs : List Char} :
    (ofChars (limit + 1) afterOperand offset ('\x7b' :: cs)).fault ≠ none := by
  have htoken : Lexer.token afterOperand ('\x7b' :: cs) = .error (.unexpectedCharacter '\x7b') := by
    rfl
  have hblank : ('\x7b' :: cs).dropWhile Text.isBlank = '\x7b' :: cs := by
    rfl
  rw [ofChars, hblank]
  simp [htoken]

end TokenList

namespace Template

/-- The text of a hole that can be read is found whole, and begins with no brace that would be taken
for a doubled one. -/
theorem hole?_of_fault {text : String} (h : (TokenList.ofText text).fault = none)
    (rest : List Char) : hole? none (text.toList ++ '\x7d' :: rest) = some (text.toList, rest) ∧
      ∀ more, text.toList ≠ '\x7b' :: more := by
  constructor
  · apply hole?_append
    obtain ⟨hspaced, hfollow⟩ := TokenList.ofText_spaced h
    exact hspaced.passes hfollow
  · intro more hmore
    rw [TokenList.ofText, hmore] at h
    exact TokenList.fault_of_brace h

end Template

end PathLanguage
