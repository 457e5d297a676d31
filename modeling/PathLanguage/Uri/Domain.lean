/-
Domain names: each label as ASCII. Characters are replaced by what they stand for, and the result is
composed; labels in Punycode have to stand for a text in the same form.
-/
import PathLanguage.Text.Blank
import PathLanguage.Text.Composition
import PathLanguage.Text.Direction
import PathLanguage.Text.Joining
import PathLanguage.Text.Punycode
import PathLanguage.Uri.DomainTable

namespace PathLanguage.Domain

/-- The entry for a number in a list of blocks, each of which begins at its own number. -/
def find? {α : Type} (n : Nat) : List (Nat × List α) → Option α
  | [] => none
  | (first, block) :: rest =>
    if n < first then none
    else match block[n - first]? with
      | some a => some a
      | none => find? n rest

/-- The ideograph that a compatibility ideograph stands for. -/
def ideograph? (n : Nat) : Option Char :=
  match find? n (ideographs.map fun (first, block) => (first, block.toList)) with
  | some c => if c.toNat = n then none else some c
  | none => none

/-- What a character stands for, if it is not itself. -/
def replacement? (c : Char) : Option (List Char) :=
  let n := c.toNat
  let mapped := (Text.MapRun.find? n mappedRuns).or (find? n mappedBlocks)
  let one := mapped.map fun m => [Char.ofNat m]
  let ideograph := (ideograph? n).map ([·])
  let several := (find? n expansions).map (·.map Char.ofNat)
  let nothing := if ignoredRanges.contains n then some [] else none
  ((one.or ideograph).or several).or nothing

/-- What a character of a host stands for; none if no host may contain it. -/
def meaning? (c : Char) : Option (List Char) :=
  (replacement? c).or (if allowedRanges.contains c.toNat then some [c] else none)

/-- Whether a character is allowed and stands for itself. -/
def isPlain (c : Char) : Bool := (replacement? c).isNone && allowedRanges.contains c.toNat

/-- A host after replacement and composition. -/
def normalize? (host : List Char) : Option (List Char) := do
  let replaced ← host.mapM meaning?
  return Text.compose replaced.flatten

/-- ASCII characters that no host contains. -/
def isForbidden (c : Char) : Bool :=
  c.toNat ≤ 0x20 || c.toNat == 0x7f || "%#/:<>?@[\\]^|".toList.contains c

/-- A mark of combining class 9, which ends a conjunct. -/
def isVirama (c : Char) : Bool := Text.markClass c == 9

/-- Whether the first letter that is not passed through joins on a side. -/
def joinsOn (side : Text.Joining) : List Char → Bool
  | [] => false
  | c :: rest =>
    match Text.joining? c with
    | some .transparent => joinsOn side rest
    | some j => j == side || j == .both
    | none => false

/-- Joiners stand behind a virama; a non-joiner may also stand between letters that would join.
`before` holds the characters already passed, the last first. -/
def joinersFit (before : List Char) : List Char → Bool
  | [] => true
  | c :: rest =>
    let afterVirama := before.head?.any isVirama
    let fits :=
      if c == '\u200d' then afterVirama
      else if c == '\u200c' then
        afterVirama || (joinsOn .left before && joinsOn .right rest)
      else true
    fits && joinersFit (c :: before) rest

/-- Whether a label does not begin with a mark and its joiners stand where they may. -/
def isLabel (label : List Char) : Bool :=
  !label.head?.any Text.isCombining && joinersFit [] label

def isWrittenFromRight (c : Char) : Bool :=
  Text.direction c == .right || Text.direction c == .arabicNumber

/-- What a label ends in, apart from marks. -/
def lastDirection (label : List Char) : Option Text.Direction :=
  (label.reverse.map Text.direction).find? (· != .mark)

/-- The rule for labels of names in which anything is written from the right: each keeps to one
direction, and begins and ends in it. -/
def keepsDirection (label : List Char) : Bool :=
  let directions := label.map Text.direction
  match directions with
  | [] => true
  | .left :: _ =>
    directions.all (fun d => d == .left || d == .number || d == .neutral || d == .mark) &&
      (lastDirection label == some .left || lastDirection label == some .number)
  | .right :: _ =>
    directions.all (fun d => d != .left && d != .other) &&
      !(directions.contains .number && directions.contains .arabicNumber) &&
      (lastDirection label == some .right || lastDirection label == some .number ||
        lastDirection label == some .arabicNumber)
  | _ => false

/-- A label: the characters it stands for and how it is written in ASCII. -/
structure Label where
  meant : List Char
  written : List Char

/-- The mark of labels in Punycode. -/
def lead : List Char := ['x', 'n', '-', '-']

/-- A label in Punycode, without its mark. It has to stand for something that is not ASCII and that
is in its normal form. -/
def readEncoded? (code : List Char) : Option Label := do
  if code.isEmpty || code.getLast? == some '-' || 2000 < code.length || !code.all Punycode.isBasic
  then none
  else
    let meant ← Punycode.decode? code
    if meant.all isPlain && Text.compose meant == meant && isLabel meant then
      some ⟨meant, lead ++ code⟩
    else none

def readLabel? (label : List Char) : Option Label :=
  if lead.isPrefixOf label then readEncoded? (label.drop 4)
  else if label.all Punycode.isBasic then some ⟨label, label⟩
  else if isLabel label && label.length ≤ 1000 then some ⟨label, lead ++ Punycode.encode label⟩
  else none

/-- The ASCII form of a name, if it is a proper one. -/
def toAscii? (host : List Char) : Option (List Char) := do
  let labels ← (Text.splitBy (· == '.') (← normalize? host)).mapM readLabel?
  let mixed := labels.any (·.meant.any isWrittenFromRight)
  if labels.any (·.meant.any isForbidden) then none
  else if mixed && !labels.all (keepsDirection ·.meant) then none
  else ['.'].intercalate (labels.map (·.written))

end PathLanguage.Domain
