/-
Paths: segments appended to a path one after another, with dots resolved and the drive letters of
files kept.
-/
import PathLanguage.Text.Blank
import PathLanguage.Uri.Host

namespace PathLanguage.Uri

def isSlash (special : Bool) (c : Char) : Bool := c == '/' || (special && c == '\\')

def isDot (s : List Char) : Bool := String.ofList (s.map Char.toLower) ∈ [".", "%2e"]

def isDoubleDot (s : List Char) : Bool :=
  String.ofList (s.map Char.toLower) ∈ ["..", ".%2e", "%2e.", "%2e%2e"]

/-- A letter with a colon or a bar. -/
def isDrive : List Char → Bool
  | [a, b] => a.isAlpha && (b == ':' || b == '|')
  | _ => false

/-- A letter with a colon. -/
def isProperDrive (s : List Char) : Bool := isDrive s && s.getLast? == some ':'

/-- Whether a text begins with a drive that nothing else belongs to. -/
def beginsWithDrive (cs : List Char) : Bool :=
  isDrive (cs.take 2) && (cs[2]?.all fun c => c == '/' || c == '\\' || c == '?' || c == '#')

def throughLastSlash (path : List Char) : List Char := (path.reverse.dropWhile (· != '/')).reverse

def behindLastSlash (path : List Char) : List Char := (path.reverse.takeWhile (· != '/')).reverse

/-- The path without what stands behind its last slash; the drive of a file stays. -/
def dropName (file : Bool) (path : List Char) : List Char :=
  if file && isProperDrive (behindLastSlash path) then path else throughLastSlash path

/-- The path without its last segment, which ends in a slash. The first slash and that behind a
drive stay. -/
def dropSegment (file : Bool) (path : List Char) : List Char :=
  let shorter := path.dropLast
  let last := behindLastSlash shorter ++ ['/']
  if path.getLast? == some '/' && shorter.contains '/' && !beginsWithDrive last then
    dropName file shorter
  else dropName file path

/-- A path, and whether it names the drive that the file is on. -/
structure DrivePath where
  path : List Char
  namesDrive : Bool := false

/-- Appends a segment, and a slash behind it if another segment follows. -/
def appendSegment (file : Bool) (p : DrivePath) (segment : List Char) (slash : Bool) : DrivePath :=
  let onDrive := file && isProperDrive (p.path.drop 1)
  let path := if onDrive && !segment.isEmpty then p.path ++ ['/'] else p.path
  let text := encodePath segment
  let closed (path : List Char) := if path.getLast? == some '/' then path else path ++ ['/']
  let ending := if slash then ['/'] else []
  if isDoubleDot text then
    let shorter := dropSegment file path
    { p with path := if slash then closed shorter else shorter }
  else if isDot text then { p with path := closed path }
  else if file && path.length == 1 && isDrive text then
    ⟨path ++ text.take 1 ++ [':'] ++ ending, true⟩
  else { p with path := path ++ text ++ ending }

def appendSegments (file : Bool) (p : DrivePath) : List (List Char) → DrivePath
  | [] => p
  | [last] => appendSegment file p last false
  | s :: rest => appendSegments file (appendSegment file p s true) rest

/-- Goes on with a path. That of a file does not begin with two slashes. -/
def readPath (scheme : List Char) (start cs : List Char) : DrivePath :=
  let p := appendSegments (isFile scheme) ⟨start, false⟩
    (Text.splitBy (isSlash (isSpecial scheme)) cs)
  if isFile scheme then { p with path := '/' :: p.path.dropWhile (· == '/') } else p

/-- Reads the path behind an authority, with or without its first slash. -/
def readFirstPath (scheme : List Char) (cs : List Char) : DrivePath :=
  match cs with
  | [] => if isSpecial scheme then readPath scheme ['/'] [] else ⟨[], false⟩
  | c :: rest => readPath scheme ['/'] (if isSlash (isSpecial scheme) c then rest else cs)

end PathLanguage.Uri
