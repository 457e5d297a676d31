/-
Absolute URIs: reading a reference against a base, with dot segments removed and characters outside
the repertoire of each part percent-encoded.
-/
import PathLanguage.Uri.Path

namespace PathLanguage

inductive UriPath where
  /-- A path that nothing can be relative to. -/
  | flat (text : List Char)
  | hierarchical (text : List Char)

/-- An absolute URI without fragment. The authority is the text between the slashes. -/
structure Uri where
  scheme : List Char
  authority : Option (List Char)
  path : UriPath
  query : Option (List Char)

namespace Uri

/-- The text without controls and spaces at its ends and without tabs and line ends. -/
def clean (s : String) : List Char :=
  let isEdge (c : Char) : Bool := c.toNat ≤ 0x20
  let inner := ((s.toList.dropWhile isEdge).reverse.dropWhile isEdge).reverse
  inner.filter fun c => c != '\t' && c != '\n' && c != '\r'

/-- The scheme in lower case and what follows its colon. -/
def splitScheme? (cs : List Char) : Option (List Char × List Char) :=
  match cs with
  | [] => none
  | c :: _ =>
    if c.isAlpha then
      let name := cs.takeWhile fun c => c.isAlphanum || c == '+' || c == '-' || c == '.'
      match cs.drop name.length with
      | ':' :: rest => some (name.map Char.toLower, rest)
      | _ => none
    else none

/-- The parts of a reference before its query, of its query, and nothing of its fragment. -/
def splitQuery (cs : List Char) : List Char × Option (List Char) :=
  let body := cs.takeWhile (· != '#')
  match body.dropWhile (· != '?') with
  | [] => (body, none)
  | _ :: q => (body.takeWhile (· != '?'), some q)

/-- Reads what follows the authority: a path, which `read` makes from its text, and a query. -/
def withRest (scheme : List Char) (authority : Option (List Char)) (cs : List Char)
    (read : List Char → List Char) : Uri :=
  let (body, query) := splitQuery cs
  ⟨scheme, authority, .hierarchical (read body), query.map (encodeQuery (isSpecial scheme))⟩

def isAnySlash (c : Char) : Bool := c == '/' || c == '\\'

/-- Whether the character ends an authority. -/
def endsAuthority (special : Bool) (c : Char) : Bool := isSlash special c || c == '?' || c == '#'

/-- Where the host ends: at a colon outside brackets, or with the authority. -/
def splitHost (special inBrackets : Bool) : List Char → List Char × List Char
  | [] => ([], [])
  | c :: rest =>
    if endsAuthority special c || (c == ':' && !inBrackets) then ([], c :: rest)
    else
      let (host, behind) := splitHost special (c == '[' || (inBrackets && c != ']')) rest
      (c :: host, behind)

/-- The user and the password before the host, left out if they are empty, and the rest. -/
def splitUser (special : Bool) (cs : List Char) : Except UriFault (List Char × List Char) :=
  let back := (cs.takeWhile (!endsAuthority special ·)).reverse
  if !back.contains '@' then .ok ([], cs)
  else
    let user := (back.dropWhile (· != '@')).reverse.dropLast
    let rest := cs.drop (user.length + 1)
    if user.isEmpty && rest.head?.any (endsAuthority special) then .error .emptyHost
    else
      let name := encodeUser (user.takeWhile (· != ':'))
      let pass := encodeUser ((user.dropWhile (· != ':')).drop 1)
      let colon := if pass.isEmpty then [] else ':' :: pass
      .ok (if name.isEmpty && pass.isEmpty then [] else name ++ colon ++ ['@'], rest)

/-- An authority, and the text behind it. Without a host it has neither user nor port number. -/
def readAuthority (scheme : List Char) (cs : List Char) :
    Except UriFault (List Char × List Char) := do
  let special := isSpecial scheme
  let (user, rest) ← splitUser special cs
  let (hostText, rest) := splitHost special false rest
  if special && hostText.isEmpty then throw .emptyHost
  let host ← readHost special hostText
  match rest with
  | ':' :: more =>
    if host.isEmpty then throw .emptyHost
    let digits := more.takeWhile fun c => !(isAnySlash c || c == '?' || c == '#')
    return (user ++ host ++ (← readPort scheme digits), more.drop digits.length)
  | _ =>
    if host.isEmpty && !user.isEmpty then throw .emptyHost
    return (user ++ host, rest)

/-- Reads what follows the two slashes before an authority. -/
def readHierarchy (scheme : List Char) (cs : List Char) : Except UriFault Uri := do
  let (authority, rest) ← readAuthority scheme cs
  return withRest scheme (some authority) rest fun body => (readFirstPath scheme body).path

def fileScheme : List Char := "file".toList

/-- Reads what follows the two slashes of a file: a host, unless there is a drive in its place or in
the path. -/
def readFileHierarchy (cs : List Char) : Except UriFault Uri := do
  let hostless (cs : List Char) : Uri :=
    withRest fileScheme (some []) cs fun body => (readPath fileScheme ['/'] body).path
  let hostText := cs.takeWhile (!endsAuthority true ·)
  let rest := cs.drop hostText.length
  if isDrive hostText then return hostless cs
  if hostText.isEmpty then return hostless rest
  let host ← readHost true hostText
  if host == "localhost".toList then return hostless rest
  let onDrive := (readFirstPath fileScheme (splitQuery rest).1).namesDrive
  return withRest fileScheme (some (if onDrive then [] else host)) rest fun body =>
    (readFirstPath fileScheme body).path

def pathText (u : Uri) : List Char :=
  match u.path with
  | .flat t | .hierarchical t => t

/-- Another query for the same document, or none other. -/
def withQuery (u : Uri) (cs : List Char) : Uri :=
  let query := (splitQuery cs).2.map (encodeQuery (isSpecial u.scheme))
  { u with query := query <|> u.query }

/-- Whether a reference has nothing but a query or a fragment. -/
def isBodiless (cs : List Char) : Bool := cs.head?.all fun c => c == '?' || c == '#'

/-- The authority and the beginning of the path of a file that a slash refers to: the drive or else
the host of the base, unless a drive follows. -/
def fileRoot (base : Option Uri) (behindSlash : List Char) : List Char × List Char :=
  match if beginsWithDrive behindSlash then none else base with
  | none => ([], [])
  | some b =>
    let first := (b.pathText.drop 1).takeWhile (· != '/')
    if isProperDrive first then ([], '/' :: first) else (b.authority.getD [], [])

/-- Reads a reference to a file, against another file if there is one. -/
def readFile (base : Option Uri) (cs : List Char) : Except UriFault Uri :=
  let onRoot := withRest fileScheme (some []) cs fun body => (readPath fileScheme ['/'] body).path
  if cs.head?.any isAnySlash then
    if (cs.drop 1).head?.any isAnySlash then readFileHierarchy (cs.drop 2)
    else
      let (host, start) := fileRoot base (cs.drop 1)
      .ok (withRest fileScheme (some host) cs fun body => (readPath fileScheme start body).path)
  else match base with
    | none => .ok onRoot
    | some b =>
      if isBodiless cs then .ok (b.withQuery cs)
      else if beginsWithDrive cs then .ok onRoot
      else .ok (withRest fileScheme b.authority cs fun body =>
        (readPath fileScheme (dropName true b.pathText) body).path)

/-- Reads a reference without scheme against a base that is no file. Two slashes of either kind
begin an authority. -/
def readRelative (b : Uri) (cs : List Char) : Except UriFault Uri :=
  let slashes := cs.takeWhile isAnySlash
  if isBodiless cs then .ok (b.withQuery cs)
  else if slashes.length = 0 then
    let kept := dropName false b.pathText
    .ok (withRest b.scheme b.authority cs fun body =>
      (readPath b.scheme (if kept.isEmpty then ['/'] else kept) body).path)
  else if slashes.length = 1 then
    .ok (withRest b.scheme b.authority (cs.drop 1) fun body => (readPath b.scheme ['/'] body).path)
  else
    readHierarchy b.scheme (cs.drop (if slashes.take 2 = ['/', '/'] then 2 else slashes.length))

/-- Reads a reference with a scheme, and against a base of the same scheme what does not tell its
authority. -/
def readAbsolute (base : Option Uri) (scheme : List Char) (cs : List Char) : Except UriFault Uri :=
  let sameBase := base.filter fun b => b.scheme == scheme
  if isFile scheme then readFile sameBase cs
  else if isSpecial scheme then
    let slashes := cs.takeWhile isAnySlash
    match if slashes.length < 2 then sameBase else none with
    | some b => readRelative b cs
    | none => readHierarchy scheme (cs.drop slashes.length)
  else
    match cs with
    | '/' :: '/' :: rest => readHierarchy scheme rest
    | '/' :: rest => .ok (withRest scheme none rest fun body => (readPath scheme ['/'] body).path)
    | _ =>
      let (body, query) := splitQuery cs
      .ok ⟨scheme, none, .flat (encode [] body), query.map (encodeQuery false)⟩

/-- Reads a reference, against a base if there is one. -/
def read (base : Option Uri) (text : String) : Except UriFault Uri :=
  let cs := clean text
  match splitScheme? cs with
  | some (scheme, rest) => readAbsolute base scheme rest
  | none =>
    match base with
    | none => .error .relativeWithoutBase
    | some b =>
      match b.path, cs with
      | .flat _, '#' :: _ => .ok b
      | .flat _, _ => .error .relativeToOpaqueBase
      | .hierarchical _, _ => if isFile b.scheme then readFile (some b) cs else readRelative b cs

/-- The path as it is written: two slashes at its beginning must not look like an authority, and
spaces at the end of an opaque path would get lost. -/
def writtenPath (u : Uri) : List Char :=
  match u.path with
  | .flat t => if u.query.isNone then (t.reverse.dropWhile (· == ' ')).reverse else t
  | .hierarchical t =>
    if u.authority.isNone && ['/', '/'].isPrefixOf t then '/' :: '.' :: t else t

def text (u : Uri) : String :=
  let authority := match u.authority with
    | some a => "//".toList ++ a
    | none => []
  let query := match u.query with
    | some q => '?' :: q
    | none => []
  String.ofList (u.scheme ++ ':' :: authority ++ u.writtenPath ++ query)

/-- The absolute form of a reference, without its fragment. -/
def resolve (reference : String) (base : Option String) : Except UriFault String := do
  let base ← base.mapM (read none)
  return (← read base reference).text

end Uri

end PathLanguage
