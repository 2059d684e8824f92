import Reshape.Fault
import Reshape.Schema.Uri.Host

/-! URI references (RFC 3986): their parts, resolution against a base, and fragments. A part that is
empty counts as absent. -/

namespace Reshape.Schema

structure Uri where
  scheme : List Char
  authority : List Char
  path : List Char
  /-- What follows a semicolon in the last segment of the path. -/
  params : List Char
  query : List Char
  fragment : List Char
  deriving DecidableEq, Repr

namespace Uri

/-- What stands before the first character of a set, and from there on. -/
def cut (stops : List Char) (cs : List Char) : List Char × List Char :=
  (cs.takeWhile fun c => !stops.contains c, cs.dropWhile fun c => !stops.contains c)

/-- What stands before a mark, and behind it. -/
def cutAt (mark : Char) (cs : List Char) : List Char × List Char :=
  ((cut [mark] cs).1, (cut [mark] cs).2.drop 1)

/-! ### Schemes -/

/-- Schemes whose references may be relative. -/
def relativeSchemes : List String :=
  ["", "ftp", "http", "gopher", "nntp", "imap", "wais", "file", "https", "shttp", "mms", "prospero",
    "rtsp", "rtsps", "rtspu", "sftp", "svn", "svn+ssh", "ws", "wss"]

/-- Schemes whose URIs have an authority. -/
def authoritySchemes : List String :=
  ["", "ftp", "http", "gopher", "nntp", "telnet", "imap", "wais", "file", "mms", "https", "shttp",
    "snews", "prospero", "rtsp", "rtsps", "rtspu", "rsync", "svn", "svn+ssh", "sftp", "nfs", "git",
    "git+ssh", "ws", "wss"]

/-- Schemes whose paths may have parameters. -/
def paramSchemes : List String :=
  ["", "ftp", "hdl", "prospero", "http", "imap", "https", "shttp", "rtsp", "rtsps", "rtspu", "sip",
    "sips", "mms", "sftp", "tel"]

def isOneOf (schemes : List String) (scheme : List Char) : Bool :=
  schemes.contains (String.ofList scheme)

def isSchemeChar (c : Char) : Bool := c.isAlphanum || c == '+' || c == '-' || c == '.'

/-- The scheme in front of a colon, if there is one, and the rest. -/
def takeScheme (default cs : List Char) : List Char × List Char :=
  match cut [':'] cs with
  | (s@(c :: _), _ :: rest) =>
    if c.isAlpha && s.all isSchemeChar then (s.map Char.toLower, rest) else (default, cs)
  | _ => (default, cs)

/-! ### Parts -/

def takeAuthority : List Char → List Char × List Char
  | '/' :: '/' :: rest => cut ['/', '?', '#'] rest
  | cs => ([], cs)

/-- The parameters of the last segment of a path, and the path without them. -/
def takeParams (path : List Char) : List Char × List Char :=
  let last := (path.reverse.takeWhile (· != '/')).reverse
  let front := path.take (path.length - last.length)
  (front ++ (cutAt ';' last).1, (cutAt ';' last).2)

/-- Without control characters and space in front, line breaks and tabs. -/
def cleaned (s : String) : List Char :=
  (s.toList.dropWhile fun c => c.toNat ≤ 0x20).filter fun c => c != '\t' && c != '\n' && c != '\r'

/-- The parts of a text, whose scheme has a default; parameters are left in the path. -/
def split (default : List Char) (s : String) : Except Crash Uri :=
  let (scheme, cs) := takeScheme default (cleaned s)
  let (authority, cs) := takeAuthority cs
  let (cs, fragment) := cutAt '#' cs
  let (path, query) := cutAt '?' cs
  if Host.isAuthority authority then .ok ⟨scheme, authority, path, [], query, fragment⟩
  else .error .badValue

/-- The parts of a text. -/
def parse (default : List Char) (s : String) : Except Crash Uri := do
  let u ← split default s
  if isOneOf paramSchemes u.scheme then
    let (path, params) := takeParams u.path
    return { u with path, params }
  else return u

def before (mark part : List Char) : List Char := if part.isEmpty then [] else mark ++ part

/-- The path with its authority. -/
def hierarchy (u : Uri) (path : List Char) : List Char :=
  let owned := !u.scheme.isEmpty && isOneOf authoritySchemes u.scheme
  if !u.authority.isEmpty || owned || path.take 2 == ['/', '/'] then
    ['/', '/'] ++ u.authority ++
      (if path.isEmpty || path.head? == some '/' then path else '/' :: path)
  else path

def text (u : Uri) : String :=
  let front := if u.scheme.isEmpty then [] else u.scheme ++ [':']
  String.ofList (front ++ u.hierarchy (u.path ++ before [';'] u.params) ++
    before ['?'] u.query ++ before ['#'] u.fragment)

/-! ### Resolution -/

/-- Segments without `.` and `..`, in reverse. -/
def climb : List (List Char) → List (List Char) → List (List Char)
  | done, [] => done
  | done, s :: rest =>
    if s == ['.', '.'] then climb (done.drop 1) rest
    else if s == ['.'] then climb done rest
    else climb (s :: done) rest

/-- Only the first and the last of some segments may be empty. -/
def dropEmptyInside : List (List Char) → List (List Char)
  | [] => []
  | [s] => [s]
  | s :: rest => s :: (rest.dropLast.filter fun x => !x.isEmpty) ++ rest.getLast?.toList

/-- The segments of a path as seen from a base path. -/
def segmentsFrom (base path : List Char) : List (List Char) :=
  let segments := Host.splitAt '/' path
  if path.head? == some '/' then segments
  else
    let around := Host.splitAt '/' base
    let around := if around.getLast? == some [] then around else around.dropLast
    dropEmptyInside (around ++ segments)

def mergePath (base path : List Char) : List Char :=
  let segments := segmentsFrom base path
  let done := climb [] segments
  let last := segments.getLast?.getD []
  let done := if last == ['.'] || last == ['.', '.'] then [] :: done else done
  let merged := ['/'].intercalate done.reverse
  if merged.isEmpty then ['/'] else merged

/-- Resolves a reference that has the scheme of its base. -/
def resolve (base ref : Uri) : Uri :=
  let owned := isOneOf authoritySchemes ref.scheme
  if owned && !ref.authority.isEmpty then ref
  else
    let ref := if owned then { ref with authority := base.authority } else ref
    if ref.path.isEmpty && ref.params.isEmpty then
      { ref with
        path := base.path
        params := base.params
        query := if ref.query.isEmpty then base.query else ref.query }
    else { ref with path := mergePath base.path ref.path }

/-- A reference resolved against a base; an empty one is the base, and against an empty base it
stays as it is. -/
def join (base ref : String) : Except Crash String :=
  if base.isEmpty then .ok ref
  else if ref.isEmpty then .ok base
  else do
    let b ← parse [] base
    let r ← parse b.scheme ref
    if r.scheme != b.scheme || !isOneOf relativeSchemes r.scheme then return ref
    else return (resolve b r).text

/-- A reference without its fragment, and the fragment. -/
def defragment (s : String) : Except Crash (String × String) :=
  if s.toList.contains '#' then do
    let u ← parse [] s
    return ({ u with fragment := [] }.text, String.ofList u.fragment)
  else .ok (s, "")

/-- The form in which the names of dialects are compared. -/
def normalized (s : String) : Except Crash String := do return (← split [] s).text

/-! ### Escapes -/

/-- The bytes of a text whose percent escapes are undone. -/
def unescapedBytes : List Char → Text.Bytes
  | '%' :: a :: b :: rest =>
    match Text.hexValue? a, Text.hexValue? b with
    | some m, some n => UInt8.ofNat (m * 16 + n) :: unescapedBytes rest
    | _, _ => Text.utf8 "%" ++ unescapedBytes (a :: b :: rest)
  | c :: rest => String.utf8EncodeChar c ++ unescapedBytes rest
  | [] => []

/-- A text with its percent escapes undone. What does not spell UTF-8 becomes U+FFFD. -/
def unescape (cs : List Char) : List Char :=
  if cs.contains '%' then
    let bytes := unescapedBytes cs
    Text.decodeReplacing (bytes.length + 1) bytes
  else cs

end Uri

end Reshape.Schema
