import Diagrams.Text.Digit
import Diagrams.Text.Lines

/-!
# Targets of requests

A request names what it asks for by a reference, which is read from the service's own address. Of
all its parts only the path decides what is asked for.

* `Reference`, `Reference.ofText` — the parts of a reference.
* `withoutDots` — a path with the steps taken that stay and that lead up.
* `unescaped` — a path with the characters for which escapes stand.
* `Target.path` — the path that a target names, `TargetError` — why it names none.

Steps are taken before escapes are read, so a dot that is written as an escape is a name. Escapes
are read twice, since a path is escaped once for the reference and once for the way.
-/

namespace Diagrams.Service

/-- The parts of a reference up to its path. What is missing is empty. -/
structure Reference where
  /-- The scheme. -/
  scheme : List Char := []
  /-- The name before the host. -/
  user : List Char := []
  /-- The host. -/
  host : List Char := []
  /-- The port. -/
  port : List Char := []
  /-- The path. -/
  path : List Char := []
  deriving DecidableEq, Repr

namespace Reference

/-- Whether a character can stand in a scheme. The first one is a letter. -/
def isSchemeChar (c : Char) : Bool := c.isAlphanum || c == '+' || c == '.' || c == '-'

/-- The scheme with the text after its colon; no scheme when no colon ends one. -/
def splitScheme (cs : List Char) : List Char × List Char :=
  let run := match cs with
    | c :: _ => if c.isAlpha then cs.takeWhile isSchemeChar else []
    | [] => []
  match cs.drop run.length with
  | ':' :: rest => (run, rest)
  | _ => ([], cs)

/-- Whether a character ends an authority. -/
def endsAuthority (c : Char) : Bool := c == '/' || c == '?' || c == '#'

/-- The authority, which two slashes announce, and the text after it. -/
def splitAuthority : List Char → List Char × List Char
  | '/' :: '/' :: rest => rest.span fun c => !endsAuthority c
  | cs => ([], cs)

/-- The name before the last at sign, and the text after it. -/
def splitUser (cs : List Char) : List Char × List Char :=
  if cs.contains '@' then
    let host := (cs.reverse.takeWhile (· != '@')).reverse
    (cs.take (cs.length - host.length - 1), host)
  else ([], cs)

/-- The host, which may stand in brackets, and the port after its colon. -/
def splitPort (cs : List Char) : List Char × List Char :=
  let host := match cs with
    | '[' :: _ =>
      if cs.contains ']' then (cs.reverse.dropWhile (· != ']')).reverse
      else cs.takeWhile (· != ':')
    | _ => cs.takeWhile (· != ':')
  match cs.drop host.length with
  | ':' :: port => (host, port)
  | port => (host, port)

/-- The parts of a reference. -/
def ofText (cs : List Char) : Reference :=
  let (scheme, cs) := splitScheme cs
  let (authority, cs) := splitAuthority cs
  let (user, authority) := splitUser authority
  let (host, port) := splitPort authority
  { scheme, user, host, port, path := cs.takeWhile fun c => c != '?' && c != '#' }

/-- Whether the reference says where its path starts. -/
def isAbsolute (r : Reference) : Bool := r.scheme != [] && r.host != []

/-- Whether there is anything before the path. -/
def isRooted (r : Reference) : Bool :=
  r.scheme != [] || r.user != [] || r.host != [] || r.port != []

end Reference

/-- The steps of a path with those taken that stay and that lead up, added to the steps before them,
the last one first. No step leads above the first slash. -/
def takeDots (done : List (List Char)) : List (List Char) → List (List Char)
  | [] => done.reverse
  | ['.'] :: rest => takeDots done rest
  | ['.', '.'] :: rest =>
    match done with
    | [] | [[]] => takeDots done rest
    | _ :: above => takeDots above rest
  | s :: rest => takeDots (s :: done) rest

/-- A path with the steps taken that stay and that lead up. -/
def withoutDots (path : List Char) : List Char :=
  ['/'].intercalate (takeDots [] (Text.split '/' path))

/-- The character for which an escape stands. Bytes beyond ASCII occur in no path that is served;
they are read as the mark for what cannot be read. -/
def escapedChar? (a b : Char) : Option Char := do
  let n := 16 * (← Text.hexDigit? a) + (← Text.hexDigit? b)
  return if n < 0x80 then Char.ofNat n else '\uFFFD'

/-- A path with the characters for which escapes stand. A percent sign that starts no escape stands
for itself. -/
def unescaped : List Char → List Char
  | '%' :: a :: b :: rest =>
    match escapedChar? a b with
    | some c => c :: unescaped rest
    | none => '%' :: unescaped (a :: b :: rest)
  | c :: rest => c :: unescaped rest
  | [] => []

/-- Why a target names no path. -/
inductive TargetError where
  /-- It is no reference. -/
  | malformed
  /-- It asks for another kind of service. -/
  | unknownScheme
  deriving DecidableEq, Repr

namespace Target

/-- The most characters that a target may have. -/
def maxLength : Nat := 65536

/-- Whether a character cannot stand in a target. -/
def isControl (c : Char) : Bool := c.toNat < 32 || c.toNat == 127

/-- The schemes of the service. -/
def schemes : List String := ["http", "https"]

/-- Whether a text can be a port. -/
def isPort (cs : List Char) : Bool := cs == [] || (Text.decimalValue? cs).isSome

/-- The path of a reference, from the service's own address, with the steps taken. -/
def pathOf (r : Reference) : List Char :=
  let path := if r.isRooted then withoutDots r.path else r.path
  let path := if r.isAbsolute then path else '/' :: path.dropWhile (· == '/')
  match withoutDots path with
  | [] => ['/']
  | path => path

/-- The path that a target names. -/
def path (target : String) : Except TargetError (List Char) :=
  let cs := target.toList
  let r := Reference.ofText cs
  if maxLength < cs.length ∨ cs.any isControl ∨ !isPort r.port then .error .malformed
  else if !r.isRooted ∧ (['/', '/'].isPrefixOf r.path ∨ [':'].isPrefixOf r.path) then
    .error .malformed
  else if r.isAbsolute ∧ (String.ofList r.scheme).toLower ∉ schemes then .error .unknownScheme
  else .ok (unescaped (unescaped (pathOf r)))

end Target

end Diagrams.Service
