import Depends.Session.Health
import Depends.Text.Percent

/-!
Requests for the state of a session. A path that is not in its shortest form is answered with the address
to go to.
-/
namespace Depends

/-- What a request asks for: a path, with what must be encoded in it encoded, and a query. -/
structure Target where
  path : String
  query : String
  deriving DecidableEq, Repr

/-- An answer to a request: its code, the type of its body and the body. -/
structure Response where
  code : Nat
  type : String
  body : String
  deriving DecidableEq, Repr

namespace Target

/-- A character that is never encoded in a path. -/
def isPlain (c : Char) : Bool := c.isAlphanum || "-_.~$&+,/:;=@".toList.contains c

/-- A character that a path may have as it is. -/
def isAllowed (c : Char) : Bool := isPlain c || "!'()*[]%".toList.contains c

/-- A path with only allowed characters is kept. Any other is decoded and encoded again. -/
def encodedPath (path : List Char) : String :=
  if path.all isAllowed then String.ofList path
  else Text.Percent.encode isPlain (Text.Percent.bytes path)

/-- The target in a request line. It starts with a slash, has neither blanks nor control characters, and
its path is well encoded. -/
def ofText? (text : String) : Option Target :=
  let path := text.toList.takeWhile (· != '?')
  let fits := path.head? == some '/' && Text.Percent.isValid path &&
    text.toList.all fun c => ' ' < c && c != '\x7f'
  if fits then
    some { path := encodedPath path, query := String.ofList (text.toList.dropWhile (· != '?')).tail }
  else none

/-- The shortest form of the path, which keeps a slash at its end. -/
def shortestPath (t : Target) : String :=
  let shortest := Path.clean t.path
  if t.path.toList.getLast? == some '/' && shortest != "/" then shortest ++ "/" else shortest

end Target

namespace Response

/-- A text inside a document for browsers. -/
def escaped (text : String) : String :=
  String.join (text.toList.map fun c =>
    match c with
    | '&' => "&amp;"
    | '<' => "&lt;"
    | '>' => "&gt;"
    | '"' => "&#34;"
    | '\'' => "&#39;"
    | c => String.singleton c)

/-- The answer that leads to another path, with the query if there is one. -/
def goTo (path query : String) : Response :=
  let address := if query == "" then path else path ++ "?" ++ query
  { code := 307, type := "text/html; charset=utf-8"
    body := "<a href=\"" ++ escaped address ++ "\">Temporary Redirect</a>.\n\n" }

/-- The answer for a path at which there is nothing. -/
def notFound : Response :=
  { code := 404, type := "text/plain; charset=utf-8", body := "404 page not found\n" }

/-- The answer to a request for the whole server. -/
def badRequest : Response := { code := 400, type := "", body := "" }

end Response

namespace Session

/-- The answer to a request for a target. -/
def answer (s : Session) (now : Stamp) (t : Target) : Response :=
  if t.shortestPath != t.path then Response.goTo t.shortestPath t.query
  else if Text.Percent.decode t.path == "/health" then
    { code := if s.health.isUp then 200 else 503, type := "application/json", body := s.health.json now }
  else Response.notFound

/-- The answer to a request; a malformed one has none. A star asks for the whole server. -/
def answer? (s : Session) (now : Stamp) (text : String) : Option Response :=
  if text == "*" then some Response.badRequest else (Target.ofText? text).map (s.answer now)

end Session

end Depends
