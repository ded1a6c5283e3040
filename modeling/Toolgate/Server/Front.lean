import Toolgate.Http.Url
import Toolgate.Text.Edit

/-!
# The HTTP front

What stands before a server that is reached over HTTP: a check of the token, the answer to
cross-origin questions, and the health route. The check comes first, and lets questions about
methods and the health route pass without a token.

## Main definitions

* `Visit`, `Reply`: a request to the server, and its answer
* `isAdmitted`: does a visit pass the check?
* `Front.answer`: the answer to a visit
-/

namespace Toolgate.Server

/-- A request to the server. -/
structure Visit where
  /-- The method in capitals. -/
  method : String
  /-- The path with its escapes resolved. -/
  path : String
  headers : List (String × String)

/-- The answer to a request. -/
structure Reply where
  status : Nat
  body : String
  /-- The origin that is told it may read the answer. -/
  allowOrigin : Option String := none

namespace Visit

/-- The path that a target leads to. Dots in it are resolved. -/
def pathOf (target : String) : String :=
  let rooted := if Text.beginsWith "/" target then target else "/" ++ target
  match Http.Url.read ("http://localhost" ++ rooted) with
  | .ok url => String.ofList (Text.forgiving (Text.utf8 (Http.Url.percentDecoded url.rooted.path)))
  | .error _ => rooted

/-- The visit of a method and a target. -/
def ofTarget (method target : String) (headers : List (String × String)) : Visit :=
  ⟨Text.upper method, pathOf target, headers⟩

/-- The value of a header, whose name is taken in any case. -/
def header? (v : Visit) (name : String) : Option String :=
  (v.headers.find? fun (key, _) => Text.lower key == name).map (·.2)

end Visit

/-! ## The check -/

/-- The route that tells whether the server is up. -/
def healthPath : String := "/health"

/-- The token in a header: what is left of it without the word `Bearer` and blanks around it. -/
def presentedToken (header : String) : String :=
  Text.strip (Text.replaced header "Bearer" "")

/-- The part of a path that a URL takes for its path. -/
def urlPath (path : String) : String :=
  String.ofList (path.toList.takeWhile fun c => c != '?' && c != '#')

/-- Does a visit pass the check of a token? Questions about methods pass, and so does everything
under a path that ends in that of the health route. -/
def isAdmitted (token : String) (v : Visit) : Bool :=
  v.method == "OPTIONS" || Text.endsIn healthPath (urlPath v.path)
    || presentedToken ((v.header? "authorization").getD "") == token

/-! ## Routes -/

/-- The methods that cross-origin requests may use. -/
def openMethods : List String :=
  ["DELETE", "GET", "HEAD", "OPTIONS", "PATCH", "POST", "PUT"]

/-- The answer to a path and a method. A slash too many at the end of the health route leads to
it. -/
def routed (v : Visit) : Reply :=
  if v.path == healthPath then
    if v.method == "GET" || v.method == "HEAD" then ⟨200, "\x7b\"status\":\"ok\"\x7d", none⟩
    else ⟨405, "Method Not Allowed", none⟩
  else if Text.trimEnd (· == '/') v.path.toList == healthPath.toList then ⟨307, "", none⟩
  else ⟨404, "Not Found", none⟩

/-- The answer to a question whether a method may be used from another origin. -/
def permission (method origin : String) : Reply :=
  if openMethods.contains method then ⟨200, "OK", some origin⟩
  else ⟨400, "Disallowed CORS method", some origin⟩

/-- The answer of the routes, where a visit from another origin is told that it may read it. -/
def shared (v : Visit) : Reply :=
  match v.header? "origin", v.header? "access-control-request-method" with
  | none, _ => routed v
  | some origin, none => { routed v with allowOrigin := some origin }
  | some origin, some method =>
    if v.method == "OPTIONS" then permission method origin
    else { routed v with allowOrigin := some origin }

/-- What stands before the server: the token that callers must present, if any. -/
structure Front where
  token : Option String

/-- The answer to a visit; without a body when only the head is asked for. -/
def Front.answer (front : Front) (v : Visit) : Reply :=
  let reply := match front.token with
    | none => shared v
    | some token =>
      if isAdmitted token v then shared v
      else ⟨401, "\x7b\"error\":\"Unauthorized\"\x7d", none⟩
  if v.method == "HEAD" then { reply with body := "" } else reply

end Toolgate.Server
