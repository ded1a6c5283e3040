import Toolgate.Call.Assembly
import Toolgate.Http.Response
import Toolgate.Http.Target
import Toolgate.Http.Url

/-!
# The upstream client

Performs calls against one base URL. Timeouts and broken exchanges come back as responses without
a status. What the client does not handle, such as a URL that is none or an answer that cannot be
read, is a `ClientError`.

## Main definitions

* `Client`, `Request`: who asks, and what is sent
* `Client.prepare`: the request for a method, a path template and its parts
* `Client.perform`: the response to it, given what became of the request
-/

namespace Toolgate.Http

/-- A client of one upstream service. -/
structure Client where
  /-- The base URL as it is configured. -/
  baseUrl : String
  apiKey : Option String := none
  /-- The timeout in seconds, as it is reported. -/
  timeout : Json := .int 30

/-- A request as the upstream service sees it. -/
structure Request where
  method : String
  url : String
  accept : String
  authorization : Option String
  contentType : Option String
  body : Option String

/-- What a call came to. -/
structure Response where
  status : Option Int
  payload : Json := .null
  error : Json := .null

/-- Did the call succeed? -/
def Response.ok (response : Response) : Bool :=
  response.status.any isSuccess

/-- What the client does not handle. -/
inductive ClientError where
  | url (cause : UrlError)
  /-- A header holds the characters from one position to before another that are not ASCII. -/
  | header (text : String) (first last : Nat)
  /-- The body holds an infinite or undefined number. -/
  | body
  /-- The body of the answer cannot be read. -/
  | charset (fault : CharsetFault)
  | crashed (name message : String)

/-- The characters that are not ASCII, as they are named in an error. -/
def headerFault (text : String) (first last : Nat) : String :=
  if last == first + 1 then
    let c := text.toList.getD first ' '
    let code := if c.toNat < 0x100 then 'x' :: Text.hexDigits c.toNat 2
      else if c.toNat < 0x10000 then 'u' :: Text.hexDigits c.toNat 4
      else 'U' :: Text.hexDigits c.toNat 8
    "character '\\" ++ String.ofList code ++ "' in position " ++ Decimal.natText first
  else "characters in position " ++ Decimal.natText first ++ "-" ++ Decimal.natText (last - 1)

/-- The wording of an error; it may be empty. -/
def ClientError.wording : ClientError → String
  | .url cause => cause.message
  | .header text first last =>
    "'ascii' codec can't encode " ++ headerFault text first last ++ ": ordinal not in range(128)"
  | .body => "Out of range float values are not JSON compliant"
  | .charset fault => fault.wording
  | .crashed name message =>
    if name == "KeyError" then Text.quoted message else message

/-- The name of an error. -/
def ClientError.name : ClientError → String
  | .url _ => "InvalidURL"
  | .header _ _ _ => "UnicodeEncodeError"
  | .body => "ValueError"
  | .charset fault => fault.name
  | .crashed name _ => name

/-- What is reported of an error: its wording, or its name when it has none. -/
def ClientError.message (e : ClientError) : String :=
  if e.wording.isEmpty then e.name else e.wording

/-- A text as the value of a header. -/
def headerValue (s : String) : Except ClientError String :=
  let cs := s.toList
  let plain := cs.takeWhile (·.toNat < 0x80)
  let foreign := (cs.drop plain.length).takeWhile (0x80 ≤ ·.toNat)
  if foreign.isEmpty then .ok s
  else .error (.header s plain.length (plain.length + foreign.length))

/-- The pairs of a query: one for each value, and for an array one for each item. -/
def queryPairs (query : Call.Fields) : List (String × String) :=
  query.flatMap fun (key, v) =>
    match v with
    | .arr items => items.map fun item => (key, argumentText item)
    | v => [(key, argumentText v)]

/-- Pairs as a form. -/
def formEncoded (pairs : List (String × String)) : List Char :=
  List.intercalate ['&'] (pairs.map fun (key, value) =>
    Text.formText key ++ '=' :: Text.formText value)

/-- The query that a call gives, as a form. -/
def givenQuery? (parts : Call.Parts) : Option (List Char) :=
  match parts.query with
  | some (field :: rest) => some (formEncoded (queryPairs (field :: rest)))
  | _ => none

namespace Client

/-- The URL of a template that is filled in. One that is put at the root is put together anew, so
that its parts are measured again. -/
def filledUrl (client : Client) (path : String) (parts : Call.Parts) : Except ClientError Url :=
  match Url.read (buildUrl client.baseUrl path (parts.path.getD [])) with
  | .error cause => .error (.url cause)
  | .ok url =>
    match (if url.isAbsolute then none else url.rooted.overlongPart?) with
    | some part => .error (.url (.partTooLong part))
    | none => .ok url.rooted

/-- The URL of a call. A query that is given replaces that of the URL. -/
def url (client : Client) (path : String) (parts : Call.Parts) : Except ClientError Url :=
  (client.filledUrl path parts).map fun url => (givenQuery? parts).elim url url.withQuery

/-- The authorization of a call: the API key as a bearer token, else the user of the URL. -/
def authorization (client : Client) (url : Url) : Except ClientError (Option String) :=
  match client.apiKey with
  | some key =>
    if key.isEmpty then .ok url.basicAuthorization? else (headerValue ("Bearer " ++ key)).map some
  | none => .ok url.basicAuthorization?

/-- The request for a method, a path template and its parts. -/
def prepare (client : Client) (method path : String) (parts : Call.Parts) :
    Except ClientError Request :=
  match client.url path parts with
  | .error e => .error e
  | .ok url =>
    match client.authorization url with
    | .error e => .error e
    | .ok authorization =>
      -- The headers are looked at before the query is put in.
      match (givenQuery? parts).bind fun _ => url.overlongPart? with
      | some part => .error (.url (.partTooLong part))
      | none =>
        if parts.body.isNull then
          .ok ⟨Text.upper method, url.text, "application/json", authorization, none, none⟩
        else if parts.body.holdsNonFinite then .error .body
        else .ok ⟨Text.upper method, url.text, "application/json", authorization,
          some "application/json", some (parts.body.print Json.compact)⟩

/-- The response that a reply stands for. -/
def conclude (client : Client) : Reply → Except ClientError Response
  | .answered answer =>
    match answer.payload with
    | .error fault => .error (.charset fault)
    | .ok payload =>
      if isSuccess answer.status then .ok ⟨some answer.status, payload, .null⟩
      else .ok ⟨some answer.status, .null, payload⟩
  | .timedOut =>
    .ok ⟨none, .null, .str ("Request timed out after " ++ client.timeout.display ++ "s")⟩
  | .broken name message => .ok ⟨none, .null, .str (if message.isEmpty then name else message)⟩
  | .crashed name message => .error (.crashed name message)

/-- The requests that a call sends, and what it comes to when `reply` is what becomes of them. -/
def perform (client : Client) (method path : String) (parts : Call.Parts) (reply : Reply) :
    List Request × Except ClientError Response :=
  match client.prepare method path parts with
  | .error e => ([], .error e)
  | .ok request => ([request], client.conclude reply)

end Client

end Toolgate.Http
