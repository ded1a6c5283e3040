import Toolgate.Json.Loaded
import Toolgate.Server.Front
import Toolgate.Service.Invoke
import Toolgate.Settings

/-!
# What a server offers

A server is made from settings and a description. It offers the operations of the compiled table as
tools, its resources as templates, and the description itself as a resource. Over HTTP it stands
behind a front.

## Main definitions

* `Offer`, `Offer.make`: what a server offers, and how it is made
* `isHttp`: is the server reached over HTTP?
* `Offer.tool?`, `Offer.template?`, `readTemplate`, `Offer.documentText`: what callers reach
-/

namespace Toolgate.Server

/-- Why there is no server. -/
inductive MakeError where
  /-- The description, or what it says about itself, is no object. -/
  | notObject
  /-- A schema of the description cannot be translated. -/
  | translation (cause : Schema.TranslationError)
  /-- The scheme of the resources is none. -/
  | scheme

/-- What a server offers. -/
structure Offer where
  name : String
  instructions : String
  document : Loaded
  /-- The resource that holds the description. -/
  documentUri : String
  documentNote : String
  table : Catalog.Table
  /-- What stands before the server when it is reached over HTTP. -/
  front : Option Front

/-! ## Templates -/

/-- What follows a brace is a name, perhaps with a star, and a closing brace. -/
def isVariable (cs : List Char) : Bool :=
  let name := cs.takeWhile Text.isWord
  !name.isEmpty && match cs.drop name.length with
    | '\x7d' :: _ => true
    | '*' :: '\x7d' :: _ => true
    | _ => false

/-- Does a variable occur in a template? -/
def holdsVariable : List Char → Bool
  | [] => false
  | c :: rest => (c == '\x7b' && isVariable rest) || holdsVariable rest

/-- Does a list of query variables occur in a template? -/
def holdsQuery : List Char → Bool
  | [] => false
  | c :: rest =>
    (c == '\x7b' && (match rest with
      | '?' :: body =>
        let names := body.takeWhile (· != '\x7d')
        !names.isEmpty && names.length < body.length
      | _ => false)) || holdsQuery rest

/-- Can a template be offered? It has a variable that is a word, and no query variables. -/
def isOffered (uriTemplate : String) : Bool :=
  holdsVariable uriTemplate.toList && !holdsQuery uriTemplate.toList

/-- The resources that are offered as templates. -/
def Offer.templates (offer : Offer) : List Catalog.Resource :=
  (offer.table.resources.map (·.2)).filter fun r => isOffered r.uriTemplate

/-! ## Making -/

/-- The address of the upstream service when neither the settings nor the description name one. -/
def standingAddress : String := "http://localhost"

/-- The text, unless it is empty. -/
def nonEmpty? (text? : Option String) : Option String :=
  text?.filter fun s => !s.isEmpty

/-- The address of the upstream service. -/
def addressOf (settings : Settings) (document : Json) : Except MakeError String :=
  match nonEmpty? settings.baseUrl with
  | some url => .ok url
  | none =>
    if !document.isObject then .error .notObject
    else .ok ((nonEmpty? (Catalog.serverUrl? document)).getD standingAddress)

/-- The title of a description; none when it has none. -/
def titleOf (document : Json) : Except MakeError (Option String) :=
  if !document.isObject then .error .notObject
  else
    let info := (document.getD "info").orElse (.obj [])
    if !info.isObject then .error .notObject
    else
      let title := info.getD "title"
      .ok (if title.truthy then some title.display else none)

/-- What callers are told of the server as a whole. -/
def instructionsFor (title : Option String) : String :=
  "Tools and resources generated from the OpenAPI document of "
    ++ title.getD "the upstream REST API"
    ++ ". Call list_api_tags to discover operation groups and get_server_info for the active "
    ++ "configuration."

/-- Is the text the scheme of a URL? -/
def isScheme (s : String) : Bool :=
  match s.toList with
  | [] => false
  | c :: rest =>
    Text.isAsciiLetter c
      && rest.all fun d => Text.isAsciiAlnum d || d == '+' || d == '-' || d == '.'

/-- The URI of the description under a scheme. Schemes of the web ask for a path. -/
def documentUriOf (scheme : String) : Except MakeError String :=
  if !isScheme scheme then .error .scheme
  else
    let small := Decimal.smallWord scheme.toList
    let path := if ["http", "https", "ws", "wss", "ftp", "file"].contains small then "/" else ""
    .ok (small ++ "://openapi.json" ++ path)

/-- The transports over HTTP. -/
def httpTransports : List String :=
  ["http", "streamable-http", "streamablehttp", "sse"]

/-- Is the server reached over HTTP? -/
def isHttp (settings : Settings) : Bool :=
  httpTransports.contains (Text.lower settings.transport)

/-- The server of settings and a description, whose calls a client at `clientUrl` performs. -/
def Offer.make (settings : Settings) (clientUrl : String) (document : Loaded) :
    Except MakeError Offer := do
  let address ← addressOf settings document.toJson
  let table ←
    (Catalog.compile (settings.options address) clientUrl document.toJson).mapError .translation
  let title ← titleOf document.toJson
  let documentUri ← documentUriOf settings.resourceScheme
  .ok { name := settings.serviceName
        instructions := instructionsFor title
        document
        documentUri
        documentNote := "The OpenAPI specification for " ++ title.getD "the API"
        table
        front := if isHttp settings then some ⟨nonEmpty? settings.authToken⟩ else none }

/-- The client of settings, for a service at `address`. -/
def clientOf (settings : Settings) (address : String) : Http.Client where
  baseUrl := address
  apiKey := settings.apiKey
  timeout := .float settings.timeoutSeconds

/-! ## Callers -/

variable {α : Type} [Add α] [Sub α] [Mul α] [Div α] [LT α] [DecidableLT α] [OfNat α 0] [OfNat α 1]
  [OfNat α 1000]

/-- The tool of a name. -/
def Offer.tool? (offer : Offer) (name : String) : Option Catalog.Operation :=
  lookupField name offer.table.operations

/-- The template of a URI. -/
def Offer.template? (offer : Offer) (uri : String) : Option Catalog.Resource :=
  offer.templates.find? (·.uriTemplate == uri)

/-- Values of variables that are no texts. -/
def variableTroubles (given : Call.Fields) : List Schema.Trouble :=
  given.filterMap fun (name, v) =>
    match v with
    | .str _ => none
    | _ => some ⟨[.key name], .notText⟩

/-- Why a template could not be read. -/
inductive ReadError where
  | values (troubles : List Schema.Trouble)
  | failure (cause : Call.Failure)

/-- A reading of a template with values for its variables, which are texts. -/
def readTemplate (upstream : Service.Upstream α) (pacer : Pacing.Pacer α)
    (resource : Catalog.Resource) (given : Call.Fields) :
    Option (Service.Done α (Except ReadError String)) :=
  match variableTroubles given with
  | [] =>
    (Service.readResource upstream pacer resource given).map
      (Service.Done.map fun result => result.mapError .failure)
  | troubles => some { result := .error (.values troubles), pacer }

/-- The text of the description, written from what was loaded. -/
def Offer.documentText (offer : Offer) : Except DumpError String :=
  offer.document.dump Json.spaced

end Toolgate.Server
