import Toolgate.Catalog.Compile
import Toolgate.Schema.Lax

/-!
# Settings

How a gateway is configured: from the environment, whose names are taken in any case, and from
values that are given directly and go before it. Numbers and truth values may be written as texts.

## Main definitions

* `Settings`: the configuration with its defaults
* `Settings.read`: the configuration that an environment and given values make
* `Settings.options`: what a compilation is told
-/

namespace Toolgate

/-- The configuration of a gateway. -/
structure Settings where
  serviceName : String := "openapi-mcp-adapter"
  /-- Where the description is read from: a file, or a web address. -/
  specLocation : String := "openapi.json"
  /-- For how many seconds a description is kept. -/
  cacheSeconds : Int := 3600
  /-- The address of the upstream service, in place of the one in the description. -/
  baseUrl : Option String := none
  apiKey : Option String := none
  verifyCertificates : Bool := true
  timeoutSeconds : Float := 30
  /-- Upstream requests per second. -/
  rateLimit : Float := 5
  /-- The tags whose operations are offered, with commas between them. -/
  enabledTags : Option String := none
  resourceScheme : String := "openapi"
  transport : String := "stdio"
  host : String := "0.0.0.0"
  port : Int := 8000
  /-- What a caller over HTTP has to present. -/
  authToken : Option String := none
  logLevel : String := "INFO"

namespace Settings

/-- What is wrong with a configuration. -/
inductive Problem where
  | value (name : String) (complaint : Schema.Complaint)
  | unknown (name : String)

/-- What a problem is about. -/
def Problem.name : Problem → String
  | .value name _ => name
  | .unknown name => name

/-- The code of a problem. -/
def Problem.code : Problem → String
  | .value _ complaint => complaint.code
  | .unknown _ => "extra_forbidden"

/-- The wording of a problem. -/
def Problem.message : Problem → String
  | .value _ complaint => complaint.message
  | .unknown _ => "Extra inputs are not permitted"

/-- A setting: its name, and how a value is put into a configuration. -/
structure Entry where
  name : String
  put : Json → Settings → Except Schema.Complaint Settings

/-- A setting that is a text. -/
def textEntry (name : String) (put : String → Settings → Settings) : Entry where
  name := name
  put v s :=
    match v with
    | .str text => .ok (put text s)
    | _ => .error .notText

/-- A setting that is a text or absent. -/
def optionalEntry (name : String) (put : Option String → Settings → Settings) : Entry where
  name := name
  put v s :=
    match v with
    | .null => .ok (put none s)
    | .str text => .ok (put (some text) s)
    | _ => .error .notText

/-- A setting that is an integer. -/
def wholeEntry (name : String) (put : Int → Settings → Settings) : Entry where
  name := name
  put v s := (Schema.readWhole v).map fun (n, _) => put n s

/-- A setting that is a number. -/
def numberEntry (name : String) (put : Float → Settings → Settings) : Entry where
  name := name
  put v s := (Schema.readNumber v).map fun (x, _) => put x s

/-- A setting that is a truth value. -/
def truthEntry (name : String) (put : Bool → Settings → Settings) : Entry where
  name := name
  put v s := (Schema.readTruth v).map fun (b, _) => put b s

/-- All settings, in the order in which problems are told. -/
def entries : List Entry :=
  [textEntry "service_name" fun v s => { s with serviceName := v },
    textEntry "adapter_spec_location" fun v s => { s with specLocation := v },
    wholeEntry "adapter_spec_cache_seconds" fun v s => { s with cacheSeconds := v },
    optionalEntry "adapter_base_url" fun v s => { s with baseUrl := v },
    optionalEntry "adapter_api_key" fun v s => { s with apiKey := v },
    truthEntry "adapter_verify_ssl" fun v s => { s with verifyCertificates := v },
    numberEntry "adapter_request_timeout_seconds" fun v s => { s with timeoutSeconds := v },
    numberEntry "adapter_rate_limit_rps" fun v s => { s with rateLimit := v },
    optionalEntry "adapter_enabled_tags" fun v s => { s with enabledTags := v },
    textEntry "adapter_resource_scheme" fun v s => { s with resourceScheme := v },
    textEntry "adapter_transport" fun v s => { s with transport := v },
    textEntry "adapter_host" fun v s => { s with host := v },
    wholeEntry "adapter_port" fun v s => { s with port := v },
    optionalEntry "adapter_auth_token" fun v s => { s with authToken := v },
    textEntry "adapter_log_level" fun v s => { s with logLevel := v }]

/-- The value of a name in the environment. Of names that differ only in case the last counts. -/
def environmentValue? (environment : List (String × String)) (name : String) : Option Json :=
  (environment.reverse.find? fun (key, _) => Text.lower key == name).map fun (_, text) => .str text

/-- The value of a setting, if there is one: given directly, else from the environment. -/
def rawValue? (environment : List (String × String)) (given : List (String × Json))
    (name : String) : Option Json :=
  (lookupField name given).or (environmentValue? environment name)

/-- A configuration with one more setting, and the problems so far in reverse. -/
def put (raw : String → Option Json) (state : Settings × List Problem) (entry : Entry) :
    Settings × List Problem :=
  match raw entry.name with
  | none => state
  | some v =>
    match entry.put v state.1 with
    | .ok settings => (settings, state.2)
    | .error complaint => (state.1, .value entry.name complaint :: state.2)

/-- Names given that are those of no setting. -/
def unknownNames (given : List (String × Json)) : List String :=
  (given.map (·.1)).filter fun name => !entries.any (·.name == name)

/-- The configuration that an environment and given values make. -/
def read (environment : List (String × String)) (given : List (String × Json)) :
    Except (List Problem) Settings :=
  let (settings, problems) := entries.foldl (put (rawValue? environment given)) ({}, [])
  match problems.reverse ++ (unknownNames given).map .unknown with
  | [] => .ok settings
  | all => .error all

/-- The tags of the filter, without blanks around them. -/
def tags (s : Settings) : List String :=
  ((Text.splitAt ',' (s.enabledTags.getD "").toList).map fun part =>
    String.ofList (Text.trim Text.isBlank part)).filter fun tag => !tag.isEmpty

/-- What a compilation is told, for a service at `address` unless another is configured. -/
def options (s : Settings) (address : String) : Catalog.Options where
  rateLimit := .float s.rateLimit
  enabledTags := s.tags
  scheme := s.resourceScheme
  baseUrl := ((s.baseUrl.filter fun url => !url.isEmpty)).getD address

end Settings

end Toolgate
