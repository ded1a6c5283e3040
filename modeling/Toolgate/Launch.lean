import Toolgate.Server.Offer
import Toolgate.Spec.Store

/-!
# Launching

From the environment to a server: the settings are read, the log level is set, the description is
loaded, the server is made, and the transport decides how it is served.

## Main definitions

* `Serving`: how a server is served
* `launch`: the log level, and the server with the way it is served
-/

namespace Toolgate

/-- How a server is served. -/
inductive Serving where
  | stdio
  | http (host : String) (port : Int)

/-- Why nothing is served. -/
inductive LaunchError where
  | settings (problems : List Settings.Problem)
  | document (fault : Yaml.Fault)
  | noDocument (location : String)
  | server (cause : Server.MakeError)

/-- What is said of a description that cannot be loaded. -/
def noDocumentMessage (location : String) : String :=
  "Unable to load OpenAPI spec from " ++ location

/-- How a server with these settings is served. -/
def servingOf (settings : Settings) : Serving :=
  if Server.isHttp settings then .http settings.host settings.port else .stdio

/-- The server of settings, with a description from the shelves. It is loaded once, so that nothing
of it is kept. -/
def start (settings : Settings) (shelves : Spec.Shelves) :
    Except LaunchError (Server.Offer × Serving) := do
  match ← (shelves.readLoaded settings.specLocation).mapError .document with
  | none => .error (.noDocument settings.specLocation)
  | some document =>
    let address ← (Server.addressOf settings document.toJson).mapError .server
    let offer ← (Server.Offer.make settings (Http.trimBase address) document).mapError .server
    .ok (offer, servingOf settings)

/-- The log level, once the settings are read, and the server with the way it is served. -/
def launch (environment : List (String × String)) (shelves : Spec.Shelves) :
    Option String × Except LaunchError (Server.Offer × Serving) :=
  match Settings.read environment [] with
  | .error problems => (none, .error (.settings problems))
  | .ok settings => (some (Text.upper settings.logLevel), start settings shelves)

end Toolgate
