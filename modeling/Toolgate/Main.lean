import Toolgate.Launch

/-!
# The command

Launches a gateway from the environment and says how it is served, or why it is not.
-/

namespace Toolgate

/-- The settings in the environment, with names in capitals or in small letters. -/
def readEnvironment : IO (List (String × String)) := do
  let mut found := []
  for entry in Settings.entries do
    for name in [entry.name, Text.upper entry.name] do
      if let some value ← IO.getEnv name then found := found ++ [(name, value)]
  return found

/-- The shelves with the file at a location, if there is one. -/
def readShelves (location : String) : IO Spec.Shelves := do
  if Spec.isAddress location then return .bare
  try return Spec.Shelves.bare.write location (← IO.FS.readFile location)
  catch _ => return .bare

/-- The location of the description. -/
def locationIn (environment : List (String × String)) : String :=
  match Settings.read environment [] with
  | .ok settings => settings.specLocation
  | .error _ => ""

/-- The wording of an error. -/
def LaunchError.message : LaunchError → String
  | .settings problems =>
    String.intercalate "\n" (problems.map fun p => p.name ++ ": " ++ p.message)
  | .document fault => fault.message
  | .noDocument location => noDocumentMessage location
  | .server .notObject => "the description says nothing about itself as an object"
  | .server (.translation _) => "a schema of the description cannot be translated"
  | .server .scheme => "the scheme of the resources is none"

/-- What is said of a server that is served. -/
def servedMessage (offer : Server.Offer) : Serving → String
  | .stdio => "Serving " ++ offer.name ++ " over stdio"
  | .http host port => "Serving " ++ offer.name ++ " on " ++ host ++ ":" ++ Decimal.intText port

end Toolgate

open Toolgate in
/-- Launches a gateway from the environment. -/
def main : IO UInt32 := do
  let environment ← readEnvironment
  match (launch environment (← readShelves (locationIn environment))).2 with
  | .ok (offer, serving) =>
    IO.eprintln (servedMessage offer serving)
    return 0
  | .error e =>
    IO.eprintln e.message
    return 1
