import Toolgate.Call.Template
import Toolgate.Json.Display
import Toolgate.Json.Printer
import Toolgate.Text.Percent

/-!
# Targets of requests

The URL of a request is the base URL without trailing slashes, followed by the path template with
its placeholders filled in. Values are put in as texts.

## Main definitions

* `argumentText`: the text of an argument in a path or query
* `buildUrl`: the URL for a template and the values of its variables
-/

namespace Toolgate.Http

/-- The text of an argument: `true` and `false`, JSON for arrays and objects, and everything else
as it is shown. -/
def argumentText (v : Json) : String :=
  match v with
  | .bool b => if b then "true" else "false"
  | .arr _ => v.print Json.spaced
  | .obj _ => v.print Json.spaced
  | v => v.display

/-- The base URL without trailing slashes. -/
def trimBase (base : String) : String :=
  String.ofList (Text.trimEnd (· == '/') base.toList)

/-- The template with the placeholder of each variable filled in, one variable after another. -/
def fillPath (path : String) (params : List (String × Json)) : String :=
  params.foldl (fun path (name, v) =>
    Call.fill path name (Text.percentPiece (argumentText v))) path

/-- The URL for a path template and the values of its variables. -/
def buildUrl (base path : String) (params : List (String × Json)) : String :=
  trimBase base ++ fillPath path params

end Toolgate.Http
