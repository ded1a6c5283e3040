import Toolgate.Catalog.Operation

/-!
# Compiling a description

A description is compiled to a table: one operation for each endpoint that passes the tag filter,
in the order of the description, two reporting operations, and the resources. The filter has no
influence on the resources and on the report of the tags.

## Main definitions

* `Options`: what a compilation is told
* `compile`: the table of a description
-/

namespace Toolgate.Catalog

open Schema (TranslationError)

/-- What a compilation is told. -/
structure Options where
  /-- The rate of upstream calls, as it is reported. -/
  rateLimit : Json := .int 5
  /-- The tags whose operations are compiled; with none all are. -/
  enabledTags : List String := []
  scheme : String := "openapi"
  /-- The reported address of the service. -/
  baseUrl : String := ""

namespace Options

/-- Is an operation with these tags compiled? -/
def admits (options : Options) (tags : List String) : Bool :=
  options.enabledTags.isEmpty || tags.any options.enabledTags.contains

/-- The tags of the filter in order, each once. -/
def sortedTags (options : Options) : List String :=
  (Call.distinct options.enabledTags).mergeSort fun s t => decide (s ≤ t)

end Options

/-- One more operation for a tag. -/
def countTag (tag : String) : List (String × Nat) → List (String × Nat)
  | [] => [(tag, 1)]
  | (t, n) :: rest => if t == tag then (t, n + 1) :: rest else (t, n) :: countTag tag rest

/-- How often each tag is written, in order of first appearance. -/
def tagCounts (es : List Endpoint) : List (String × Nat) :=
  (es.flatMap Endpoint.tags).foldl (fun counts tag => countTag tag counts) []

/-- How many endpoints have no tag. -/
def untagged (es : List Endpoint) : Nat :=
  (es.filter (·.tags.isEmpty)).length

/-- The text that an endpoint's operation is named after. -/
def Endpoint.candidate (e : Endpoint) : String :=
  Naming.candidate e.method e.path (e.operation.value.getD "operationId")

/-- The operations of endpoints in order, put into `found` under names from the namespace, and the
namespace after them. -/
def operationsFrom (source : Source) (names : Naming.Names) (found : List (String × Operation)) :
    List Endpoint → Except TranslationError (List (String × Operation) × Naming.Names)
  | [] => .ok (found, names)
  | e :: rest =>
    let (name, names) := names.resolve e.candidate
    match Operation.ofEndpoint source name e with
    | .error cause => .error cause
    | .ok operation => operationsFrom source names (setField name operation found) rest

/-- The report of the tags. -/
def tagReport (options : Options) (es : List Endpoint) : Json :=
  let entry := fun (tag, count) => Json.obj [("name", .str tag), ("operations", .int (count : Nat)),
    ("enabled", .bool (options.admits [tag]))]
  .obj [("tags", .arr ((tagCounts es).map entry)), ("untagged_operations", .int (untagged es))]

/-- The report of the configuration. -/
def serverReport (options : Options) (clientUrl : String) (operations resources : Nat) : Json :=
  let filter := if options.enabledTags.isEmpty then Json.str "all"
    else .arr (options.sortedTags.map .str)
  .obj [("operation_count", .int operations), ("resource_count", .int resources),
    ("enabled_tags", filter),
    ("base_url", .str (if options.baseUrl.isEmpty then clientUrl else options.baseUrl)),
    ("rate_limit_per_second", options.rateLimit)]

/-- The operation that reports the tags. -/
def Operation.listingTags (name : String) (report : Json) : Operation :=
  .reporting name "List the API tags (groups of operations) and how many operations each has." report

/-- The operation that reports the configuration. -/
def Operation.describingServer (name : String) (report : Json) : Operation :=
  .reporting name
    "Report the number of compiled operations, the active tag filter and the target API." report

/-- The two reporting operations, under names from the namespace. -/
def reports (names : Naming.Names) (tags server : Json) : List Operation :=
  let (tagsName, names) := names.resolve "list_api_tags"
  let (serverName, _) := names.resolve "get_server_info"
  [.listingTags tagsName tags, .describingServer serverName server]

/-- Operations put into `found` under their names. -/
def register (found : List (String × Operation)) (operations : List Operation) :
    List (String × Operation) :=
  operations.foldl (fun found operation => setField operation.name operation found) found

/-- The document of a description; a description that is no object is empty. -/
def documentOf (description : Json) : Json :=
  if description.isObject then description else .obj []

/-- The table of a description, for a client at the address `clientUrl`. -/
def compile (options : Options) (clientUrl : String) (description : Json) :
    Except TranslationError Table :=
  let document := documentOf description
  let es := endpoints document
  let resources := resourcesOf options.scheme document
  let admitted := es.filter fun e => options.admits e.tags
  (operationsFrom (.of document) {} [] admitted).map fun (operations, names) =>
    { operations := register operations (reports names (tagReport options es)
        (serverReport options clientUrl operations.length resources.length))
      resources
      tags := (tagCounts es).map (·.1) }

end Toolgate.Catalog
