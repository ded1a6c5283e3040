import Toolgate.Catalog.Endpoint
import Toolgate.Json.Reader
import Toolgate.Text.Edit
import Toolgate.Yaml.Value

/-!
# Loading of API descriptions

A description is read from a file or from a web address, as JSON or, where it is no JSON, as YAML.
What was read is kept for some time, and within that time the same location is not read again.

## Main definitions

* `Shelves`: what files and web addresses hold
* `parseLoaded`, `parse`: the description that a text writes
* `Store`, `Store.load`: the descriptions that are kept, and the loading of one
-/

namespace Toolgate.Spec

/-- What a web address answers. -/
structure Page where
  status : Int
  text : String

/-- What can be read: files by their path, and pages by their address. -/
structure Shelves where
  files : List (List (List Char) × String)
  pages : List (String × Page)

namespace Shelves

/-- Nothing. -/
def bare : Shelves := ⟨[], []⟩

/-- The names on the way to a file. Empty names and single dots lead nowhere else. -/
def pathOf (name : String) : List (List Char) :=
  let names := (Text.splitAt '/' name.toList).filter fun part => part != [] && part != ['.']
  if name.toList.head? == some '/' then ['/'] :: names else names

/-- A file written. -/
def write (s : Shelves) (name text : String) : Shelves :=
  { s with files := (pathOf name, text) :: s.files }

/-- A file removed. -/
def remove (s : Shelves) (name : String) : Shelves :=
  { s with files := s.files.filter fun (path, _) => path != pathOf name }

/-- What an address answers from now on. -/
def serve (s : Shelves) (address : String) (page : Page) : Shelves :=
  { s with pages := (address, page) :: s.pages }

end Shelves

/-- A line feed for each carriage return, and for each pair of both. -/
def plainLines : List Char → List Char
  | [] => []
  | c :: rest =>
    if c == '\r' then
      match rest with
      | '\n' :: left => '\n' :: plainLines left
      | [] => ['\n']
      | d :: left => '\n' :: plainLines (d :: left)
    else c :: plainLines rest

/-- Is the location a web address? -/
def isAddress (location : String) : Bool :=
  Text.beginsWith "http://" location || Text.beginsWith "https://" location

/-- The text at a location, if there is any. -/
def Shelves.text? (s : Shelves) (location : String) : Option String :=
  if isAddress location then
    match s.pages.lookup location with
    | some page => if page.status == 200 then some page.text else none
    | none => none
  else (s.files.lookup (pathOf location)).map fun text => String.ofList (plainLines text.toList)

/-- A mapping. Any other value is no description. -/
def descriptionOf? : Loaded → Option Loaded
  | .mapping fields => some (.mapping fields)
  | _ => none

/-- The description that a text writes, with its keys as they are written; none when it writes
anything else. A fault is left only where a text is well-formed YAML and a scalar in it has the form
of a value that does not exist. -/
def parseLoaded (text : String) : Except Yaml.Fault (Option Loaded) :=
  match Json.read? text with
  | some v => .ok (descriptionOf? (.ofJson v))
  | none =>
    match Yaml.read text with
    | .ok v => .ok (descriptionOf? v)
    | .error .malformed => .ok none
    | .error fault => .error fault

/-- The description that a text writes, with its keys as texts. -/
def parse (text : String) : Except Yaml.Fault (Option Json) :=
  (parseLoaded text).map (Option.map Loaded.toJson)

/-- The description at a location, if there is one, with its keys as they are written. -/
def Shelves.readLoaded (s : Shelves) (location : String) : Except Yaml.Fault (Option Loaded) :=
  match s.text? location with
  | some text => parseLoaded text
  | none => .ok none

/-- The description at a location, if there is one. -/
def Shelves.read (s : Shelves) (location : String) : Except Yaml.Fault (Option Json) :=
  match s.text? location with
  | some text => parse text
  | none => .ok none

/-- A description that was read. -/
structure Kept where
  readAt : Float
  /-- How many descriptions had been read before. -/
  number : Nat
  document : Json

/-- The descriptions that are kept. -/
structure Store where
  /-- For how many seconds a description is kept. -/
  lifetime : Float
  /-- How many descriptions have been read. -/
  count : Nat := 0
  kept : List (String × Kept) := []

namespace Store

/-- The description kept for a location, if it is not too old. -/
def fresh? (s : Store) (now : Float) (location : String) : Option Kept :=
  match s.kept.lookup location with
  | some kept => if now - kept.readAt < s.lifetime then some kept else none
  | none => none

/-- The description at a location, where there is one, and the store after it. -/
def load (s : Store) (shelves : Shelves) (now : Float) (location : String) :
    Except Yaml.Fault (Option Kept × Store) :=
  match s.fresh? now location with
  | some kept => .ok (some kept, s)
  | none => do
    match ← shelves.read location with
    | none => return (none, s)
    | some document =>
      let kept : Kept := ⟨now, s.count, document⟩
      return (some kept, { s with count := s.count + 1, kept := (location, kept) :: s.kept })

end Store

end Toolgate.Spec
