import Toolgate.Text.Edit

/-!
# Path templates

A path template holds placeholders, each a name in braces. A name is not empty and holds no
brace; a brace that belongs to no placeholder stands for itself.

## Main definitions

* `placeholders`: the names in braces, in order
* `variableNames`: the distinct names, in order of first appearance
* `fill`: a placeholder replaced by a text
-/

namespace Toolgate.Call

/-- The names in braces; `name?` holds, in reverse, what has been read since the last opening
brace. -/
def placeholdersFrom (name? : Option (List Char)) : List Char → List (List Char)
  | [] => []
  | '\x7b' :: rest => placeholdersFrom (some []) rest
  | '\x7d' :: rest =>
    match name? with
    | some (c :: name) => (c :: name).reverse :: placeholdersFrom none rest
    | _ => placeholdersFrom none rest
  | c :: rest => placeholdersFrom (name?.map (c :: ·)) rest

/-- The names in braces of a template, in order. -/
def placeholders (path : String) : List String :=
  (placeholdersFrom none path.toList).map String.ofList

/-- The distinct texts of a list, each at its first place. -/
def distinct : List String → List String
  | [] => []
  | s :: rest => s :: (distinct rest).filter (· != s)

/-- The distinct variables of a template, in order of first appearance. -/
def variableNames (path : String) : List String :=
  distinct (placeholders path)

/-- The template with every placeholder of that name replaced by `text`. -/
def fill (path name text : String) : String :=
  Text.replaced path ("\x7b" ++ name ++ "\x7d") text

end Toolgate.Call
