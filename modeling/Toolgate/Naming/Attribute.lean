import Toolgate.Decimal.Integer
import Toolgate.Text.Edit

/-!
# Attribute names

Inside a record every field has an attribute name beside the name it has on the wire: an
identifier that is neither a reserved word nor a name every record has already, and distinct from
the attribute names of the other fields.

## Main definitions

* `attributeName`: the attribute name of a wire name, apart from those taken
* `typeName`: the name of the record type made for a text
* `refName`: the name a reference gives to its target
-/

namespace Toolgate.Naming

/-- Words that no attribute may be called. -/
def reservedWords : List String :=
  ["False", "None", "True", "and", "as", "assert", "async", "await", "break", "class", "continue",
    "def", "del", "elif", "else", "except", "finally", "for", "from", "global", "if", "import",
    "in", "is", "lambda", "nonlocal", "not", "or", "pass", "raise", "return", "try", "while",
    "with", "yield"]

/-- Names that every record has on its own. -/
def recordWords : List String :=
  ["construct", "copy", "dict", "from_orm", "json", "model_computed_fields", "model_config",
    "model_construct", "model_copy", "model_dump", "model_dump_json", "model_extra",
    "model_fields", "model_fields_set", "model_json_schema", "model_parametrized_name",
    "model_post_init", "model_rebuild", "model_validate", "model_validate_json",
    "model_validate_strings", "mro", "parse_file", "parse_obj", "parse_raw", "register", "schema",
    "schema_json", "update_forward_refs", "validate"]

/-- The wire name with every character that is not part of a word made an underscore. -/
def wordChars (cs : List Char) : List Char :=
  cs.map fun c => if Text.isWord c then c else '_'

/-- The name with `f_` in front, in place of leading underscores, when it is empty or begins with
a digit or an underscore. -/
def anchored (cs : List Char) : List Char :=
  match cs with
  | [] => ['f', '_']
  | c :: _ =>
    if Text.isNumeral c || c == '_' then 'f' :: '_' :: Text.trimStart (· == '_') cs else cs

/-- The identifier of a wire name; an underscore behind it tells it from words that are taken by
the language of records. -/
def identifier (wire : String) : String :=
  let name := String.ofList (anchored (wordChars wire.toList))
  if reservedWords.contains name || recordWords.contains name then name ++ "_" else name

/-- The first of `base_k`, `base_(k+1)`, … that is not taken, trying `fuel` of them. -/
def freeAttribute (taken : List String) (base : String) (k : Nat) : Nat → String
  | 0 => base ++ "_" ++ Decimal.natText k
  | fuel + 1 =>
    let name := base ++ "_" ++ Decimal.natText k
    if taken.contains name then freeAttribute taken base (k + 1) fuel else name

/-- The attribute name of a wire name, distinct from those in `taken`. -/
def attributeName (taken : List String) (wire : String) : String :=
  let base := identifier wire
  if taken.contains base then freeAttribute taken base 2 (taken.length + 1) else base

/-- The attribute names of wire names in order, after those in `taken`. -/
def attributeNames (taken : List String) : List String → List String
  | [] => []
  | wire :: rest =>
    let name := attributeName taken wire
    name :: attributeNames (name :: taken) rest

/-- A word with its first letter made a capital. -/
def capitalized : List Char → List Char
  | [] => []
  | c :: rest => c.toUpper :: rest

/-- The name of the record type made for a text: its runs of ASCII letters and digits, each
capitalized, and `M` in front of a leading digit. -/
def typeName (s : String) : String :=
  let words := Text.pieces (fun c => !Text.isAsciiAlnum c) s.toList
  match words.flatMap capitalized with
  | [] => "Model"
  | c :: rest => String.ofList (if Text.isAsciiDigit c then 'M' :: c :: rest else c :: rest)

/-- The last step of a reference with its escapes resolved: `~1` is a slash and `~0` a tilde. -/
def unescapeStep (cs : List Char) : List Char :=
  Text.replaceAll ['~', '0'] ['~'] (Text.replaceAll ['~', '1'] ['/'] cs)

/-- The name a reference gives to its target: its last step. -/
def refName (ref : String) : String :=
  String.ofList (unescapeStep ((Text.splitAt '/' ref.toList).getLastD []))

end Toolgate.Naming
