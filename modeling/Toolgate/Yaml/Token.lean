import Toolgate.Yaml.Fault

/-!
# Tokens of YAML

The pieces a YAML text is read from. Besides what is written, the beginnings and ends of block
collections are tokens, which the indentation tells.

## Main definitions

* `Token`: the pieces
* `TagName`: a tag as it is written
-/

namespace Toolgate.Yaml

/-- A tag as it is written: a suffix behind a handle that a directive may have declared, or the
whole tag when there is no handle. -/
structure TagName where
  handle : Option String
  suffix : String

/-- A piece of a YAML text. -/
inductive Token where
  /-- A directive for the version of YAML. -/
  | version (major : Nat)
  /-- A directive that declares the handle of tags. -/
  | tagHandle (handle meaning : String)
  /-- A directive of any other kind. -/
  | otherDirective
  | documentStart
  | documentEnd
  | blockSequence
  | blockMapping
  | blockEnd
  | sequenceOpen
  | sequenceClose
  | mappingOpen
  | mappingClose
  /-- A dash before an item. -/
  | item
  | comma
  /-- What follows is a key. -/
  | key
  /-- What follows is the value of a key. -/
  | value
  | alias (name : String)
  | anchor (name : String)
  | tag (name : TagName)
  | scalar (text : String) (plain : Bool)
  | textEnd
  /-- The text cannot be read further. -/
  | broken (fault : Fault)

end Toolgate.Yaml
