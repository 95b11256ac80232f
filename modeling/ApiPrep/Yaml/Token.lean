import ApiPrep.Yaml.Cursor

namespace ApiPrep.Yaml

/-- How a tag is given: by its text, or by a handle that stands for the start of it. -/
structure TagName where
  handle : Option (List Rune)
  suffix : List Rune
deriving DecidableEq, Repr

inductive Token where
  | version (major : Nat)
  | tagHandle (handle start : List Rune)
  | otherDirective
  | documentStart
  | documentEnd
  | blockSequenceStart
  | blockMappingStart
  | blockEnd
  | flowSequenceStart
  | flowSequenceEnd
  | flowMappingStart
  | flowMappingEnd
  | flowEntry
  | blockEntry
  | key
  | value
  | anchor (name : List Rune)
  | alias (name : List Rune)
  | tag (name : TagName)
  | scalar (text : List Rune) (plain : Bool)
  | fault (f : Fault)
  | streamEnd
deriving DecidableEq, Repr

end ApiPrep.Yaml
