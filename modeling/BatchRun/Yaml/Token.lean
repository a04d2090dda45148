/-!
# The tokens of YAML

A token is a directive, a marker, a bracket or another piece of structure, a property of a node,
or a scalar. Block structure that the text shows by indentation has tokens of its own.

* `Yaml.Token`.
-/

namespace BatchRun

namespace Yaml

/-- A token. -/
inductive Token where
  | streamStart
  | streamEnd
  | versionDirective
  | tagDirective (handle lead : String)
  | documentStart
  | documentEnd
  | blockSequenceStart
  | blockMappingStart
  | blockEnd
  | flowSequenceStart
  | flowSequenceEnd
  | flowMappingStart
  | flowMappingEnd
  | blockEntry
  | flowEntry
  | key
  | value
  | alias (name : String)
  | anchor (name : String)
  | tag (handle suffix : String)
  /-- A scalar, and whether it is written plain. -/
  | scalar (isPlain : Bool) (text : String)
  deriving DecidableEq, Inhabited

end Yaml

end BatchRun
