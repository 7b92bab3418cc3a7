import TableAlgebra.Yaml.Scalar
import TableAlgebra.Yaml.Tag

/-!
# Tokens

What a document is written with.  Most tokens are signs in the text; the openings and the ends of block
collections, and the keys that no sign announces, are read off the layout.
-/

namespace TableAlgebra.Yaml

/-- a sign of the text, a scalar, or something that the layout says -/
inductive Token where
  | directive (directive : Directive)
  | documentStart
  | documentEnd
  | blockSequenceStart
  | blockMappingStart
  | blockEnd
  | flowSequenceStart
  | flowSequenceEnd
  | flowMappingStart
  | flowMappingEnd
  | blockEntry
  | flowEntry
  | key
  | value
  | alias (name : String)
  | anchor (name : String)
  | tag (name : TagName)
  | scalar (style : ScalarStyle) (text : String)
  deriving DecidableEq

end TableAlgebra.Yaml
