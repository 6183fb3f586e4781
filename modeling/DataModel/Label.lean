/-!
# Labels

The text that stands for an item in one output language, given by its place in the language table of
the document.
-/

namespace DataModel

/-- A text in one output language. -/
structure Label where
  /-- The place in the language table. -/
  lang : UInt64
  text : String
  deriving DecidableEq

end DataModel
