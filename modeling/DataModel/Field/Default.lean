import DataModel.Field.Type
import DataModel.Real64.Text
import DataModel.Text.Quoted

/-!
# Default values

A default is an integer, a real or a text. It fits the types that store it: integers fit the
integral types and the reals, reals only the reals, and texts the textual types. Validation rules
compare with a limit of the same three shapes.
-/

namespace DataModel

/-- A default value, or the limit of a validation rule. -/
inductive DefaultValue
  | integer (value : Int64)
  | real (value : Real64)
  | text (value : String)
  deriving DecidableEq

namespace DefaultValue

/-- The value can be stored in a field of type `t`. -/
def fits : DefaultValue → FieldType → Bool
  | .integer _, t => t.isIntegral || t == .real
  | .real _, t => t == .real
  | .text _, t => t.isTextual

/-- Reals inside a message are positional from 10⁻⁴ on and below 10¹⁶. -/
def realStyle : Real64.Style := ⟨-4, 16⟩

/-- The value as messages write it. -/
def describe : DefaultValue → String
  | .integer v => "Integer(" ++ toString v.toInt ++ ")"
  | .real v => "Real(" ++ v.write realStyle ++ ")"
  | .text v => "Text(" ++ Text.quote v ++ ")"

/-- The real, if the value is one. -/
def real? : DefaultValue → Option Real64
  | .real v => some v
  | _ => none

/-- The value with the sign of zero forgotten. -/
def unsignedZero : DefaultValue → DefaultValue
  | .real v => .real v.unsignedZero
  | v => v

end DefaultValue

end DataModel
