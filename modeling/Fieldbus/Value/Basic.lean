import Fieldbus.DataType
import Fieldbus.Payload

/-!
# Values

A value is a payload tagged with a data type.  The payload need not fit the type:
a caller may offer any, and encoding decides.
-/

namespace Fieldbus

structure Value where
  dataType : DataType
  payload : Payload
  deriving Inhabited, Repr

namespace Value

def text (value : Value) : String :=
  value.dataType.name ++ "(" ++ value.payload.shown ++ ")"

/-- A value with its type code, as error messages show it. -/
def shown (value : Value) : String :=
  s!"Value(data_type=<DataType.{value.dataType.name}: {value.dataType.code}>, " ++
    s!"value={value.payload.shown})"

end Value

end Fieldbus
