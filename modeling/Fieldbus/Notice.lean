import Fieldbus.Text.Unit

/-!
# Notices

What the library reports besides its results.
-/

namespace Fieldbus

inductive Level where
  | info | warning | error
  deriving DecidableEq, Repr, Inhabited

/-- The part of the library that reports. -/
inductive Source where
  | bus | dictionary | layout | processData | benchmark
  deriving DecidableEq, Repr, Inhabited

structure Notice where
  level : Level
  source : Source
  text : Text
  deriving DecidableEq, Repr, Inhabited

namespace Level

def name : Level → String
  | info => "INFO"
  | warning => "WARNING"
  | error => "ERROR"

end Level

namespace Source

def name : Source → String
  | bus => "bus"
  | dictionary => "od"
  | layout => "pdo"
  | processData => "process_data"
  | benchmark => "sdo_benchmark"

end Source

end Fieldbus
