import Fieldbus.Engine.Basic
import Fieldbus.Notice

/-!
# Sessions

An engine together with the notices that working with it produced.
-/

namespace Fieldbus

structure Session (ε : Type) where
  engine : ε
  notices : Array Notice
  deriving Inhabited

namespace Session

variable {ε α : Type}

def enginePart : Part (Session ε) ε where
  get session := session.engine
  set session engine := { session with engine }

def ask (action : Action ε α) : Action (Session ε) α :=
  Action.within enginePart action

def report (notice : Notice) : Action (Session ε) Unit := fun session =>
  .ok () { session with notices := session.notices.push notice }

def warn (source : Source) (text : Text) : Action (Session ε) Unit :=
  report ⟨.warning, source, text⟩

end Session

end Fieldbus
