import Fieldbus.Benchmark.Timing
import Fieldbus.Payload

/-!
# Command-line arguments of the benchmark

Options start with two dashes; a value follows its option or an equals sign, and an
option may be shortened as long as it is unambiguous.  Targets are one run of
arguments.  An argument that looks like a negative number is no option, and after a
double dash nothing is.  A double dash is no value either: where it stands after an
equals sign, the option has none.
-/

namespace Fieldbus

namespace Arguments

inductive OptionKind where
  | help | adapter | slave | rounds | complete | cycle
  deriving DecidableEq, Repr, Inhabited

def spellings : List (String × OptionKind) := [
  ("-h", .help), ("--help", .help), ("--adapter", .adapter), ("--slave", .slave),
  ("--rounds", .rounds), ("--complete", .complete), ("--cycle", .cycle)]

/-- How a command line ends before any work. -/
inductive Stop where
  /-- It asks for help. -/
  | help
  /-- It cannot be understood. -/
  | misuse
  deriving DecidableEq, Repr, Inhabited

inductive Token where
  | value (text : Text)
  | doubleDash
  | option (kind : OptionKind) (value : Option Text)
  /-- The short option for help with something attached to it. -/
  | shortHelp (attached : Text)
  | unknown
  deriving DecidableEq, Repr, Inhabited

/-- A text without one line feed at its end. -/
def dropLineFeed (text : List Char) : List Char :=
  if text.getLast? = some '\n' then text.dropLast else text

/-- Whether an argument is a minus sign and digits, with places or without.  A line
feed at its end does not count. -/
def looksNegative (argument : Text) : Bool :=
  match dropLineFeed argument.toChars with
  | '-' :: digits =>
      let isDigit (c : Char) : Bool := Numeral.isDigit c || (Character.wideDigit? c).isSome
      match digits.dropWhile isDigit with
      | [] => !digits.isEmpty
      | '.' :: places => !places.isEmpty && places.all isDigit
      | _ => false
  | _ => false

/-- The options that an incomplete spelling may stand for. -/
def completions (spelling : Text) : List OptionKind :=
  (spellings.filter fun pair => spelling.isPrefixOf (Text.ofString pair.1)).map Prod.snd

/-- The part before an equals sign, and the part after it, if there is one. -/
def splitValue (argument : Text) : Text × Option Text :=
  match argument.dropWhile (· ≠ .scalar '=') with
  | _ :: value => (argument.takeWhile (· ≠ .scalar '='), some value)
  | [] => (argument, none)

def option? (spelling : Text) : Option OptionKind :=
  (spellings.find? fun pair => Text.ofString pair.1 = spelling).map Prod.snd

/-- An argument that starts with two dashes and is no exact option. -/
def classifyLong (argument : Text) : Except Stop Token :=
  let (spelling, value) := splitValue argument
  match value.bind fun _ => option? spelling with
  | some kind => .ok (.option kind value)
  | none =>
      match completions spelling with
      | [kind] => .ok (.option kind value)
      | _ :: _ :: _ => .error .misuse
      | [] => .ok (if argument.contains (.scalar ' ') then .value argument else .unknown)

def classify (argument : Text) : Except Stop Token :=
  match argument with
  | [.scalar '-'] => .ok (.value argument)
  | .scalar '-' :: rest =>
      match option? argument, rest with
      | some kind, _ => .ok (.option kind none)
      | none, .scalar '-' :: _ => classifyLong argument
      | none, .scalar 'h' :: .scalar '=' :: attached => .ok (.shortHelp attached)
      | none, .scalar 'h' :: attached => .ok (.shortHelp attached)
      | none, _ =>
          .ok (if looksNegative argument || argument.contains (.scalar ' ') then .value argument
            else .unknown)
  | _ => .ok (.value argument)

def tokens : List Text → Except Stop (List Token)
  | [] => .ok []
  | argument :: rest =>
      if argument = Text.ofString "--" then .ok (.doubleDash :: rest.map .value)
      else do
        let token ← classify argument
        let more ← tokens rest
        return token :: more

structure Settings where
  adapter : Payload
  slave : Option Int
  rounds : Option Int
  complete : Bool
  cycleMs : Payload
  /-- The targets, once their run of arguments has been met. -/
  targets : Option (List Target)
  /-- Whether there were arguments that nothing takes. -/
  extras : Bool
  deriving Repr, Inhabited

namespace Settings

def initial : Settings where
  adapter := .none
  slave := some 0
  rounds := some 100
  complete := false
  cycleMs := .real (Binary64.ofNat 1)
  targets := none
  extras := false

def take (settings : Settings) (kind : OptionKind) (text : Text) : Except Stop Settings :=
  let orMisuse {α : Type} (value : Option α) (update : α → Settings) : Except Stop Settings :=
    match value with
    | some value => .ok (update value)
    | none => .error .misuse
  let integer? := Numeral.integer? 10 text.toChars
  match kind with
  | .adapter => .ok { settings with adapter := .text text }
  | .slave => orMisuse integer? fun slave => { settings with slave := some slave }
  | .rounds => orMisuse integer? fun rounds => { settings with rounds := some rounds }
  | .cycle =>
      orMisuse (Numeral.real? text.toChars) fun cycleMs =>
        { settings with cycleMs := .real cycleMs }
  | .help | .complete => .error .misuse

/-- Take an option that was given without a value. -/
def takeNothing (settings : Settings) (kind : OptionKind) : Except Stop Settings :=
  match kind with
  | .adapter => .ok { settings with adapter := .list [] }
  | .slave => .ok { settings with slave := none }
  | .rounds => .ok { settings with rounds := none }
  | .cycle => .ok { settings with cycleMs := .list [] }
  | .help | .complete => .error .misuse

/-- Take the value that is attached to an option. -/
def takeAttached (settings : Settings) (kind : OptionKind) (text : Text) :
    Except Stop Settings :=
  if text = Text.ofString "--" then settings.takeNothing kind else settings.take kind text

/-- Take a run of arguments as the targets; further runs are left over. -/
def takeTargets (settings : Settings) (run : List Token) : Except Stop Settings :=
  let text? (token : Token) : Option (List Char) := match token with
    | .value text => some text.toChars
    | _ => none
  match settings.targets with
  | some _ => .ok { settings with extras := settings.extras || !run.isEmpty }
  | none =>
      match (run.filterMap text?).mapM Target.ofText? with
      | some targets => .ok { settings with targets := some targets }
      | none => .error .misuse

end Settings

def isArgument : Token → Bool
  | .value _ | .doubleDash => true
  | _ => false

/-- How the short option for help ends the command line: it may be repeated, and
nothing else can be attached to it. -/
def helpStop (attached : Text) : Stop :=
  if !attached.isEmpty && attached.all (· = .scalar 'h') then .help else .misuse

/-- Take the tokens of a command line in order; `fuel` bounds their number. -/
def takeAll : (fuel : Nat) → Settings → List Token → Except Stop Settings
  | 0, settings, _ => .ok settings
  | _, settings, [] => settings.takeTargets []
  | fuel + 1, settings, token :: rest =>
      match token with
      | .option .help none => .error .help
      | .option .complete none => takeAll fuel { settings with complete := true } rest
      | .option kind (some text) => do takeAll fuel (← settings.takeAttached kind text) rest
      | .option kind none =>
          match rest with
          | .value text :: rest => do takeAll fuel (← settings.take kind text) rest
          | _ => .error .misuse
      | .shortHelp attached => .error (helpStop attached)
      | .unknown => takeAll fuel { settings with extras := true } rest
      | token => do
          let run := token :: rest.takeWhile isArgument
          takeAll fuel (← settings.takeTargets run) (rest.dropWhile isArgument)

def read (arguments : List Text) : Except Stop Settings := do
  let tokens ← tokens arguments
  let settings ← takeAll (tokens.length + 1) Settings.initial tokens
  if settings.extras then throw .misuse
  return settings

end Arguments

end Fieldbus
