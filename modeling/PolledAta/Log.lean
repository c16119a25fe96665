/-!
Log records, the lines they are printed as, and the logger that a program installs once.
-/

namespace PolledAta.Log

inductive Level where
  | error | warn | info | debug | trace
  deriving DecidableEq

namespace Level

/-- Grows from the most to the least important level. -/
def rank : Level → Nat
  | .error => 1
  | .warn => 2
  | .info => 3
  | .debug => 4
  | .trace => 5

def marker : Level → Char
  | .error => 'E'
  | .warn => 'W'
  | .info => '*'
  | .debug => 'D'
  | .trace => 'T'

def name : Level → String
  | .error => "ERROR"
  | .warn => "WARN"
  | .info => "INFO"
  | .debug => "DEBUG"
  | .trace => "TRACE"

end Level

/-- The least important level that is still printed, if any is. -/
inductive Ceiling where
  | off
  | upTo (level : Level)
  deriving DecidableEq

namespace Ceiling

def admits : Ceiling → Level → Bool
  | .off, _ => false
  | .upTo most, level => level.rank ≤ most.rank

def name : Ceiling → String
  | .off => "OFF"
  | .upTo level => level.name

end Ceiling

structure Record where
  level : Level
  text : String
  deriving DecidableEq

def Record.line (record : Record) : String :=
  "[" ++ record.level.marker.toString ++ "] " ++ record.text ++ "\n"

def lines (ceiling : Ceiling) (records : List Record) : List String :=
  (records.filter fun record => ceiling.admits record.level).map Record.line

/-! ## The installed logger -/

/-- Where the lines of the program go, once a logger is installed. -/
structure Facade (σ : Type) where
  sink : Option σ
  ceiling : Ceiling

inductive InstallError where
  | alreadyInstalled

def InstallError.message : InstallError → String
  | .alreadyInstalled =>
    "attempted to set a logger after the logging system was already initialized"

namespace Facade

/-- The first logger stays: a later one changes neither the sink nor the ceiling. -/
def install {σ : Type} (facade : Facade σ) (ceiling : Ceiling) (sink : σ) :
    Except InstallError (Facade σ) :=
  match facade.sink with
  | none => .ok { sink := some sink, ceiling }
  | some _ => .error .alreadyInstalled

def emit {σ : Type} (facade : Facade σ) (record : Record) : Option (σ × String) :=
  if facade.ceiling.admits record.level then
    facade.sink.map fun sink => (sink, record.line)
  else none

end Facade

end PolledAta.Log
