/-! # Log records

A record has a level, the name of its logger and a message. Records of a run carry the seed chain
of the run as their trace, so that each of them tells how to run it again; the others carry none.
-/

namespace SeededTesting

inductive LogLevel where
  | debug
  | info
  | warning
  | error
  | critical
deriving DecidableEq, Repr

namespace LogLevel

/-- Every level, from the least to the most severe. -/
def all : List LogLevel := [.debug, .info, .warning, .error, .critical]

/-- The severity of a level. -/
def number : LogLevel → Nat
  | .debug => 10
  | .info => 20
  | .warning => 30
  | .error => 40
  | .critical => 50

def name : LogLevel → String
  | .debug => "DEBUG"
  | .info => "INFO"
  | .warning => "WARNING"
  | .error => "ERROR"
  | .critical => "CRITICAL"

def ofName? (name : String) : Option LogLevel :=
  all.find? (·.name == name)

/-- Whether records of this level pass a threshold. -/
def passes (level threshold : LogLevel) : Bool :=
  threshold.number ≤ level.number

end LogLevel

/-- What a record tells beyond its message. -/
inductive LogDetail where
  | none
  /-- A run of a suite starts with so many candidates. -/
  | suiteStarted (suite : String) (candidates : Nat)
  | suiteFinished (suite : String)
  /-- A failure is reported with the chains that were extracted from its error. -/
  | failure (chains : Option String)
deriving DecidableEq, Repr

structure LogRecord where
  level : LogLevel
  logger : String
  message : String
  trace : String
  detail : LogDetail := .none
deriving DecidableEq, Repr

/-- The trace of records that belong to no run. -/
def LogRecord.noTrace : String := "N/A"

end SeededTesting
