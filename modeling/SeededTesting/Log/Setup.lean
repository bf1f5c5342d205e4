import SeededTesting.Config
import SeededTesting.Log.Record

/-! # Log set-up

Logging has one handler with a level and a format. Both are asked for by name, by the caller or
else by the environment; a name in any case will do, and one that means nothing is passed over.
-/

namespace SeededTesting

/-- How log lines are written. -/
inductive LogFormat where
  | json
  | text
deriving DecidableEq, Repr

structure LogSetup where
  level : LogLevel := .info
  format : LogFormat := .json
deriving DecidableEq, Repr

namespace LogSetup

def levelVariable : String := "SEEDRUNNER_LOG_LEVEL"

def formatVariable : String := "SEEDRUNNER_LOG_FORMAT"

/-- A character in upper case, as far as the names of levels go: beside the ASCII letters, the
dotless `ı` is one that becomes an ASCII letter of them. -/
def upperChar (c : Char) : Char :=
  if c = 'ı' then 'I' else c.toUpper

/-- The level of a name. -/
def levelOf (name : String) : LogLevel :=
  (LogLevel.ofName? (name.map upperChar)).getD .info

/-- The format of a name. -/
def formatOf (name : String) : LogFormat :=
  if name.map Char.toLower = "json" then .json else .text

/-- A name that a caller gives, unless it is empty, or else the value of a variable. -/
def choose (given : Option String) (env : Environment) (name default : String) : String :=
  ((given.filter (· ≠ "")).or (env.value? name)).getD default

/-- The set-up for the wishes of a caller and of an environment. -/
def resolve (env : Environment) (level format : Option String) : LogSetup where
  level := levelOf (choose level env levelVariable "INFO")
  format := formatOf (choose format env formatVariable "json")

end LogSetup

end SeededTesting
