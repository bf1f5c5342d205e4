import SeededTesting.Failure.Kind
import SeededTesting.Log.Setup
import SeededTesting.Text.Json
import SeededTesting.Text.Layout

/-! # Log lines

A call to a logger has a message and fields of its own. A logger that was made for a trace adds it
to the fields unless they hold one; without any trace a line says so. Lines are objects with the
logger, the level, the message, the trace and the fields of the call, which come before what the
line would say by itself, or texts that show of the fields the trace only.
-/

namespace SeededTesting

/-- A call to a logger. -/
structure LogCall where
  level : LogLevel
  message : String
  logger : String
  /-- The trace that the logger was made for; `none` stands for a bare logger. -/
  trace : Option String
  fields : List (String × JsonValue) := []
deriving Repr

inductive LogLine where
  | json (line : JsonValue)
  | text (line : String)
deriving Repr

namespace LogLine

/-- The field of a trace. -/
def traceField : String := "trace_id"

/-- Fields that belong to every record and cannot be given. -/
def reservedFields : List String :=
  ["name", "msg", "args", "levelname", "levelno", "pathname", "filename", "module", "exc_info",
    "exc_text", "stack_info", "lineno", "funcName", "created", "msecs", "relativeCreated",
    "thread", "threadName", "processName", "process", "message", "asctime"]

/-- The complaint about a field that cannot be given. -/
def overwriting (field : String) : Complaint :=
  ⟨.named "KeyError", some ("Attempt to overwrite " ++ Text.quote field ++ " in LogRecord")⟩

/-- A value as it is shown in a text. -/
def showScalar : JsonValue → String
  | .null | .array _ | .object _ => "None"
  | .bool b => if b then "True" else "False"
  | .number n => toString n
  | .string s => Text.quote s

mutual

/-- A value as it is shown inside of another one. -/
def showValue : JsonValue → String
  | .array items => "[" ++ String.intercalate ", " (showItems items) ++ "]"
  | .object fields => "\x7b" ++ String.intercalate ", " (showFields fields) ++ "\x7d"
  | value => showScalar value

def showItems : List JsonValue → List String
  | [] => []
  | value :: rest => showValue value :: showItems rest

def showFields : List (String × JsonValue) → List String
  | [] => []
  | (key, value) :: rest => (Text.quote key ++ ": " ++ showValue value) :: showFields rest

end

/-- A value as it is shown on its own; only a string is not put in quotes then. -/
def showTrace : JsonValue → String
  | .string s => s
  | value => showValue value

/-- The logger without a name is the root. -/
def loggerName (name : String) : String :=
  if name = "" then "root" else name

/-- Whether a field of a call is written. Those that start with an underscore are private, and the
time is no part of a line here. -/
def isWritten (field : String) : Bool :=
  !field.startsWith "_" && field != "timestamp"

end LogLine

namespace LogCall

/-- What a logger that was made for a trace adds to every call. -/
def adapterTrace? (call : LogCall) : Option String :=
  call.trace.map fun trace => if trace = "" then LogRecord.noTrace else trace

/-- The trace of a line: the one among the fields, else that of the logger. -/
def traceValue (call : LogCall) : JsonValue :=
  (call.fields.lookup LogLine.traceField).getD
    (.string (call.adapterTrace?.getD LogRecord.noTrace))

/-- What the line of a call says by itself. -/
def ownFields (call : LogCall) : List (String × JsonValue) :=
  [("logger", .string (LogLine.loggerName call.logger)), ("level", .string call.level.name),
    ("message", .string call.message), (LogLine.traceField, call.traceValue)]

/-- The line of a call as an object; a field of the call replaces an own one of that name. -/
def jsonLine (call : LogCall) : JsonValue :=
  let own := call.ownFields
  .object ((own.map fun (field, value) => (field, (call.fields.lookup field).getD value)) ++
    call.fields.filter fun (field, _) => LogLine.isWritten field && (own.lookup field).isNone)

/-- The line of a call as a text. -/
def textLine (call : LogCall) : String :=
  Text.fill 7 call.level.name ++ " " ++ LogLine.loggerName call.logger ++ " [seed=" ++
    LogLine.showTrace call.traceValue ++ "] " ++ call.message

/-- The lines of a call: none below the level of the set-up. -/
def lines (setup : LogSetup) (call : LogCall) : Except Complaint (List LogLine) :=
  if !call.level.passes setup.level then .ok []
  else match call.fields.find? (LogLine.reservedFields.contains ·.1) with
    | some (field, _) => .error (LogLine.overwriting field)
    | none => .ok (match setup.format with
      | .json => [.json call.jsonLine]
      | .text => (call.textLine.splitOn "\n").map .text)

/-- The lines of calls one after another. -/
def allLines (setup : LogSetup) (calls : List LogCall) : Except Complaint (List LogLine) :=
  return (← calls.mapM (·.lines setup)).flatten

end LogCall

end SeededTesting
