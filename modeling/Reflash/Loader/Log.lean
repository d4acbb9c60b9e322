/-
  Reflash.Loader.Log

  Log records and the lines they are printed as.
-/
import Reflash.Text.Plain

namespace Reflash

inductive LogLevel where
  | off
  | error
  | warn
  | info
  | debug
  | trace
  deriving DecidableEq, Inhabited

namespace LogLevel

def all : List LogLevel := [off, error, warn, info, debug, trace]

def name : LogLevel → String
  | off => "OFF"
  | error => "ERROR"
  | warn => "WARN"
  | info => "INFO"
  | debug => "DEBUG"
  | trace => "TRACE"

/-- The higher, the more is logged. -/
def rank : LogLevel → Nat
  | off => 0
  | error => 1
  | warn => 2
  | info => 3
  | debug => 4
  | trace => 5

/-- The capitals of a letter. Beyond ASCII only the dotless i and the joined double f have
capitals that occur in the name of a level. -/
def capitals (c : Char) : List Char :=
  if c = 'ı' then ['I'] else if c = 'ﬀ' then ['F', 'F'] else [c.toUpper]

/-- The level with the given name, in whatever case it is written. -/
def ofText? (text : String) : Option LogLevel :=
  all.find? fun level => level.name.toList == text.toList.flatMap capitals

end LogLevel

structure LogRecord where
  level : LogLevel
  /-- The part of the program that speaks. -/
  source : String
  message : String
  deriving DecidableEq, Inhabited

namespace LogRecord

/-- Further lines of a message are set in by four blanks. -/
def setIn (message : String) : String :=
  .join (message.toList.map fun c => if c = '\n' then "\n    " else .ofList [c])

/-- The line of a record; the level's name takes five places. Nothing in it commands a terminal,
whatever the message holds. -/
def line (record : LogRecord) : String :=
  let name := record.level.name
  Text.plain ("[" ++ name ++ .ofList (List.replicate (5 - name.length) ' ') ++ " " ++
    record.source ++ "] " ++ setIn record.message ++ "\n")

/-- The lines of the records that `level` lets through. -/
def lines (level : LogLevel) (records : List LogRecord) : String :=
  .join ((records.filter fun record => record.level.rank ≤ level.rank).map line)

end LogRecord

end Reflash
