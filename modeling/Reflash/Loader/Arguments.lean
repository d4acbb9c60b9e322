/-
  Reflash.Loader.Arguments

  The loader's command line. Four flags are followed by a value; the image's path
  is the last argument that is neither a flag nor such a value, wherever it
  stands. Argument lists begin with the program's own name.
-/
import Reflash.Loader.Log
import Reflash.Text.Decimal
import Reflash.Text.Failure

namespace Reflash

namespace Arguments

/-- Flags that are followed by a value. -/
def valueFlags : List String :=
  ["--port", "--baud", "--node-id", "--log-level"]

def defaultBaud : UInt32 := 115200

/-- The argument after the first occurrence of `flag`. -/
def flagValue? (flag : String) : List String → Option String
  | [] => none
  | argument :: rest => if argument = flag then rest.head? else flagValue? flag rest

def port? (arguments : List String) : Option String :=
  flagValue? "--port" arguments

/-- The speed to open the port with. -/
def baud (arguments : List String) : Except Failure UInt32 :=
  match flagValue? "--baud" arguments with
  | none => .ok defaultBaud
  | some text =>
    match Text.decimal? 0x100000000 text with
    | some n => .ok (.ofNat n)
    | none => .error (.custom .invalidInput ("Invalid baud rate: " ++ text))

/-- The node to address, if one is named. -/
def nodeId (arguments : List String) : Except Failure (Option UInt8) :=
  match flagValue? "--node-id" arguments with
  | none => .ok none
  | some text =>
    match Text.decimal? 0x100 text with
    | some n => .ok (some (.ofNat n))
    | none => .error (.custom .invalidInput ("Invalid node id: " ++ text))

/-- What to log, and a warning if that was not understood. -/
def logLevel (arguments : List String) : LogLevel × Option String :=
  match flagValue? "--log-level" arguments with
  | none => (.info, none)
  | some text =>
    match LogLevel.ofText? text with
    | some level => (level, none)
    | none => (.info, some ("Unknown log level: " ++ text ++ ". Using INFO"))

/-- The arguments that are neither flags nor values of flags; `previous` stands in front. -/
def positional (previous : String) : List String → List String
  | [] => []
  | argument :: rest =>
    if argument.startsWith "--" || valueFlags.contains previous then positional argument rest
    else argument :: positional argument rest

/-- The path of the image. -/
def firmwarePath : List String → Except Failure String
  | [] => .error (.custom .invalidInput "No firmware file path provided")
  | program :: rest =>
    match (positional program rest).getLast? with
    | some path => .ok path
    | none => .error (.custom .invalidInput "No firmware file path provided")

end Arguments

end Reflash
