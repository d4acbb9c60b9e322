/-
  Reflash.Text.Failure

  Why a program stopped, and the line it leaves behind. A failure has a kind and a
  text of its own, a fixed text, or comes from the operating system; a remark is
  only a sentence.
-/
import Reflash.Text.Quoted

namespace Reflash

inductive FailureKind where
  | notFound
  | connectionRefused
  | notConnected
  | brokenPipe
  | invalidInput
  | timedOut
  | writeZero
  | interrupted
  | notADirectory
  | isADirectory
  | invalidFilename
  | other
  deriving DecidableEq, Inhabited

namespace FailureKind

def name : FailureKind → String
  | notFound => "NotFound"
  | connectionRefused => "ConnectionRefused"
  | notConnected => "NotConnected"
  | brokenPipe => "BrokenPipe"
  | invalidInput => "InvalidInput"
  | timedOut => "TimedOut"
  | writeZero => "WriteZero"
  | interrupted => "Interrupted"
  | notADirectory => "NotADirectory"
  | isADirectory => "IsADirectory"
  | invalidFilename => "InvalidFilename"
  | other => "Other"

/-- The kind of a link failure with the given name; any other name stands for `other`. -/
def ofName (text : String) : FailureKind :=
  ([timedOut, interrupted, brokenPipe, notConnected].find? fun kind => kind.name == text).getD
    other

end FailureKind

inductive Failure where
  | custom (kind : FailureKind) (text : String)
  | fixed (kind : FailureKind) (text : String)
  | system (code : Nat) (kind : FailureKind) (text : String)
  | remark (text : String)
  deriving DecidableEq, Inhabited

namespace Failure

/-- The kind of a failure; a remark is of none. -/
def kind? : Failure → Option FailureKind
  | custom kind _ => some kind
  | fixed kind _ => some kind
  | system _ kind _ => some kind
  | remark _ => none

/-- What the failure says for itself. -/
def message : Failure → String
  | custom _ text => text
  | fixed _ text => text
  | system code _ text => text ++ " (os error " ++ toString code ++ ")"
  | remark text => text

/-- The failure with all its parts. -/
def describe : Failure → String
  | custom kind text =>
    "Custom \x7b kind: " ++ kind.name ++ ", error: " ++ Text.quoted text ++ " \x7d"
  | fixed kind text =>
    "Error \x7b kind: " ++ kind.name ++ ", message: " ++ Text.quoted text ++ " \x7d"
  | system code kind text =>
    "Os \x7b code: " ++ toString code ++ ", kind: " ++ kind.name ++ ", message: " ++
      Text.quoted text ++ " \x7d"
  | remark text => Text.quoted text

/-- The last line of a program that failed. -/
def lastLine (failure : Failure) : String :=
  "Error: " ++ failure.describe ++ "\n"

end Failure

end Reflash
