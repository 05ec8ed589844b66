import ContainerApplets.Applet.Field

/-!
The causes for which the library refuses a request, and the one place that words them.
-/

namespace ContainerApplets

/-- Two fragments set one single-valued setting to different values, shown as they stand. -/
structure Conflict where
  entity : String
  name : String
  field : String
  first : String
  firstOrigin : String
  second : String
  secondOrigin : String
  deriving DecidableEq

inductive FileFault
  | missing
  /-- A name that is not there is to be a directory, by a slash at its end. -/
  | missingDirectory
  | notDirectory
  | isDirectory
  | exists
  | loop
  | denied
  | notEmpty
  | nameTooLong
  | noFormat
  | unsupported
  | hasNul
  | notText
  | other (reason : String)
  deriving DecidableEq

namespace FileFault

def reason : FileFault → String
  | .missing | .missingDirectory => "No such file or directory (os error 2)"
  | .notDirectory => "Not a directory (os error 20)"
  | .isDirectory => "Is a directory (os error 21)"
  | .exists => "File exists (os error 17)"
  | .loop => "Too many levels of symbolic links (os error 40)"
  | .denied => "Permission denied (os error 13)"
  | .notEmpty => "Directory not empty (os error 39)"
  | .nameTooLong => "File name too long (os error 36)"
  | .noFormat => "Exec format error (os error 8)"
  | .unsupported => "Function not implemented (os error 38)"
  | .hasNul => "file name contained an unexpected NUL byte"
  | .notText => "stream did not contain valid UTF-8"
  | .other reason => reason

end FileFault

inductive Failure
  /-- A value at a path of a document is not what it has to be. -/
  | invalid (origin path message : String)
  | unreadable (origin reason : String)
  | conflict (found : Conflict)
  /-- An applet is reached twice. -/
  | cycle (applet : String)
  | missingHook (side : HookSide) (name referrer : String)
  | unknownApplet (name : String)
  /-- A command ended with an exit code that is not zero. -/
  | exited (command : String) (code : Int)
  | registry (message : String)
  | fetch (source message : String)
  | file (fault : FileFault)
  deriving DecidableEq

namespace Failure

/-- The path that stands for a document as a whole. -/
def wholeDocument : String := "<document>"

def message : Failure → String
  | .invalid origin path message => origin ++ ": " ++ path ++ ": " ++ message
  | .unreadable origin reason => origin ++ ": " ++ wholeDocument ++ ": " ++ reason
  | .conflict found =>
      found.entity ++ " '" ++ found.name ++ "' field '" ++ found.field ++
        "': conflicting values " ++ found.first ++ " (" ++ found.firstOrigin ++ ") and " ++
        found.second ++ " (" ++ found.secondOrigin ++ ")"
  | .cycle applet => "circular hook reference detected: " ++ applet
  | .missingHook side name referrer =>
      side.label ++ " '" ++ name ++ "' referenced by applet '" ++ referrer ++ "' not found"
  | .unknownApplet name => "applet '" ++ name ++ "' not found"
  | .exited command code =>
      "command \x60" ++ command ++ "\x60 failed with exit code " ++ toString code
  | .registry message => "registry error: " ++ message
  | .fetch source message => "failed to fetch " ++ source ++ ": " ++ message
  | .file fault => "io error: " ++ fault.reason

/-- Only a command that failed passes its exit code on. -/
def exitCode : Failure → Option Int
  | .exited _ code => some code
  | _ => none

end Failure

end ContainerApplets
