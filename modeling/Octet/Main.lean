import Octet.CommandLine

/-!
# The texture inspector

Runs `CommandLine.inspect` on the arguments of the process and the files of the system.
-/

namespace Octet.CommandLine

/-- The reason that the system gives for an error. -/
def reasonOf : IO.Error → String
  | .noFileOrDirectory _ code details
  | .permissionDenied _ code details
  | .invalidArgument _ code details
  | .inappropriateType _ code details => s!"{details} (os error {code})"
  | e => toString e

/-- What a path leads to. What can be opened but not read is a directory. -/
def fileAt (path : String) : IO File := do
  match ← (IO.FS.Handle.mk path .read).toBaseIO with
  | .error e => return .unreachable (reasonOf e)
  | .ok handle =>
    match ← handle.readBinToEnd.toBaseIO with
    | .error _ => return .directory
    | .ok content => return .holding content.data.toList

end Octet.CommandLine

open Octet CommandLine in
def main (args : List String) : IO UInt32 := do
  let file ←
    match (Command.ofArgs? args).bind Command.path? with
    | some path => fileAt path
    | none => pure .absent
  let outcome := inspect (fun _ => file) args
  IO.print outcome.out
  IO.eprint outcome.err
  return outcome.code.toUInt32
