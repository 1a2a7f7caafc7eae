import XcfFlatten.Command.Run
import XcfFlatten.Picture.Encode

/-!
# The program

Runs the command on the arguments of the program and the files of the disk.
-/

namespace XcfFlatten

/-- What stands in the way of reaching a file, as the system words it. -/
def fileError : IO.Error → FileError
  | .noFileOrDirectory _ _ _ => .notFound
  | .inappropriateType _ 20 _ => .notDirectory
  | .inappropriateType _ 21 _ => .isDirectory
  | .invalidArgument _ 36 _ => .nameTooLong
  | .permissionDenied _ code _ => .other s!"Permission denied (os error {code})"
  | error => .other error.toString

/-- Runs an action on a file. -/
def onFile {α : Type} (action : IO α) : IO (Except FileError α) := do
  try pure (.ok (← action)) catch error => pure (.error (fileError error))

/-- How to reach the files of the disk. -/
def diskAccess : FileAccess IO where
  load path := onFile do pure (← (← IO.FS.Handle.mk path .read).readBinToEnd).data
  create path := onFile do IO.FS.writeBinFile path ⟨#[]⟩
  save path format picture := onFile do IO.FS.writeBinFile path ⟨format.encode picture⟩

end XcfFlatten

open XcfFlatten in
/-- Runs the command, prints what it leaves on the terminal, and ends with its exit code. -/
def main (arguments : List String) : IO UInt32 := do
  let outcome ← Command.run diskAccess arguments
  IO.print outcome.output
  outcome.errors.forM IO.eprintln
  pure (UInt32.ofNat outcome.exitCode)
