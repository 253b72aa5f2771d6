import RevisedSimplex.Cli.Run
/-!
The program's entry point: the command line over the real files.

The files are asked through the operating system; a fault keeps the system's error number,
and those the command line names are told apart. A path the system could not take, with a NUL
character or too long, is refused before it is asked. What the run printed goes to standard
output and standard error, and its exit code is the process's.

Main definitions: `main`.
-/

namespace RevisedSimplex.Cli

def faultOf (e : IO.Error) : IoFault :=
  let code : Option UInt32 := match e with
    | .alreadyExists _ c _ | .otherError c _ | .resourceBusy c _ | .resourceVanished c _
    | .unsupportedOperation c _ | .hardwareFault c _ | .unsatisfiedConstraints c _
    | .illegalOperation c _ | .protocolError c _ | .timeExpired c _ | .interrupted _ c _
    | .noFileOrDirectory _ c _ | .invalidArgument _ c _ | .permissionDenied _ c _
    | .resourceExhausted _ c _ | .inappropriateType _ c _ | .noSuchThing _ c _ => some c
    | _ => none
  match code with
  | some 2 => .notFound
  | some 21 => .isDirectory
  | some 20 => .notDirectory
  | some 36 => .nameTooLong
  | some 28 => .noSpace
  | some 13 => .permissionDenied
  | some 6 => .noDevice
  | _ => .other (toString e)

instance : FileSystem IO where
  present path := do
    if (pathFault? path).isSome then return false
    try
      let _ ← IO.FS.Handle.mk path .read
      return true
    catch _ => return false
  readBytes path := do
    if let some f := pathFault? path then return .error f
    try return .ok (← IO.FS.readBinFile path)
    catch e => return .error (faultOf e)
  create path := do
    if let some f := pathFault? path then return .error f
    try
      IO.FS.writeBinFile path ByteArray.empty
      return .ok ()
    catch e => return .error (faultOf e)
  append path text := do
    if let some f := pathFault? path then return .error f
    try
      let h ← IO.FS.Handle.mk path .append
      h.putStr text
      h.flush
      return .ok ()
    catch e => return .error (faultOf e)
  warn text := IO.eprint text

end RevisedSimplex.Cli

/-- Runs the command line on the program's arguments. -/
def main (args : List String) : IO UInt32 := do
  let exit ← (RevisedSimplex.Cli.run args : IO RevisedSimplex.Cli.Exit)
  IO.print exit.out
  IO.eprint exit.err
  return exit.code.toUInt32
