import DotMatrix.CommandLine.Command

namespace DotMatrix.CommandLine

/-- The number of a failure, which the system may give negated. -/
def failureNumber (code : UInt32) : Nat := (min code (-code)).toNat

def fileError : IO.Error → FileError
  | .noFileOrDirectory .. => .notFound
  | .inappropriateType _ code _ => if failureNumber code = 21 then .isDirectory else .notDirectory
  | .invalidArgument _ code reason =>
    if failureNumber code = 36 then .nameTooLong else .other (failureNumber code) reason
  | .noSuchThing _ code reason => .other (failureNumber code) reason
  | .permissionDenied .. => .other 13 "Permission denied"
  | e => .other 0 e.toString

def readImage (path : String) : IO (Except FileError Image) := do
  try
    let bytes ← IO.FS.readBinFile path
    return .ok bytes.data
  catch e =>
    return .error (fileError e)

end DotMatrix.CommandLine

def main (args : List String) : IO UInt32 := do
  let outcome ← DotMatrix.CommandLine.answer DotMatrix.CommandLine.readImage args
  IO.print outcome.stdout
  IO.eprint outcome.stderr
  return outcome.exitCode.toUInt32
