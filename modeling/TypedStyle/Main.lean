import TypedStyle.Command.Run

/-!
The command line: reads what a request names, asks the library for the answer and carries it out.
-/

namespace TypedStyle.Command

def failureText : IO.Error → String
  | .noFileOrDirectory _ code details | .interrupted _ code details
  | .alreadyExists _ code details | .invalidArgument _ code details
  | .permissionDenied _ code details | .resourceExhausted _ code details
  | .inappropriateType _ code details | .noSuchThing _ code details
  | .otherError code details | .resourceBusy code details | .resourceVanished code details
  | .unsupportedOperation code details | .hardwareFault code details
  | .unsatisfiedConstraints code details | .illegalOperation code details
  | .protocolError code details | .timeExpired code details =>
      details ++ " (os error " ++ toString code ++ ")"
  | .unexpectedEof => "unexpected end of file"
  | .userError text => text

partial def readAll (stream : IO.FS.Stream) (read : ByteArray) : IO ByteArray := do
  let chunk ← stream.read 65536
  if chunk.isEmpty then return read else readAll stream (read ++ chunk)

def readInput (options : Options String) : IO (Except String ByteArray) := do
  try
    match options.input? with
    | some path => return .ok (← (← IO.FS.Handle.mk path .read).readBinToEnd)
    | none => return .ok (← readAll (← IO.getStdin) .empty)
  catch error => return .error (failureText error)

def perform : Answer String → IO UInt32
  | .done code output errors => do
      IO.print output
      IO.eprint errors
      return code
  | .write path css => do
      try
        IO.FS.writeFile path css
        return 0
      catch error =>
        IO.eprint (writeFailure path (failureText error))
        return 1

end TypedStyle.Command

def main (arguments : List String) : IO UInt32 := do
  match TypedStyle.Command.Request.ofArguments? arguments with
  | none => TypedStyle.Command.perform (.done 2 "" TypedStyle.Command.usageText)
  | some .version => TypedStyle.Command.perform (.done 0 TypedStyle.Command.versionText "")
  | some (.compile options) =>
      TypedStyle.Command.perform (options.answer id (← TypedStyle.Command.readInput options))
