import XmlMapping.CommandLine.Report

/-!
# The program

Reads the files that the command line names, writes what the command line is answered with, and sets the
exit code: 0 for a report, 1 for an error and 2 for a wrong command line.
-/

open XmlMapping CommandLine

/-- The message of the system for what went wrong. -/
def systemMessage : IO.Error → String
  | .alreadyExists _ code details | .otherError code details | .resourceBusy code details
  | .resourceVanished code details | .unsupportedOperation code details | .hardwareFault code details
  | .unsatisfiedConstraints code details | .illegalOperation code details | .protocolError code details
  | .timeExpired code details | .interrupted _ code details | .noFileOrDirectory _ code details
  | .invalidArgument _ code details | .permissionDenied _ code details | .resourceExhausted _ code details
  | .inappropriateType _ code details | .noSuchThing _ code details =>
    details ++ " (os error " ++ toString code ++ ")"
  | .unexpectedEof => "unexpected end of file"
  | .userError message => message

/-- What comes of reading, with the message of the system if it fails. -/
def contentsOf (read : IO ByteArray) : IO Contents := do
  try
    let bytes ← read
    return .ok bytes
  catch e => return .error (systemMessage e)

/-- The bytes of a file. -/
def fileBytes (file : String) : IO ByteArray := do
  -- Reading a file by its name would ask for its size first, which fails with other messages.
  let handle ← IO.FS.Handle.mk file .read
  handle.readBinToEnd

/-- The bytes that are left on a stream. -/
partial def streamBytes (stream : IO.FS.Stream) (sofar : ByteArray) : IO ByteArray := do
  let bytes ← stream.read 65536
  if bytes.isEmpty then return sofar else streamBytes stream (sofar ++ bytes)

/-- The bytes of the standard input. -/
def standardBytes : IO ByteArray := do
  let stdin ← IO.getStdin
  streamBytes stdin .empty

/-- Answers the command line. -/
def main (arguments : List String) : IO UInt32 := do
  let answer ← answer (fun file => contentsOf (fileBytes file)) (contentsOf standardBytes) arguments
  IO.print answer.output
  IO.eprint answer.complaint
  return answer.code
