import LoxScanner.Console.Command

/-!
The program: reads files and the standard input, and writes what the commands say.
-/

namespace LoxScanner

namespace Program

/-- The failure that a numbered error of the system stands for. Some calls give the
number negated. -/
def failureOfCode (code : UInt32) (reason : String) : ReadFailure :=
  let number := min code.toNat (-code).toNat
  if number = 2 then .notFound
  else if number = 20 then .notADirectory
  else if number = 21 then .isADirectory
  else .other reason number

/-- The failure that an error of the system stands for. -/
def failureOf : IO.Error → ReadFailure
  | .noFileOrDirectory _ code reason => failureOfCode code reason
  | .inappropriateType _ code reason => failureOfCode code reason
  | .permissionDenied _ code reason => failureOfCode code reason
  | .invalidArgument _ code reason => failureOfCode code reason
  | .otherError code reason => failureOfCode code reason
  | failure => .other (toString failure) 0

def readFile (path : String) : IO (Except ReadFailure (List UInt8)) := do
  try
    return .ok (← IO.FS.readBinFile path).toList
  catch failure => return .error (failureOf failure)

def write (written : Written) : IO Unit := do
  let output ← IO.getStdout
  output.putStr written.output
  output.flush
  (← IO.getStderr).putStr written.errors

/-- Reads bytes up to and with the next line feed, or to the end. -/
partial def readRaw (input : IO.FS.Stream) (taken : ByteArray) : IO ByteArray := do
  let byte ← input.read 1
  if byte.isEmpty then return taken
  else if byte[0]? = some Prompt.lineFeedByte then return taken ++ byte
  else readRaw input (taken ++ byte)

/-- Asks for lines until there are no more, and answers each. -/
partial def prompt (input : IO.FS.Stream) : IO Ending := do
  write ⟨Prompt.mark, ""⟩
  let raw ← readRaw input .empty
  match Prompt.lines raw.toList with
  | [] =>
      write ⟨"\n", ""⟩
      return .success
  | line :: _ =>
      match Prompt.reply line with
      | .ok written =>
          write written
          prompt input
      | .error failure =>
          write ⟨"", Prompt.failureMessage failure⟩
          return .noInput

/-- Runs a command and tells how it ended. -/
def run : Command → IO Ending
  | .prompt => do prompt (← IO.getStdin)
  | .file path => do
      let outcome := Command.scanFile path (← readFile path)
      write outcome.written
      return outcome.ending
  | .usage => do
      write ⟨Command.usageMessage, ""⟩
      return .usage

end Program

end LoxScanner

def main (arguments : List String) : IO UInt32 := do
  let ending ← LoxScanner.Program.run (.ofArguments arguments)
  return UInt32.ofNat ending.status
