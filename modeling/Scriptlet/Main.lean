import Scriptlet.CommandLine.Transcript

namespace Scriptlet.CommandLine

/-!
# The program

The outermost layer: it reads files and lines, hands them to the definitions of the
library and writes what they answer.
-/

/-- How the program is called. -/
def usage : String :=
  "Usage: zsnow [--max-errors N] [--no-color] (file PATH | repl)\n"

/-- The version that the program goes by. -/
def version : String :=
  "zsnow 0.1.0\n"

/-- What is written when the arguments do not say what to do, and the exit
code. -/
def Refusal.transcript : Refusal → Transcript
  | .helpWanted => ⟨.ofStdout usage, 0⟩
  | .versionWanted => ⟨.ofStdout version, 0⟩
  | _ => ⟨⟨"", usage⟩, 2⟩

/-- Writes to both streams. -/
def Output.write (output : Output) : IO Unit := do
  let stdout ← IO.getStdout
  stdout.putStr output.stdout
  stdout.flush
  (← IO.getStderr).putStr output.stderr

/-- Writes everything that a run wrote, and answers with its exit code. -/
def Transcript.write (transcript : Transcript) : IO UInt32 := do
  transcript.output.write
  return UInt32.ofNat transcript.exitCode

/-- The bytes of a file, if it can be read. -/
def fileContent (path : String) : IO (Option ByteArray) := do
  try
    return some (← IO.FS.readBinFile path)
  catch _ =>
    return none

/-- The bytes up to the next line break, which is kept, or to the end of the
input. -/
partial def readLine (input : IO.FS.Stream) (line : ByteArray) : IO ByteArray := do
  let bytes ← input.read 1
  if bytes.isEmpty then
    return line
  else
    let line := line ++ bytes
    if bytes.toList = [10] then
      return line
    else
      readLine input line

/-- Runs what is typed, line by line, until the input ends. -/
partial def prompt
    (options : ReportOptions)
    (input : IO.FS.Stream)
    (state : PromptState) :
    IO UInt32 := do
  (Output.ofStdout promptMark).write
  let line ← readLine input ByteArray.empty
  if line.isEmpty then
    (Output.ofStdout promptFarewell).write
    return 0
  else
    match state.line? ampleSteps options line with
    | some (next, written) =>
        written.write
        prompt options input next
    | none => return 1

/-- Does what the arguments say. -/
def start (arguments : List String) : IO UInt32 := do
  match read arguments with
  | .error refusal => refusal.transcript.write
  | .ok ⟨.prompt, options⟩ =>
      prompt options (← IO.getStdin) PromptState.initial
  | .ok ⟨.file path, options⟩ =>
      match runFile? ampleSteps options path (← fileContent path) with
      | some transcript => transcript.write
      | none => return 1

end Scriptlet.CommandLine

/-- Runs the program with its arguments and answers with its exit code. -/
def main (arguments : List String) : IO UInt32 :=
  Scriptlet.CommandLine.start arguments
