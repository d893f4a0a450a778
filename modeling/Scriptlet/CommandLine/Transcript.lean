import Scriptlet.CommandLine.Arguments
import Scriptlet.Session
import Scriptlet.Text.Blank

namespace Scriptlet.CommandLine

/-!
# What the program writes

Running a file writes every value on a line of its own, and the report of what went
wrong to the error stream.  The prompt reads line after line; what is declared in
one line stays for the next.
-/

/-- What was written so far. -/
structure Output where
  stdout : String
  stderr : String
  deriving Repr, DecidableEq, Inhabited

namespace Output

/-- Nothing was written. -/
def empty : Output :=
  ⟨"", ""⟩

/-- Text on the output stream. -/
def ofStdout (text : String) : Output :=
  ⟨text, ""⟩

/-- A line on the error stream. -/
def errorLine (line : String) : Output :=
  ⟨"", line ++ "\n"⟩

/-- One output after the other. -/
def append (first second : Output) : Output :=
  ⟨first.stdout ++ second.stdout, first.stderr ++ second.stderr⟩

end Output

/-- Everything that a run of the program wrote, and its exit code. -/
structure Transcript where
  output : Output
  exitCode : Nat
  deriving Repr, DecidableEq, Inhabited

/-! ## Files -/

/-- A file that cannot be read as text. -/
def unreadable (path : String) : Transcript where
  output :=
    .errorLine
      ("Failed run file: CompilerInternalError: Failed open source file '" ++
        path ++ "'")
  exitCode := 1

/-- What is written after running a file: the values, each on its line, or the
report. -/
def fileTranscript (options : ReportOptions) (execution : Execution) :
    Transcript :=
  let values :=
    String.join (execution.values.map fun value => value.display ++ "\n")
  if execution.isOk then
    ⟨.ofStdout values, 0⟩
  else
    ⟨(Output.ofStdout values).append
        (.errorLine (options.report execution.diagnostics)), 1⟩

/-- Runs a file, given its bytes if it could be read; there is no answer if the
allowed steps are used up. -/
def runFile?
    (steps : Nat)
    (options : ReportOptions)
    (path : String)
    (content : Option ByteArray) :
    Option Transcript :=
  match content.bind String.fromUTF8? with
  | none => some (unreadable path)
  | some code =>
      let store := Store.empty
      ((store.openFile path).run? steps store.nextId ⟨path, code⟩).map
        (fileTranscript options)

/-! ## The prompt -/

/-- The name of what is typed at the prompt. -/
def promptName : String := "<repl>"

/-- What is written before each line is read. -/
def promptMark : String := "> "

/-- What is written at the end of the input. -/
def promptFarewell : String := "\nExited zsnow repl\n"

/-- What the prompt keeps from line to line. -/
structure PromptState where
  store : Store
  scope : ScopeId

namespace PromptState

/-- An empty scope for what is typed. -/
def initial : PromptState :=
  ⟨Store.empty.openFile promptName, Store.empty.nextId⟩

/-- What is written after running a line: the values on one line, or the
report. -/
def lineOutput (options : ReportOptions) (execution : Execution) : Output :=
  if execution.isOk then
    if execution.values.isEmpty then
      .empty
    else
      .ofStdout
        (String.intercalate " " (execution.values.map Value.display) ++ "\n")
  else
    .errorLine (options.report execution.diagnostics)

/-- Runs one line, given its bytes; there is no answer if the allowed steps are
used up. -/
def line?
    (state : PromptState)
    (steps : Nat)
    (options : ReportOptions)
    (bytes : ByteArray) :
    Option (PromptState × Output) :=
  match String.fromUTF8? bytes with
  | none =>
      some
        (state,
          .errorLine "Failed read line: stream did not contain valid UTF-8")
  | some text =>
      let code := Text.trimmed text
      if code.isEmpty then
        some (state, .empty)
      else
        (state.store.run? steps state.scope ⟨promptName, code⟩).map
          fun execution =>
            ({ state with store := execution.store },
              lineOutput options execution)

/-- Runs all lines, each after its mark. -/
def lines?
    (steps : Nat)
    (options : ReportOptions) :
    PromptState →
    List ByteArray →
    Option Output
  | _, [] => some (.ofStdout (promptMark ++ promptFarewell))
  | state, bytes :: rest => do
      let (next, written) ← state.line? steps options bytes
      let later ← lines? steps options next rest
      pure (((Output.ofStdout promptMark).append written).append later)

end PromptState

/-- The lines of an input, each with its line break. -/
def inputLines : List UInt8 → List (List UInt8)
  | [] => []
  | byte :: rest =>
      if byte = 10 then
        [byte] :: inputLines rest
      else
        match inputLines rest with
        | [] => [[byte]]
        | first :: later => (byte :: first) :: later

/-- Runs the prompt on a whole input; there is no answer if the allowed steps are
used up. -/
def runPrompt? (steps : Nat) (options : ReportOptions) (input : ByteArray) :
    Option Transcript :=
  let lines := (inputLines input.data.toList).map fun line => ⟨line.toArray⟩
  (PromptState.initial.lines? steps options lines).map fun output =>
    ⟨output, 0⟩

/-- Runs the program, given how files are read and what is typed; there is no
answer if the allowed steps are used up. -/
def run?
    (steps : Nat)
    (invocation : Invocation)
    (readFile : String → Option ByteArray)
    (input : ByteArray) :
    Option Transcript :=
  match invocation.mode with
  | .file path => runFile? steps invocation.options path (readFile path)
  | .prompt => runPrompt? steps invocation.options input

end Scriptlet.CommandLine
