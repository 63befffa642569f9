import TypedStyle.Command.Options
import TypedStyle.Compile
import TypedStyle.Diagnostic.Report

/-!
Runs of the command line. The answer to a request is decided from what was read, before anything
is written: a run either ends with its output on the standard streams, or it asks for one file to
be written. How files are read and written is not part of it, and is given from outside.
-/

namespace TypedStyle.Command

/-- What a run asks of the system it runs on. -/
structure FileSystem (Path Files : Type) where
  /-- The text of a path, where whatever is no text has been replaced. -/
  name : Path → String
  read : Files → Path → Except String ByteArray
  /-- The files afterwards, and the reason if the content could not be written. -/
  write : Files → Path → ByteArray → Files × Except String Unit

inductive Answer (Path : Type) where
  | done (code : UInt32) (output errors : String)
  | write (path : Path) (css : String)
  deriving DecidableEq

variable {Path Files : Type}

namespace Answer

def failure (errors : String) : Answer Path := .done 1 "" errors

/-- The answer to a breach, with what was reported before it. The text of the breach itself is left
out. -/
def aborted (errors : String) : Answer Path := .done 101 "" errors

def reportsFrom (source : String) (number : Nat) (reported : String) :
    List Diagnostic → Answer Path
  | [] => failure (reported ++ toString number ++ " error(s) found\n")
  | diagnostic :: later =>
      match diagnostic.report source with
      | .ok text => reportsFrom source number (reported ++ text) later
      | .error _ => aborted reported

def reports (diagnostics : List Diagnostic) (source : String) : Answer Path :=
  reportsFrom source diagnostics.length "" diagnostics

def stopped (stop : Stop (List Diagnostic)) (source : String) : Answer Path :=
  match stop with
  | .fault diagnostics => reports diagnostics source
  | .breach _ => aborted ""

end Answer

namespace Options

def inputName (options : Options Path) (name : Path → String) : String :=
  (options.input?.map name).getD "stdin"

def answerSource (options : Options Path) (name : Path → String) (source : String) : Answer Path :=
  if options.checkOnly then
    match checkSource source (options.inputName name) with
    | .ok () => .done 0 "" ""
    | .error stop => .stopped stop source
  else
    match compile source (options.inputName name) options.indent with
    | .error stop => .stopped stop source
    | .ok css =>
        match options.output? with
        | some path => .write path css
        | none => .done 0 css ""

def answer (options : Options Path) (name : Path → String) (input : Except String ByteArray) :
    Answer Path :=
  let failed (reason : String) : Answer Path :=
    .failure ("Failed to read " ++ options.inputName name ++ ": " ++ reason ++ "\n")
  match input with
  | .error reason => failed reason
  | .ok bytes =>
      match String.fromUTF8? bytes with
      | none => failed "stream did not contain valid UTF-8"
      | some source => options.answerSource name source

end Options

def writeFailure (path reason : String) : String :=
  "Failed to write " ++ path ++ ": " ++ reason ++ "\n"

def versionText : String := "icssc 0.1.0\n"

def usageText : String :=
  "usage: icssc [-o OUTPUT] [--check] [--indent N] [--version] [FILE]\n"

structure Outcome (Files : Type) where
  code : UInt32
  output : String
  errors : String
  files : Files

def Answer.outcome (answer : Answer Path) (system : FileSystem Path Files) (files : Files) :
    Outcome Files :=
  match answer with
  | .done code output errors => ⟨code, output, errors, files⟩
  | .write path css =>
      match system.write files path css.toUTF8 with
      | (after, .ok ()) => ⟨0, "", "", after⟩
      | (after, .error reason) => ⟨1, "", writeFailure (system.name path) reason, after⟩

def Options.input (options : Options Path) (system : FileSystem Path Files)
    (stdin : Except String ByteArray) (files : Files) : Except String ByteArray :=
  match options.input? with
  | some path => system.read files path
  | none => stdin

def Options.run (options : Options Path) (system : FileSystem Path Files)
    (stdin : Except String ByteArray) (files : Files) : Outcome Files :=
  (options.answer system.name (options.input system stdin files)).outcome system files

def run (arguments : List String) (system : FileSystem String Files)
    (stdin : Except String ByteArray) (files : Files) : Outcome Files :=
  match Request.ofArguments? arguments with
  | none => ⟨2, "", usageText, files⟩
  | some .version => ⟨0, versionText, "", files⟩
  | some (.compile options) => options.run system stdin files

end TypedStyle.Command
