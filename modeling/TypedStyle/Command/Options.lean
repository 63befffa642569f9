import TypedStyle.Text.Numeral

/-!
Arguments of the command line, read from left to right. At most one argument is a path to read;
every option may be given once. A value stands in the argument of its option or in the next one,
where it does not look like an option itself. After `--` every argument is a path.
-/

namespace TypedStyle.Command

structure Options (Path : Type) where
  /-- Where to read the stylesheet; standard input if missing. -/
  input? : Option Path
  /-- Where to write the CSS; standard output if missing. -/
  output? : Option Path
  checkOnly : Bool
  indent : Nat
  deriving DecidableEq

inductive Request where
  | version
  | compile (options : Options String)
  deriving DecidableEq

structure Given where
  input? : Option String
  output? : Option String
  checkOnly : Bool
  indent? : Option Nat
  deriving DecidableEq

namespace Given

def nothing : Given := ⟨none, none, false, none⟩

def options (given : Given) : Options String :=
  ⟨given.input?, given.output?, given.checkOnly, given.indent?.getD 2⟩

def setInput? (given : Given) (path : String) : Option Given :=
  if given.input?.isSome || path.isEmpty then none else some { given with input? := some path }

def setOutput? (given : Given) (path : String) : Option Given :=
  if given.output?.isSome || path.isEmpty then none else some { given with output? := some path }

def setCheckOnly? (given : Given) : Option Given :=
  if given.checkOnly then none else some { given with checkOnly := true }

def setIndent? (given : Given) (numeral : String) : Option Given :=
  if given.indent?.isSome then none
  else (Text.unsigned64? numeral.toList).map fun indent => { given with indent? := some indent }

end Given

inductive Valued where
  | output
  | indent
  deriving DecidableEq

def Valued.set? (valued : Valued) (given : Given) (value : String) : Option Given :=
  match valued with
  | .output => given.setOutput? value
  | .indent => given.setIndent? value

inductive Argument where
  | version
  | checkOnly
  | valued (valued : Valued) (value? : Option String)
  | input (path : String)
  | unknown
  deriving DecidableEq

namespace Argument

def ofLong (name : List Char) (value? : Option String) : Argument :=
  match String.ofList name, value? with
  | "output", value? => .valued .output value?
  | "indent", value? => .valued .indent value?
  | "check", none => .checkOnly
  | "version", none => .version
  | _, _ => .unknown

def ofString (argument : String) : Argument :=
  match argument.toList with
  | '-' :: '-' :: long =>
      match long.dropWhile (· != '=') with
      | '=' :: value => ofLong (long.takeWhile (· != '=')) (some (String.ofList value))
      | _ => ofLong long none
  | ['-', 'o'] => .valued .output none
  | '-' :: 'o' :: '=' :: value | '-' :: 'o' :: value => .valued .output (some (String.ofList value))
  | '-' :: 'V' :: _ => .version
  | '-' :: _ :: _ => .unknown
  | _ => .input argument

end Argument

def looksLikeOption (argument : String) : Bool :=
  match argument.toList with
  | '-' :: _ :: _ => true
  | _ => false

def readPaths (given : Given) : List String → Option Request
  | [] => some (.compile given.options)
  | path :: later => (given.setInput? path).bind fun given => readPaths given later

def readArguments (given : Given) : List String → Option Request
  | [] => some (.compile given.options)
  | argument :: later =>
      if argument = "--" then readPaths given later
      else
        match Argument.ofString argument with
        | .version => some .version
        | .checkOnly => given.setCheckOnly?.bind fun given => readArguments given later
        | .valued valued (some value) =>
            (valued.set? given value).bind fun given => readArguments given later
        | .valued valued none =>
            match later with
            | [] => none
            | value :: later =>
                if looksLikeOption value then none
                else (valued.set? given value).bind fun given => readArguments given later
        | .input path => (given.setInput? path).bind fun given => readArguments given later
        | .unknown => none

def Request.ofArguments? (arguments : List String) : Option Request :=
  readArguments .nothing arguments

end TypedStyle.Command
