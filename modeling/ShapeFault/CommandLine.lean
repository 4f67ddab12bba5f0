import ShapeFault.Expr.Outline
import ShapeFault.Policy.Load
import ShapeFault.Session
import ShapeFault.Tensor.Host
import ShapeFault.Tensor.Reader

/-!
# The command line

The command analyses one line of code under bindings of names to values. The arguments are read into
a `Command` first; then the policy file is read, if one is named; then the command is run. Nothing
here touches the world: the content of the file is an argument of `Command.run`, and so is the
format that policies are written in.

A command whose line makes a size leave its word ends without an outcome.
-/

namespace ShapeFault.CommandLine

/-- The text that tells how the command is used. -/
def usage : String :=
  "usage: shapetrap [--bind NAME=VALUE]... [--policy FILE] [--repr] LINE"

/-- What the command leaves behind. -/
structure Outcome where
  code : Nat
  output : String
  errors : String
  deriving DecidableEq, Repr

/-- The command succeeds and writes a text. -/
def Outcome.success (output : String) : Outcome :=
  ⟨0, output, ""⟩

/-- The command fails with a message. -/
def Outcome.failure (message : String) : Outcome :=
  ⟨1, "", "Error: " ++ message ++ "\n"⟩

/-- The reason why a file that does not exist cannot be read. -/
def missingFile : String :=
  "No such file or directory (os error 2)"

/-- A text with every line but the first moved to the right. -/
def indent (text : String) : String :=
  String.join (text.toList.map fun c => if c = '\n' then "\n    " else c.toString)

/-- The command fails with a message that has a cause. -/
def Outcome.failureFor (message cause : String) : Outcome :=
  .failure (message ++ "\n\nCaused by:\n    " ++ indent cause)

/-- The command fails because there is no policy. -/
def Outcome.noPolicy (e : Policy.LoadError) : Outcome :=
  .failureFor e.message e.cause

/-- What the command is asked to do. -/
structure Command where
  /-- the bindings, those named later first -/
  bindings : List (String × Value)
  policyPath : Option String
  /-- whether the outline of the line is wanted rather than its value -/
  outline : Bool
  line : String

/-- The two sides of the first equals sign. -/
def splitBinding? (binding : String) : Option (String × String) :=
  match binding.toList.span (· ≠ '=') with
  | (name, _ :: value) => some (String.ofList name, String.ofList value)
  | (_, []) => none

/-- Reads the arguments that are left, given the options read so far. -/
def readArguments (bindings : List (String × Value)) (policyPath : Option String) (outline : Bool) :
    List String → Except Outcome Command
  | [] => .error (.failure ("Missing LINE\n" ++ usage))
  | arg :: args =>
    if arg = "--bind" ∨ arg = "-b" then
      match args with
      | [] => .error (.failure ("Missing NAME=VALUE after " ++ arg))
      | binding :: args =>
        match splitBinding? binding with
        | none => .error (.failure ("Binding `" ++ binding ++ "` is not NAME=VALUE"))
        | some (name, text) =>
          match Value.read? text with
          | none => .error (.failureFor ("Binding " ++ name) (Value.unreadable text))
          | some v => readArguments ((Text.trim name, v) :: bindings) policyPath outline args
    else if arg = "--policy" ∨ arg = "-p" then
      match args with
      | [] => .error (.failure ("Missing policy file after " ++ arg))
      | path :: args => readArguments bindings (some path) outline args
    else if arg = "--repr" then readArguments bindings policyPath true args
    else if arg = "--help" ∨ arg = "-h" then .error (.success (usage ++ "\n"))
    else if args = [] then .ok ⟨bindings, policyPath, outline, arg⟩
    else .error (.failure ("Only one line is supported\n" ++ usage))

/-- Reads the arguments of the command. -/
def Command.ofArguments (args : List String) : Except Outcome Command :=
  readArguments [] none false args

/-- The names that are bound while the line is analysed. -/
def Command.environment (c : Command) : Environment :=
  c.bindings.foldr (fun b env => env.bind b.1 b.2) Environment.prelude

/-- The message about a line that has no value: the cause of its trap, or its error. -/
def failureMessage (e : EvalError Value HostError) : String :=
  match e with
  | .trap t => t.cause.message
  | e => e.message HostError.message

/-- Whether the program ends with the evaluation that fails so. -/
def isAbort (e : EvalError Value HostError) : Bool :=
  match e with
  | .host (.shape .abort) => true
  | _ => false

/-- The scene of the tensor host. -/
def tensorScene (env : Environment) : Scene Value HostError :=
  ⟨tensorWorld env, Value.shape?, HostError.message⟩

/-- Analyses the line of a command under a policy, unless the program ends on the way. -/
def Command.analyze (c : Command) (policy : Policy) : Option Outcome :=
  match parse c.line with
  | .error e => some (.failure e.message)
  | .ok none => some (.success "")
  | .ok (some node) =>
    if c.outline then some (.success (node.outline ++ "\n"))
    else
      let scene := tensorScene c.environment
      match node.eval scene.world with
      | .ok v => some (.success (v.text ++ "\n"))
      | .error e =>
        if isAbort e then none
        else
          let message := failureMessage e
          match (policy.diagnose scene c.line message).diagnosis with
          | some d => some (.failure d.message)
          | none => some (.failure message)

/-- Runs a command, where `policyFile` is the content of its policy file, or the reason why that
cannot be read. -/
def Command.run (c : Command) (format : Policy.Format) (policyFile : Except String String) :
    Option Outcome :=
  match c.policyPath with
  | none => c.analyze .standard
  | some path =>
    match Policy.load format path policyFile with
    | .ok policy => c.analyze policy
    | .error e => some (.noPolicy e)

end ShapeFault.CommandLine
