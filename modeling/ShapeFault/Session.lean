import ShapeFault.Explain
import ShapeFault.Expr.Parser
import ShapeFault.Policy.Basic
import ShapeFault.Text.Blank

/-!
# Sessions

A session is given the lines that failed, one by one with their messages, and finds out which
expression is to blame. A line is looked at if the policy takes an interest in its message; if it
evaluates to a trap, the answer is a `Diagnosis`. A session keeps its diagnoses and nothing else, so
`diagnose` is a function of the line, its message and the world it runs in.

What is looked at and left is reported in `Entry`s, which are for people to read.
-/

namespace ShapeFault

/-- What is known about a line that failed. -/
structure Diagnosis where
  line : String
  /-- the source of the smallest expression that failed -/
  offending : String
  explanation : Option String
  /-- the message of the failure, and the explanation in a line of its own -/
  message : String
  deriving DecidableEq, Repr

/-- How much an entry matters. -/
inductive Level where
  | debug
  | info
  | warning
  deriving DecidableEq, Repr

/-- Something to report. -/
inductive Entry where
  | started (sentinels : Nat)
  | ignored (message : String)
  | nothingToAnalyze (line : String)
  | unreadable (line : String) (error : ParseError)
  | trapped (node cause : String)
  | succeeded (node : String)
  | failed (node error : String)
  | diagnosed (line offending : String)
  | finished (diagnoses : Nat)
  deriving DecidableEq, Repr

namespace Entry

def level : Entry → Level
  | unreadable _ _ => .warning
  | diagnosed _ _ => .info
  | _ => .debug

def text : Entry → String
  | started n => "starting session with " ++ n.repr ++ " sentinels"
  | ignored message => "ignoring failure without shape sentinels: " ++ message
  | nothingToAnalyze line => "nothing to analyze in `" ++ line ++ "`"
  | unreadable line error => "cannot analyze `" ++ line ++ "`: " ++ error.message
  | trapped node cause => "trapped shape failure at `" ++ node ++ "`: " ++ cause
  | succeeded node => "`" ++ node ++ "` evaluated without failure"
  | failed node error => "`" ++ node ++ "` failed without a shape trap: " ++ error
  | diagnosed line offending => "diagnosed `" ++ line ++ "` at `" ++ offending ++ "`"
  | finished n => "finishing session with " ++ n.repr ++ " diagnoses"

end Entry

/-- A world together with what is needed to describe its values and failures. -/
structure Scene (V E : Type) where
  world : World V E
  shapeOf : V → Option Shape
  errorText : E → String

/-- The answer to one line, and what there is to report about it. -/
structure Finding where
  diagnosis : Option Diagnosis
  entries : List Entry
  deriving DecidableEq, Repr

namespace Trap

variable {V E : Type}

/-- The diagnosis of a line that failed with `message`. -/
def diagnosis (t : Trap V E) (scene : Scene V E) (line message : String) : Diagnosis :=
  let explanation := t.explain scene.shapeOf
  ⟨Text.trim line, t.node.source, explanation, message ++ "\n" ++ explanation.getD ""⟩

end Trap

namespace Policy

variable {V E : Type}

/-- Evaluates a line that failed with `message` once more, and looks for the expression to blame. -/
def diagnose (p : Policy) (scene : Scene V E) (line message : String) : Finding :=
  if p.isInteresting message then
    match parse line with
    | .error e => ⟨none, [.unreadable (Text.trim line) e]⟩
    | .ok none => ⟨none, [.nothingToAnalyze (Text.trim line)]⟩
    | .ok (some node) =>
      match node.eval scene.world with
      | .ok _ => ⟨none, [.succeeded node.source]⟩
      | .error (.trap t) =>
        let d := t.diagnosis scene line message
        ⟨some d, [.trapped d.offending (scene.errorText t.cause), .diagnosed d.line d.offending]⟩
      | .error e => ⟨none, [.failed node.source (e.message scene.errorText)]⟩
  else ⟨none, [.ignored message]⟩

end Policy

/-- A policy, and the diagnoses made under it in their order. -/
structure Session where
  policy : Policy
  diagnoses : List Diagnosis
  deriving DecidableEq, Repr

namespace Session

variable {V E : Type}

/-- A session without diagnoses. -/
def start (p : Policy) : Session :=
  ⟨p, []⟩

/-- Looks at one line and keeps its diagnosis. -/
def diagnose (s : Session) (scene : Scene V E) (line message : String) : Finding × Session :=
  let finding := s.policy.diagnose scene line message
  (finding, ⟨s.policy, s.diagnoses ++ finding.diagnosis.toList⟩)

/-- The diagnoses of the session, in the order in which they were made. -/
def finish (s : Session) : List Diagnosis :=
  s.diagnoses

end Session

end ShapeFault
