import ShapeFault.Policy.Basic

/-!
# Policy files

A policy is loaded from a file. What the text of a policy looks like is up to the reader of its
format, which gives the policy that a text stands for, or says why it stands for none.
-/

namespace ShapeFault.Policy

/-- A format of policies: what a text stands for, or why it stands for no policy. -/
abbrev Format :=
  String → Except String Policy

/-- Why a policy cannot be loaded from a file. -/
inductive LoadError where
  | unreadable (path reason : String)
  | malformed (reason : String)
  deriving DecidableEq, Repr

namespace LoadError

def message : LoadError → String
  | unreadable path _ => "Reading policy file " ++ path
  | malformed reason => "Parsing policy: " ++ reason

/-- What stands behind the error. -/
def cause : LoadError → String
  | unreadable _ reason | malformed reason => reason

end LoadError

/-- The policy in the file at `path`, where `content` is what the file holds, or the reason why it
cannot be read. -/
def load (format : Format) (path : String) (content : Except String String) :
    Except LoadError Policy :=
  match content with
  | .error reason => .error (.unreadable path reason)
  | .ok text => (format text).mapError .malformed

end ShapeFault.Policy
