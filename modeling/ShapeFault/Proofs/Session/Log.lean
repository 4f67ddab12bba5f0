import ShapeFault.Proofs.Session.Diagnose

/-!
# A session is a log

A session is given failures one by one, each with the values that its names had at that point. What
it answers to one of them does not depend on what it was given before, and it keeps the diagnoses
among its answers and nothing else (`Session.diagnoseAll_eq`).

Main statement: the diagnoses of a session are those among its answers, in their order; each answer
is the one of a session that is given this failure alone; and it is a diagnosis exactly if a
sentinel stands in the message, the line has a tree, and the tree traps (`session_is_faithful_log`).
-/

namespace ShapeFault

open CommandLine (tensorScene)

/-- A line that failed with a message, and the values of the names that are bound for it. -/
structure Failure (V : Type) where
  line : String
  lookup : String → Option V
  message : String

variable {V E : Type}

/-- The scene with these values of the names. -/
def Scene.withLookup (scene : Scene V E) (lookup : String → Option V) : Scene V E :=
  { scene with world := { scene.world with lookup := lookup } }

/-- **When a diagnosis is made**: a sentinel stands in the message, and the line has a tree that
traps. -/
theorem Policy.isSome_diagnosis_iff {p : Policy} {scene : Scene V E} {line message : String} :
    (p.diagnose scene line message).diagnosis.isSome ↔
      (∃ sentinel ∈ p.sentinels, sentinel.toList <:+: message.toList) ∧
        ∃ e t, parse line = .ok (some e) ∧ e.eval scene.world = .error (.trap t) := by
  rw [← isInteresting_iff, Option.isSome_iff_exists]
  constructor
  · rintro ⟨d, hd⟩
    obtain ⟨hinteresting, e, t, hparse, htrap, -⟩ := diagnosis_eq_some_iff.mp hd
    exact ⟨hinteresting, e, t, hparse, htrap⟩
  · rintro ⟨hinteresting, e, t, hparse, htrap⟩
    exact ⟨_, diagnosis_eq_some_iff.mpr ⟨hinteresting, e, t, hparse, htrap, rfl⟩⟩

namespace Session

/-- Looks at one failure. -/
def diagnoseFailure (s : Session) (scene : Scene V E) (f : Failure V) : Finding × Session :=
  s.diagnose (scene.withLookup f.lookup) f.line f.message

/-- Looks at failures in their order: what is found out about each of them, and the session behind
the last. -/
def diagnoseAll (scene : Scene V E) : Session → List (Failure V) → List Finding × Session
  | s, [] => ([], s)
  | s, f :: fs =>
    let (finding, s) := s.diagnoseFailure scene f
    let (findings, s) := diagnoseAll scene s fs
    (finding :: findings, s)

variable {scene : Scene V E}

/-- **One failure**: the finding depends on the policy only, and the session keeps its diagnosis. -/
theorem diagnoseFailure_eq (s : Session) (f : Failure V) :
    s.diagnoseFailure scene f =
      (((start s.policy).diagnoseFailure scene f).1,
        ⟨s.policy, s.diagnoses ++
          (((start s.policy).diagnoseFailure scene f).1.diagnosis).toList⟩) :=
  rfl

/-- **Any number of failures**, by induction on them: every finding is that of the failure on its
own, and the session keeps the diagnoses behind those that it had. -/
theorem diagnoseAll_eq (s : Session) (fs : List (Failure V)) :
    s.diagnoseAll scene fs =
      (fs.map fun f => ((start s.policy).diagnoseFailure scene f).1,
        ⟨s.policy, s.diagnoses ++
          fs.filterMap fun f => ((start s.policy).diagnoseFailure scene f).1.diagnosis⟩) := by
  induction fs generalizing s with
  | nil =>
    rw [List.map_nil, List.filterMap_nil, List.append_nil]
    rfl
  | cons f fs ih =>
    simp only [diagnoseAll, diagnoseFailure_eq s f, ih, List.map_cons, List.filterMap_cons]
    cases ((start s.policy).diagnoseFailure scene f).1.diagnosis <;> simp

end Session

/-- **A session is a faithful log.** Of any failures, `finish` gives the diagnoses among the answers
in the order of the failures. The answer to a failure is the same whatever failures stand before and
behind it. In any session, it is a diagnosis exactly if a sentinel of the policy stands in the
message, the line has a tree and the tree traps; otherwise the session stays as it is. A diagnosis
is kept behind those made before, and its message is that of the failure, a line feed and the
explanation of the trap, if there is one. -/
theorem session_is_faithful_log (p : Policy) (scene : Scene V E) :
    (∀ fs : List (Failure V), ∃ answers s,
      (Session.start p).diagnoseAll scene fs = (answers, s) ∧ answers.length = fs.length ∧
        s.finish = answers.filterMap Finding.diagnosis) ∧
    (∀ (before : List (Failure V)) (f : Failure V) (behind : List (Failure V)),
      ((Session.start p).diagnoseAll scene (before ++ f :: behind)).1[before.length]? =
        some ((Session.start p).diagnoseFailure scene f).1) ∧
    ∀ (s : Session) (f : Failure V), s.policy = p → ∃ answer s',
      s.diagnoseFailure scene f = (answer, s') ∧ s'.policy = p ∧
      answer = ((Session.start p).diagnoseFailure scene f).1 ∧
      (answer.diagnosis.isSome ↔
        (∃ sentinel ∈ p.sentinels, sentinel.toList <:+: f.message.toList) ∧
          ∃ e t, parse f.line = .ok (some e) ∧
            e.eval (scene.withLookup f.lookup).world = .error (.trap t)) ∧
      (answer.diagnosis = none → s' = s) ∧
      ∀ d, answer.diagnosis = some d → s'.diagnoses = s.diagnoses ++ [d] ∧
        d.message = f.message ++ "\n" ++ d.explanation.getD "" ∧
        ∃ e t, parse f.line = .ok (some e) ∧
          e.eval (scene.withLookup f.lookup).world = .error (.trap t) ∧
          d.explanation = t.explain scene.shapeOf := by
  refine ⟨fun fs => ?_, fun before f behind => ?_, ?_⟩
  · refine ⟨_, _, Session.diagnoseAll_eq (Session.start p) fs, List.length_map _, ?_⟩
    rw [List.filterMap_map]
    rfl
  · rw [Session.diagnoseAll_eq, List.map_append, List.getElem?_append_right (by simp)]
    simp [Session.start]
  · rintro s f rfl
    refine ⟨_, _, Session.diagnoseFailure_eq s f, rfl, rfl, Policy.isSome_diagnosis_iff, ?_, ?_⟩
    · intro hnone
      rw [hnone, Option.toList_none, List.append_nil]
    · intro d hd
      obtain ⟨-, e, t, hparse, htrap, rfl⟩ := Policy.diagnosis_eq_some_iff.mp hd
      refine ⟨?_, rfl, e, t, hparse, htrap, rfl⟩
      rw [hd, Option.toList_some]

/-- The product of two matrices that cannot be multiplied, failed with a message. -/
def failedProduct (message : String) : Failure Value :=
  ⟨"x @ w", unalignedMatrices, message⟩

theorem parse_x_at_w : parse "x @ w" = .ok (some (.binary .matmul (.name "x") (.name "w"))) := by
  rw [parse, tokenize_x_at_w]
  rfl

/-- A product is diagnosed for its message, and the same between failures with other messages. -/
theorem log_of_product_between_others :
    ∃ answer s, (Session.start .standard).diagnoseFailure (tensorScene .prelude)
        (failedProduct "matmul") = (answer, s) ∧ answer.diagnosis.isSome ∧
      ((Session.start .standard).diagnoseAll (tensorScene .prelude) [failedProduct "out of memory",
        failedProduct "matmul", failedProduct ""]).1[1]? = some answer := by
  obtain ⟨-, hsame, hanswer⟩ := session_is_faithful_log .standard (tensorScene .prelude)
  obtain ⟨answer, s, hdiagnose, -, heq, hsome, -⟩ :=
    hanswer (Session.start .standard) (failedProduct "matmul") rfl
  refine ⟨answer, s, hdiagnose, hsome.mpr ⟨⟨"matmul", by decide, List.infix_rfl⟩, ?_⟩, ?_⟩
  · exact ⟨_, _, parse_x_at_w, rfl⟩
  · rw [heq]
    exact hsame [failedProduct "out of memory"] _ [failedProduct ""]

end ShapeFault
