import ShapeFault.Proofs.CommandLine.Arguments
import ShapeFault.Proofs.Session.Log
import ShapeFault.Proofs.Tensor.Abort

/-!
# What the command reports

The command evaluates its line, and if that fails it has the line diagnosed, which evaluates it once
more. The two evaluations are of one tree in one world, so the diagnosis, where there is one, is of
the failure that the command found, and its message starts with the text of this failure. Where
there is none, the text of the failure is reported as it is.

Nothing is reported where the evaluation ends the program, and this takes an operation on sizes that
are too large for their words.

Main statement: what the command leaves behind, for all arguments that ask for a value and every
format of policies (`command_reports_what_evaluation_finds`).
-/

namespace ShapeFault.CommandLine

/-- The policy that the command works with: that of the named file, or the standard one. -/
inductive InUse (format : Policy.Format) (policyFile : Except String String) :
    Option String → Policy → Prop where
  | standard : InUse format policyFile none .standard
  | loaded {path : String} {policy : Policy}
      (h : Policy.load format path policyFile = .ok policy) :
      InUse format policyFile (some path) policy

/-- The evaluation that ends the program. -/
theorem isAbort_iff {x : EvalError Value HostError} :
    isAbort x ↔ x = .host (.shape .abort) := by
  unfold isAbort
  split <;> simp_all

namespace Command

variable {c : Command} {policy : Policy} {e : Node}

/-- A command is run by analysing its line under the policy in use. -/
theorem run_eq_analyze {format : Policy.Format} {policyFile : Except String String}
    (h : InUse format policyFile c.policyPath policy) :
    c.run format policyFile = c.analyze policy := by
  unfold run
  generalize c.policyPath = path at h
  cases h with
  | standard => rfl
  | loaded h => simp only [h]

/-- The value of a line is written. -/
theorem analyze_of_ok (hline : parse c.line = .ok (some e)) (hc : c.outline = false) {v : Value}
    (h : e.eval (tensorWorld c.environment) = .ok v) :
    c.analyze policy = some ⟨0, v.text ++ "\n", ""⟩ := by
  have heval : e.eval (tensorScene c.environment).world = .ok v := h
  simp only [analyze, hline, hc, heval]
  rfl

/-- A failure is reported with its diagnosis, if there is one, and as it is otherwise. -/
theorem analyze_of_error (hline : parse c.line = .ok (some e)) (hc : c.outline = false)
    {x : EvalError Value HostError} (h : e.eval (tensorWorld c.environment) = .error x)
    (hx : x ≠ .host (.shape .abort)) :
    c.analyze policy = some (.failure
      (((policy.diagnose (tensorScene c.environment) c.line (failureMessage x)).diagnosis.map
        Diagnosis.message).getD (failureMessage x))) := by
  have heval : e.eval (tensorScene c.environment).world = .error x := h
  have habort : ¬isAbort x := fun h => hx (isAbort_iff.mp h)
  simp only [analyze, hline, hc, heval, if_neg habort]
  cases (policy.diagnose (tensorScene c.environment) c.line (failureMessage x)).diagnosis <;> rfl

/-- Where the evaluation ends the program, the command has no outcome. -/
theorem analyze_of_abort (hline : parse c.line = .ok (some e)) (hc : c.outline = false)
    (h : e.eval (tensorWorld c.environment) = .error (.host (.shape .abort))) :
    c.analyze policy = none := by
  have heval : e.eval (tensorScene c.environment).world = .error (.host (.shape .abort)) := h
  simp only [analyze, hline, hc, heval]
  rfl

end Command

/-- The text that is reported of a failure under a policy. -/
inductive Reports (policy : Policy) : EvalError Value HostError → String → Prop where
  | explained {t : Trap Value HostError}
      (h : ∃ sentinel ∈ policy.sentinels, sentinel.toList <:+: t.cause.message.toList) :
      Reports policy (.trap t) (t.cause.message ++ "\n" ++ (t.explain Value.shape?).getD "")
  | unexplained {t : Trap Value HostError}
      (h : ¬∃ sentinel ∈ policy.sentinels, sentinel.toList <:+: t.cause.message.toList) :
      Reports policy (.trap t) t.cause.message
  | unbound {id : String} : Reports policy (.unbound id) ("name '" ++ id ++ "' is not defined")
  | host {cause : HostError} : Reports policy (.host cause) cause.message

/-- Only traps are diagnosed. -/
theorem diagnosis_eq_none_of_error {policy : Policy} {env : Environment} {line message : String}
    {e : Node} {x : EvalError Value HostError} (hline : parse line = .ok (some e))
    (hx : e.eval (tensorWorld env) = .error x) (htrap : x.trap? = none) :
    (policy.diagnose (tensorScene env) line message).diagnosis = none := by
  rw [← Option.not_isSome_iff_eq_none, Policy.isSome_diagnosis_iff]
  rintro ⟨-, e', t, hline', htrap'⟩
  obtain rfl : e = e' := Option.some.inj (Except.ok.inj (hline.symm.trans hline'))
  obtain rfl : x = .trap t := Except.error.inj (hx.symm.trans htrap')
  cases htrap

/-- **The diagnosis of a failure that is found again.** Its message, or the text of the failure
where there is none, is the text to report. -/
theorem reports_diagnosis {policy : Policy} {env : Environment} {line : String} {e : Node}
    {x : EvalError Value HostError} (hline : parse line = .ok (some e))
    (hx : e.eval (tensorWorld env) = .error x) :
    Reports policy x (((policy.diagnose (tensorScene env) line (failureMessage x)).diagnosis.map
      Diagnosis.message).getD (failureMessage x)) := by
  cases x with
  | trap t =>
    have hmessage : failureMessage (.trap t) = t.cause.message := rfl
    rw [hmessage]
    by_cases hinteresting : ∃ sentinel ∈ policy.sentinels,
        sentinel.toList <:+: t.cause.message.toList
    · have hdiagnosis : (policy.diagnose (tensorScene env) line t.cause.message).diagnosis =
          some (t.diagnosis (tensorScene env) line t.cause.message) :=
        Policy.diagnosis_eq_some_iff.mpr
          ⟨Policy.isInteresting_iff.mpr hinteresting, e, t, hline, hx, rfl⟩
      rw [hdiagnosis]
      exact .explained hinteresting
    · have hdiagnosis : (policy.diagnose (tensorScene env) line t.cause.message).diagnosis = none :=
        Option.not_isSome_iff_eq_none.mp fun h =>
          hinteresting (Policy.isSome_diagnosis_iff.mp h).1
      rw [hdiagnosis]
      exact .unexplained hinteresting
  | unbound id =>
    rw [diagnosis_eq_none_of_error hline hx rfl]
    exact .unbound
  | host cause =>
    rw [diagnosis_eq_none_of_error hline hx rfl]
    exact .host

/-- **The command reports what evaluation finds.** Arguments that are read as a command for a value
are those that ask for the value of a line. If the line has a tree, the command evaluates it with
the names bound by the arguments, the last binding of a name being in effect. If it has a value, the
text of this is written and the command succeeds. Otherwise it fails, and the text of the failure is
reported: of a trap this is the text of its cause, with the explanation in a line of its own if a
sentinel of the policy stands in it, as it always does under the standard policy. The one exception
are lines that end the program, for which it has to evaluate an operation on sizes that are too
large for their words. -/
theorem command_reports_what_evaluation_finds :
    (∀ (args : List String) (c : Command), Command.ofArguments args = .ok c → c.outline = false →
      ∃ bindings, Asks args bindings c.policyPath c.line) ∧
    ∀ (args : List String) (bindings : List (String × Value)) (path : Option String)
      (line : String) (format : Policy.Format) (policyFile : Except String String)
      (policy : Policy) (e : Node), Asks args bindings path line →
      InUse format policyFile path policy → parse line = .ok (some e) →
        ∃ c, Command.ofArguments args = .ok c ∧ c.policyPath = path ∧
          (∀ v, e.eval (tensorWorld (environmentOf bindings)) = .ok v →
            c.run format policyFile = some ⟨0, v.text ++ "\n", ""⟩) ∧
          (∀ x, e.eval (tensorWorld (environmentOf bindings)) = .error x →
            x ≠ .host (.shape .abort) → ∃ text, Reports policy x text ∧
              c.run format policyFile = some ⟨1, "", "Error: " ++ text ++ "\n"⟩) ∧
          (∀ t, e.eval (tensorWorld (environmentOf bindings)) = .error (.trap t) →
            policy = .standard → c.run format policyFile = some ⟨1, "", "Error: " ++
              (t.cause.message ++ "\n" ++ (t.explain Value.shape?).getD "") ++ "\n"⟩) ∧
          (e.eval (tensorWorld (environmentOf bindings)) = .error (.host (.shape .abort)) →
            ∃ m o, e.Evaluates m ∧ Performs (tensorWorld (environmentOf bindings)) m o ∧
              o.Oversized) := by
  refine ⟨fun args c hread hc => ?_, fun args bindings path line format policyFile policy e hasks
    hpolicy hline => ?_⟩
  · obtain ⟨bindings, hasks, -⟩ := ofArguments_eq_ok_iff.mp ⟨hread, hc⟩
    exact ⟨bindings, hasks⟩
  · have hread : Command.ofArguments args = .ok ⟨bindings.reverse, path, false, line⟩ :=
      (ofArguments_eq_ok_iff.mpr ⟨bindings, hasks, rfl⟩).1
    have hrun := @Command.run_eq_analyze ⟨bindings.reverse, path, false, line⟩ _ _ _ hpolicy
    rw [← Command.environment_eq bindings path false line]
    have hfailure : ∀ x, e.eval (tensorWorld (Command.environment
        ⟨bindings.reverse, path, false, line⟩)) = .error x → x ≠ .host (.shape .abort) →
          ∃ text, Reports policy x text ∧ Command.run ⟨bindings.reverse, path, false, line⟩
            format policyFile = some ⟨1, "", "Error: " ++ text ++ "\n"⟩ := by
      intro x hx habort
      exact ⟨_, reports_diagnosis hline hx,
        hrun.trans (Command.analyze_of_error hline rfl hx habort)⟩
    refine ⟨_, hread, rfl, fun v hv => hrun.trans (Command.analyze_of_ok hline rfl hv), hfailure,
      fun t ht hstandard => ?_, Node.exists_oversized_of_abort⟩
    obtain ⟨text, hreports, heq⟩ := hfailure _ ht nofun
    obtain ⟨-, o, -, -, hclass⟩ := Node.evaluates_of_eval_eq_trap ht
    have hinteresting := Policy.isInteresting_iff.mp (HostError.isInteresting_message hclass)
    cases hreports with
    | explained => exact heq
    | unexplained hnone => exact absurd (hstandard ▸ hinteresting) hnone

/-- The arguments for a product whose right operand is bound twice, with a policy of its own. The
shape that is bound last does not fit. -/
def productArguments : List String :=
  ["-p", "p.yaml", "--bind", "x=(2, 3)", "-b", "w=1", "-b", " w =(4, 5)", "x @ w"]

/-- The content of the file that `productArguments` name. -/
def corePolicy : String :=
  "sentinels: [core]"

/-- A format in which there is just this policy. -/
def coreFormat : Policy.Format := fun text =>
  if text = corePolicy then .ok ⟨["core"]⟩ else .error "unknown policy"

theorem asks_productArguments : Asks productArguments
    [("x", .tensor [2, 3]), ("w", .int 1), ("w", .tensor [4, 5])] (some "p.yaml") "x @ w" := by
  have hline : Asks ["x @ w"] [] none "x @ w" := .line (by decide)
  have hright : Asks ["-b", " w =(4, 5)", "x @ w"] [("w", .tensor [4, 5])] none "x @ w" :=
    @Asks.bind _ " w " "(4, 5)" _ _ _ _ _ (Or.inr rfl) (by decide) rfl hline
  exact .policy (Or.inr rfl) (@Asks.bind _ "x" "(2, 3)" _ _ _ _ _ (Or.inl rfl) (by decide) rfl
    (@Asks.bind _ "w" "1" _ _ _ _ _ (Or.inr rfl) (by decide) rfl hright))

/-- The product fails, and its explanation follows the failure, in which the sentinel stands. -/
theorem command_explains_product : ∃ c, Command.ofArguments productArguments = .ok c ∧
    c.run coreFormat (.ok corePolicy) = some ⟨1, "", "Error: matmul: Input operand 1 has a " ++
      "mismatch in its core dimension 0 (size 4 is different from 3)\nCause: x @ w on left " ++
      "operand x w/shape (2, 3) and right operand w w/shape (4, 5)\n"⟩ := by
  have htrap : (Node.binary .matmul (.name "x") (.name "w")).eval (tensorWorld (environmentOf
      [("x", .tensor [2, 3]), ("w", .int 1), ("w", .tensor [4, 5])])) =
        .error (.trap ⟨.binary .matmul (.name "x") (.name "w"),
          .binary (.tensor [2, 3]) (.tensor [4, 5]), .shape (.innerSizes 3 4)⟩) := rfl
  obtain ⟨c, hread, -, -, hfailure, -⟩ := command_reports_what_evaluation_finds.2 _ _ _ _
    coreFormat (.ok corePolicy) _ _ asks_productArguments (.loaded rfl) parse_x_at_w
  obtain ⟨text, hreports, hrun⟩ := hfailure _ htrap nofun
  cases hreports with
  | explained =>
    refine ⟨c, hread, hrun.trans ?_⟩
    decide +kernel
  | unexplained hnone => exact absurd ⟨"core", by decide +kernel⟩ hnone

/-- The arguments for a slice of a tensor whose size no word with a sign holds. -/
def oversizedArguments : List String :=
  ["--bind", "x=(9223372036854775808,)", "x[0:]"]

/-- The tree of the line that is asked for. -/
def oversizedSlice : Node :=
  .index (.name "x") [.slice (some (.literal (.int "0" 0))) none none false]

theorem parse_oversizedSlice : parse "x[0:]" = .ok (some oversizedSlice) := by
  have hname : (Cursor.start "x[0:]").next =
      (.ok ⟨.name, "x", ⟨0, 1⟩⟩, ⟨1, "[0:]".toList⟩) := rfl
  have hopen : (Cursor.mk 1 "[0:]".toList).next =
      (.ok ⟨.leftBracket, "[", ⟨1, 2⟩⟩, ⟨2, "0:]".toList⟩) := rfl
  have hzero : (Cursor.mk 2 "0:]".toList).next =
      (.ok ⟨.number, "0", ⟨2, 3⟩⟩, ⟨3, ":]".toList⟩) := rfl
  have hcolon : (Cursor.mk 3 ":]".toList).next =
      (.ok ⟨.colon, ":", ⟨3, 4⟩⟩, ⟨4, "]".toList⟩) := rfl
  have hclose : (Cursor.mk 4 "]".toList).next =
      (.ok ⟨.rightBracket, "]", ⟨4, 5⟩⟩, ⟨5, []⟩) := rfl
  have hend : (Cursor.mk 5 []).next = (.ok (Token.ending 5), ⟨5, []⟩) := rfl
  rw [parse, tokenize, Cursor.tokens_of_next_ok hname, Cursor.tokens_of_next_ok hopen,
    Cursor.tokens_of_next_ok hzero, Cursor.tokens_of_next_ok hcolon,
    Cursor.tokens_of_next_ok hclose, Cursor.tokens_of_next_ok hend]
  rfl

theorem asks_oversizedArguments :
    Asks oversizedArguments [("x", .tensor [Word.half])] none "x[0:]" := by
  have hsizes : Value.sizes? "9223372036854775808,".toList = some [Word.half] := by
    decide +kernel
  have hvalue : Value.read? "(9223372036854775808,)" = some (.tensor [Word.half]) := by
    change (Value.sizes? "9223372036854775808,".toList).map Value.tensor = _
    rw [hsizes]
    rfl
  exact @Asks.bind _ "x" _ _ _ _ _ _ (Or.inl rfl) (by decide) hvalue (.line (by decide))

/-- The evaluation of the slice ends the program. -/
theorem eval_oversizedSlice {env : Environment} (h : env "x" = some (.tensor [Word.half])) :
    oversizedSlice.eval (tensorWorld env) = .error (.host (.shape .abort)) := by
  have hindex : Shape.index [Word.half] [.slice ⟨some 0, none, none⟩] = .error .abort := by
    decide +kernel
  have hname : (Node.name "x").eval (tensorWorld env) = .ok (.tensor [Word.half]) := by
    have hlookup : (tensorWorld env).lookup "x" = some (.tensor [Word.half]) := h
    rw [Node.eval, Node.run, World.valueOf, hlookup]
    rfl
  have ho : Performs (tensorWorld env) oversizedSlice
      (.index (.tensor [Word.half]) [.slice (some (.int 0)) none none]) :=
    .operates (.index hname (.cons (.slice (.some rfl) .none .none) .nil))
  have hhost : (tensorWorld env).host
      (.index (.tensor [Word.half]) [.slice (some (.int 0)) none none]) =
        .error (.shape .abort) := by
    change Value.ofShape (Shape.index [Word.half] [.slice ⟨some 0, none, none⟩]) = _
    rw [hindex]
    rfl
  rw [ho.eval_eq]
  exact World.outcome_perform_eq_host_iff.mpr ⟨hhost, fun _ => rfl⟩

/-- The slice ends the program: there is neither a value to write nor a failure to report. -/
theorem oversized_slice_has_no_outcome : ∃ c e, Command.ofArguments oversizedArguments = .ok c ∧
    c.outline = false ∧ c.policyPath = none ∧ parse c.line = .ok (some e) ∧
      (∀ v, e.eval (tensorWorld c.environment) ≠ .ok v) ∧
      ∀ format policyFile text,
        c.run format policyFile ≠ some ⟨1, "", "Error: " ++ text ++ "\n"⟩ := by
  have hread : Command.ofArguments oversizedArguments =
      .ok ⟨[("x", .tensor [Word.half])], none, false, "x[0:]"⟩ :=
    (ofArguments_eq_ok_iff.mpr ⟨_, asks_oversizedArguments, rfl⟩).1
  have heval : oversizedSlice.eval (tensorWorld (Command.environment
      ⟨[("x", .tensor [Word.half])], none, false, "x[0:]"⟩)) = .error (.host (.shape .abort)) :=
    eval_oversizedSlice rfl
  refine ⟨_, _, hread, rfl, rfl, parse_oversizedSlice, fun v hv => ?_,
    fun format policyFile text hrun => ?_⟩
  · cases heval.symm.trans hv
  · rw [Command.run_eq_analyze .standard,
      Command.analyze_of_abort parse_oversizedSlice rfl heval] at hrun
    cases hrun

end ShapeFault.CommandLine
