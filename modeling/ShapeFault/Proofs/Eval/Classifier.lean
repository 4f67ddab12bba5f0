import ShapeFault.Proofs.Eval.Agreement
import ShapeFault.Proofs.Policy.Sentinels
import ShapeFault.Tensor.Host

/-!
# What the classifier decides

The classifier of a world decides what the failure of an operation is called, and nothing else:
under any two classifiers an evaluation goes the same way and fails at the same operation, if it
fails at all. So one classifier that takes every failure for one about shapes tells what all others
do (`Node.eval_classify`), and the outcomes under all classifiers at once are of four kinds
(`classifier_only_relabels`).
-/

namespace ShapeFault

variable {V E : Type}

/-- The same world with another classifier. -/
def World.classify (w : World V E) (k : E → Bool) : World V E :=
  { w with isShapeFailure := k }

/-- The error as another classifier calls it: a trap whose cause it declines is an error of the
host. -/
def EvalError.relabel (k : E → Bool) : EvalError V E → EvalError V E
  | .unbound id => .unbound id
  | .trap t => if k t.cause then .trap t else .host t.cause
  | .host c => .host c

theorem EvalError.relabel_eq_trap_iff {k : E → Bool} {x : EvalError V E} {t : Trap V E} :
    x.relabel k = .trap t ↔ x = .trap t ∧ k t.cause := by
  cases x with
  | unbound | host => simp [relabel]
  | trap t' =>
    by_cases hk : k t'.cause
    · simp only [relabel, if_pos hk, EvalError.trap.injEq]
      constructor
      · rintro rfl
        exact ⟨rfl, hk⟩
      · exact fun h => h.1
    · simp only [relabel, if_neg hk, reduceCtorEq, EvalError.trap.injEq, false_iff]
      rintro ⟨rfl, ht⟩
      exact hk ht

variable {w : World V E}

theorem World.errorOf_classify (w : World V E) (k : E → Bool) (n : Node) (o : Operation V) (c : E) :
    (w.classify k).errorOf n o c = ((w.classify fun _ => true).errorOf n o c).relabel k := by
  unfold errorOf
  cases o.operands? <;> rfl

/-- An evaluation under a classifier is the one in which every failure that can be a trap is one,
with its error called anew. -/
theorem Node.eval_classify (k : E → Bool) (e : Node) :
    e.eval (w.classify k) =
      (e.eval (w.classify fun _ => true)).mapError (EvalError.relabel k) := by
  have hhost : (w.classify k).host = (w.classify fun _ => true).host := rfl
  refine Follows.eq_mapError (Node.follows hhost (fun id _ => ?_) fun n o c _ => ?_)
  · exact Node.follows_name rfl rfl
  · exact w.errorOf_classify k n o c

/-- The traps under a classifier are those whose cause it accepts. -/
theorem Node.eval_classify_eq_trap_iff {k : E → Bool} {e : Node} {t : Trap V E} :
    e.eval (w.classify k) = .error (.trap t) ↔
      e.eval (w.classify fun _ => true) = .error (.trap t) ∧ k t.cause := by
  rw [eval_classify]
  cases e.eval (w.classify fun _ => true) with
  | ok v => simp [Except.mapError]
  | error x => simp only [Except.mapError, Except.error.injEq, EvalError.relabel_eq_trap_iff]

/-- A value is the value under every classifier. -/
theorem Node.eval_classify_eq_ok {e : Node} {v : V}
    (h : e.eval (w.classify fun _ => true) = .ok v) (k : E → Bool) :
    e.eval (w.classify k) = .ok v := by
  rw [eval_classify, h, Except.mapError]

/-- An error is the same error under every classifier, called as the classifier calls it. -/
theorem Node.eval_classify_eq_error {e : Node} {x : EvalError V E}
    (h : e.eval (w.classify fun _ => true) = .error x) (k : E → Bool) :
    e.eval (w.classify k) = .error (x.relabel k) := by
  rw [eval_classify, h, Except.mapError]

/-- An error that is no trap although no failure is declined comes from a literal, a member or a
list, and is the same error under every classifier. -/
theorem Node.exists_untrapped_of_eval_eq_host {e : Node} {c : E}
    (h : e.eval (w.classify fun _ => true) = .error (.host c)) :
    ∃ m, e.Evaluates m ∧ m.isUntrapped ∧ ∀ k,
      (∀ p ∈ m.children, ∃ v, p.eval (w.classify k) = .ok v) ∧
      m.eval (w.classify k) = .error (.host c) ∧ e.eval (w.classify k) = .error (.host c) := by
  obtain ⟨m, o, hm, ho, hfail, hdeclined⟩ := exists_operation_of_eval_eq_host h
  -- were the operands recorded, the failure would be a trap
  have hnone : o.operands? = none := by
    by_contra hsome
    cases hdeclined hsome
  have heval : m.eval (w.classify fun _ => true) = .error (.host c) := by
    rw [ho.eval_eq]
    exact World.outcome_perform_eq_host_iff.mpr ⟨hfail, hdeclined⟩
  refine ⟨m, hm, ho.isUntrapped_of_operands? hnone, fun k => ⟨fun p hp => ?_, ?_, ?_⟩⟩
  · obtain ⟨v, hv⟩ := ho.exists_eval p hp
    exact ⟨v, eval_classify_eq_ok hv k⟩
  · exact eval_classify_eq_error heval k
  · exact eval_classify_eq_error h k

/-- **The classifier only relabels failures.** Whatever the classifier, a tree has the same value;
or it fails for the same unbound name; or the operation of the same literal, member or list fails,
which gives the cause as an error of the host; or there is one trap for all classifiers that accept
its cause, where the others give the cause as an error of the host. The traps of the tensor host
are the same under the standard policy, which goes by messages. -/
theorem classifier_only_relabels :
    (∀ {V E : Type} (w : World V E) (e : Node),
      (∃ v, ∀ k, e.eval (w.classify k) = .ok v) ∨
      (∃ id, ∀ k, e.eval (w.classify k) = .error (.unbound id)) ∨
      (∃ m c, e.Evaluates m ∧ m.isUntrapped ∧ ∀ k,
        (∀ p ∈ m.children, ∃ v, p.eval (w.classify k) = .ok v) ∧
        m.eval (w.classify k) = .error (.host c) ∧ e.eval (w.classify k) = .error (.host c)) ∨
      ∃ t : Trap V E, ∀ k, e.eval (w.classify k) =
        .error (if k t.cause then .trap t else .host t.cause)) ∧
    ∀ (env : Environment) (e : Node) (t : Trap Value HostError),
      e.eval (tensorWorld env) = .error (.trap t) →
        e.eval ((tensorWorld env).classify (Policy.standard.isShapeFailure HostError.message)) =
          .error (.trap t) := by
  refine ⟨fun {V E} w e => ?_, fun env e t h => ?_⟩
  · cases h : e.eval (w.classify fun _ => true) with
    | ok v => exact Or.inl ⟨v, Node.eval_classify_eq_ok h⟩
    | error x =>
      cases x with
      | unbound id => exact Or.inr (Or.inl ⟨id, Node.eval_classify_eq_error h⟩)
      | host c =>
        obtain ⟨m, hm⟩ := Node.exists_untrapped_of_eval_eq_host h
        exact Or.inr (Or.inr (Or.inl ⟨m, c, hm⟩))
      | trap t => exact Or.inr (Or.inr (Or.inr ⟨t, Node.eval_classify_eq_error h⟩))
  · have hworld : tensorWorld env = (tensorWorld env).classify HostError.isShapeClass := rfl
    rw [hworld] at h
    obtain ⟨htrap, hclass⟩ := Node.eval_classify_eq_trap_iff.mp h
    exact Node.eval_classify_eq_trap_iff.mpr ⟨htrap, HostError.isInteresting_message hclass⟩

/-- The trap of a product of a matrix with itself, under both classifiers. -/
theorem classifier_keeps_trap_of_square :
    (Node.binary .matmul (.name "x") (.name "x")).eval
        (tensorWorld (Environment.prelude.bind "x" (.tensor [2, 3]))) =
      .error (.trap ⟨.binary .matmul (.name "x") (.name "x"),
        .binary (.tensor [2, 3]) (.tensor [2, 3]), .shape (.innerSizes 3 2)⟩) ∧
    (Node.binary .matmul (.name "x") (.name "x")).eval
        ((tensorWorld (Environment.prelude.bind "x" (.tensor [2, 3]))).classify
          (Policy.standard.isShapeFailure HostError.message)) =
      .error (.trap ⟨.binary .matmul (.name "x") (.name "x"),
        .binary (.tensor [2, 3]) (.tensor [2, 3]), .shape (.innerSizes 3 2)⟩) :=
  have h : (Node.binary .matmul (.name "x") (.name "x")).eval
      (tensorWorld (Environment.prelude.bind "x" (.tensor [2, 3]))) =
        .error (.trap ⟨.binary .matmul (.name "x") (.name "x"),
          .binary (.tensor [2, 3]) (.tensor [2, 3]), .shape (.innerSizes 3 2)⟩) := rfl
  ⟨h, classifier_only_relabels.2 _ _ _ h⟩

end ShapeFault
