import ShapeFault.CommandLine
import ShapeFault.Proofs.Eval.Trap
import ShapeFault.Proofs.Lexing.Lexes
import ShapeFault.Proofs.Policy.Sentinels
import ShapeFault.Proofs.Tensor.Failure

/-!
# No failure about shapes is lost

A diagnosis is made exactly of a trap whose message interests the policy
(`Policy.diagnosis_eq_some_iff`). Of the tensor host, the operations that cannot trap, which are
literals, members and lists, never fail for shapes, so every failure of the shape class is a trap;
and the messages of the class interest the standard policy. Together this is
`shape_failures_are_diagnosed`.
-/

namespace ShapeFault

open CommandLine (tensorScene)

section

variable {V E : Type}

/-- **What a diagnosis is made of**: an interesting message, a line with a tree, and its trap. -/
theorem Policy.diagnosis_eq_some_iff {p : Policy} {scene : Scene V E} {line message : String}
    {d : Diagnosis} :
    (p.diagnose scene line message).diagnosis = some d ↔ p.isInteresting message ∧
      ∃ e t, parse line = .ok (some e) ∧ e.eval scene.world = .error (.trap t) ∧
        t.diagnosis scene line message = d := by
  unfold diagnose
  by_cases hp : p.isInteresting message
  · rw [if_pos hp, and_iff_right hp]
    constructor
    · intro h
      split at h
      case h_3 e he =>
        split at h
        case h_2 t ht => exact ⟨e, t, he, ht, Option.some.inj h⟩
        all_goals cases h
      all_goals cases h
    · rintro ⟨e, t, he, ht, rfl⟩
      simp only [he, ht]
  · rw [if_neg hp]
    simp [hp]

end

/-- Operations whose operands are not recorded do not fail for shapes. -/
theorem isShapeClass_of_operands?_eq_none {o : Operation Value} {c : HostError}
    (h : tensorHost o = .error c) (hnone : o.operands? = none) : c.isShapeClass = false := by
  cases o with
  | literal | list => cases h
  | member v id =>
    exact Bool.eq_false_iff.mpr (HostError.not_isShapeClass_of_isPlain (v.failsIn_member id c h))
  | unary | binary | call | index => cases hnone

/-- **No failure about shapes is lost.** Whatever fails for shapes in the tensor host is a trap.
In a session under the standard policy, in any state, a line that traps is diagnosed if its message
is that of the cause: the source of the trapped node is to blame, and the new message starts with
the old one. For every failure of the shape class has a message in which a sentinel of the standard
policy stands. -/
theorem shape_failures_are_diagnosed :
    (∀ (env : Environment) (e : Node) (c : HostError),
      e.eval (tensorWorld env) = .error (.host c) → c.isShapeClass = false) ∧
    (∀ (env : Environment) (line : String) (e : Node) (t : Trap Value HostError)
      (s : Session), s.policy = .standard → parse line = .ok (some e) →
        e.eval (tensorWorld env) = .error (.trap t) →
          ∃ d, (s.diagnose (tensorScene env) line t.cause.message).1.diagnosis = some d ∧
            d.offending = t.node.source ∧ t.cause.message.toList <+: d.message.toList) ∧
    ∀ c : HostError, c.isShapeClass →
      ∃ sentinel ∈ Policy.standard.sentinels, sentinel.toList <:+: c.message.toList := by
  refine ⟨fun env e c h => ?_, fun env line e t s hs hparse htrap => ?_, fun c hc => ?_⟩
  · obtain ⟨-, o, -, -, ho, hclass⟩ := Node.exists_operation_of_eval_eq_host h
    by_cases hnone : o.operands? = none
    · exact isShapeClass_of_operands?_eq_none ho hnone
    · exact hclass hnone
  · obtain ⟨-, o, -, -, hclass⟩ := Node.evaluates_of_eval_eq_trap htrap
    have hinteresting : s.policy.isInteresting t.cause.message :=
      hs ▸ HostError.isInteresting_message hclass
    refine ⟨t.diagnosis (tensorScene env) line t.cause.message,
      Policy.diagnosis_eq_some_iff.mpr ⟨hinteresting, e, t, hparse, htrap, rfl⟩, rfl, ?_⟩
    simp only [Trap.diagnosis, String.toList_append, List.append_assoc]
    exact List.prefix_append _ _
  · exact Policy.isInteresting_iff.mp (HostError.isInteresting_message hc)

/-- Two matrices that cannot be multiplied. -/
def unalignedMatrices : Environment :=
  (Environment.prelude.bind "x" (.tensor [2, 3])).bind "w" (.tensor [4, 5])

/-- The tokens from the operator of a product on. -/
theorem tokens_at_w (n : Nat) :
    (Cursor.mk n " @ w".toList).tokens = .ok [⟨.atSign, "@", ⟨n + 1, n + 2⟩⟩,
      ⟨.name, "w", ⟨n + 3, n + 4⟩⟩, Token.ending (n + 4)] := by
  have hproduct : (Cursor.mk n " @ w".toList).next =
      (.ok ⟨.atSign, "@", ⟨n + 1, n + 2⟩⟩, ⟨n + 2, " w".toList⟩) := rfl
  have hright : (Cursor.mk (n + 2) " w".toList).next =
      (.ok ⟨.name, "w", ⟨n + 3, n + 4⟩⟩, ⟨n + 4, []⟩) := rfl
  have hend : (Cursor.mk (n + 4) []).next = (.ok (Token.ending (n + 4)), ⟨n + 4, []⟩) := rfl
  rw [Cursor.tokens_of_next_ok hproduct, Cursor.tokens_of_next_ok hright,
    Cursor.tokens_of_next_ok hend]
  rfl

theorem tokenize_x_at_w :
    tokenize "x @ w" = .ok [⟨.name, "x", ⟨0, 1⟩⟩, ⟨.atSign, "@", ⟨2, 3⟩⟩, ⟨.name, "w", ⟨4, 5⟩⟩,
      Token.ending 5] := by
  have hleft : (Cursor.start "x @ w").next =
      (.ok ⟨.name, "x", ⟨0, 1⟩⟩, ⟨1, " @ w".toList⟩) := rfl
  rw [tokenize, Cursor.tokens_of_next_ok hleft, tokens_at_w]
  rfl

/-- The product of two matrices that cannot be multiplied is to blame, and an unknown member is no
failure about shapes. -/
theorem product_of_unaligned_is_diagnosed :
    (∃ c, (Node.member (.name "x") "size").eval (tensorWorld unalignedMatrices) =
        .error (.host c) ∧ c.isShapeClass = false) ∧
      ∃ message d, ((Session.start .standard).diagnose (tensorScene unalignedMatrices) "x @ w"
          message).1.diagnosis = some d ∧
        d.offending = "x @ w" ∧ message.toList <+: d.message.toList := by
  have hparse : parse "x @ w" = .ok (some (.binary .matmul (.name "x") (.name "w"))) := by
    rw [parse, tokenize_x_at_w]
    rfl
  have htrap : (Node.binary .matmul (.name "x") (.name "w")).eval
      (tensorWorld unalignedMatrices) = .error (.trap ⟨.binary .matmul (.name "x") (.name "w"),
        .binary (.tensor [2, 3]) (.tensor [4, 5]), .shape (.innerSizes 3 4)⟩) := rfl
  have hmember : (Node.member (.name "x") "size").eval (tensorWorld unalignedMatrices) =
      .error (.host (.noAttribute .tensor "size")) := rfl
  exact ⟨⟨_, hmember, shape_failures_are_diagnosed.1 _ _ _ hmember⟩, _,
    shape_failures_are_diagnosed.2.1 _ _ _ _ (Session.start .standard) rfl hparse htrap⟩

end ShapeFault
