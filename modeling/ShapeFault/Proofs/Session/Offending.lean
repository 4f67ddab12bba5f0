import ShapeFault.Proofs.Session.Diagnose
import ShapeFault.Proofs.Source.Subphrase
import ShapeFault.Proofs.Source.Trimmed

/-!
# The expression to blame

The offending text of a diagnosis is taken from the line: its tokens are a run of the tokens of the
line. It also stands for itself: unless it starts with the keyword of a statement it reads as the
node that trapped, and to diagnose it gives the same diagnosis again (`offending_is_fixpoint`).

The one obstacle would be a member of a number within the node, whose source can read as other
tokens. But numbers have no members in the tensor host, and all that is within a trapped node has a
value.
-/

namespace ShapeFault

open CommandLine (tensorScene)

theorem Node.children_eq_parts {e : Node} (h : ∀ op a v, e ≠ .assign op a v) :
    e.children = e.parts := by
  cases e <;> first | rfl | exact absurd rfl (h _ _ _)

/-- All of an expression is evaluated. -/
theorem Derives.evaluates {xs : List Token} {l : Tier} {e m : Node}
    (h : Derives xs (.expression l e)) (hm : e.Contains m) : e.Evaluates m := by
  induction hm with
  | refl => exact .refl
  | @tail b c hb hc ih =>
    obtain ⟨ys, k, -, hb'⟩ := h.runsIn e (List.mem_singleton_self e) b hb
    refine ih.tail ?_
    rwa [Node.children_eq_parts (hb'.node_ne_assign rfl)]

namespace Trap

variable {V E : Type} {w : World V E} {t : Trap V E}

theorem Arises.node_ne_assign (h : t.Arises w) (op : AssignOp) (a v : Node) :
    t.node ≠ .assign op a v := by
  obtain ⟨o, ho, -⟩ := h
  intro heq
  rw [heq] at ho
  cases ho

theorem Arises.node_ne_member (h : t.Arises w) (a : Node) (id : String) :
    t.node ≠ .member a id := by
  obtain ⟨o, ho, -⟩ := h
  intro heq
  rw [heq] at ho
  cases ho

/-- What a trapped node evaluates besides itself has a value. -/
theorem Arises.exists_eval (h : t.Arises w) {m : Node} (hm : t.node.Evaluates m)
    (hne : t.node ≠ m) : ∃ v, m.eval w = .ok v := by
  obtain ⟨o, ho, -⟩ := h
  rcases Relation.ReflTransGen.cases_head hm with heq | ⟨c, hc, hcm⟩
  · exact absurd heq hne
  · obtain ⟨v, hv⟩ := ho.exists_eval c hc
    exact Node.Evaluates.exists_eval hcm hv

end Trap

/-- Numbers have no members in the tensor host. -/
theorem Node.Fuses.eval_ne_ok {m : Node} (h : m.Fuses) (env : Environment) (v : Value) :
    m.eval (tensorWorld env) ≠ .ok v := by
  cases h <;> exact fun hv => nomatch hv

/-- No member within a trapped node fuses. -/
theorem Derives.clean_of_arises {xs : List Token} {l : Tier} {env : Environment}
    {t : Trap Value HostError} (h : Derives xs (.expression l t.node))
    (ht : t.Arises (tensorWorld env)) : t.node.Clean := by
  intro m hm hfuses
  have hne : t.node ≠ m := by
    rintro rfl
    generalize hnode : t.node = n at hfuses
    cases hfuses <;> exact ht.node_ne_member _ _ hnode
  obtain ⟨v, hv⟩ := ht.exists_eval (h.evaluates hm) hne
  exact hfuses.eval_ne_ok env v hv

/-- **The trapped node in the line**: the tokens of its source are a run of the tokens of the
line. -/
theorem exists_run_of_trap {env : Environment} {line : String} {e : Node}
    {t : Trap Value HostError} (hparse : parse line = .ok (some e))
    (htrap : e.eval (tensorWorld env) = .error (.trap t)) :
    ∃ ts run stop, tokenize line = .ok ts ∧
      tokenize t.node.source = .ok (run ++ [Token.ending stop]) ∧
      (∀ u ∈ run, u.kind ≠ .endMarker) ∧ run.map Token.lexeme <:+: ts.map Token.lexeme ∧
      DerivesLine run t.node ∧ Text.trim t.node.source = t.node.source := by
  obtain ⟨hevaluates, harises⟩ := Node.evaluates_of_eval_eq_trap htrap
  obtain ⟨body, stop, htokens, -, -, hline⟩ := parse_eq_ok_some_iff.mp hparse
  obtain ⟨body', stop', heq, -, hlex⟩ := lexes_of_tokenize htokens
  obtain ⟨rfl, -⟩ := List.append_inj' heq rfl
  obtain ⟨ys, l, hrun, hder⟩ := hline.exists_run hevaluates.contains harises.node_ne_assign
  have hgenuine : ∀ u ∈ ys, u.Genuine := fun u hu =>
    hlex.exists_stands _ (List.mem_map_of_mem (hrun.subset hu))
  have hsource := (hder.readsAs hgenuine).expression_end_iff.mpr (hder.clean_of_arises harises)
  obtain ⟨run, stop'', htokens', hend, hsame⟩ := tokenize_of_lexes hsource
  refine ⟨_, run, stop'', htokens, htokens', hend, ?_, ?_, hder.trim_source hgenuine⟩
  · rw [hsame, List.map_append]
    exact (hrun.map _).trans (List.prefix_append _ _).isInfix
  · exact (DerivesLine.expression (hder.loosen l.boolean_rank_le)).of_lexemes hsame.symm

/-- **The offending text is in the line and stands for itself.** Of a line that is diagnosed, the
tree traps at a node whose source is the offending text, and the tokens of that text, but for the
mark of the end, are a run of the tokens of the line. Unless the first of them is the keyword of a
statement, the text reads as the trapped node, and to diagnose it under the same policy, with the
same message, blames the whole of it with the same explanation. -/
theorem offending_is_fixpoint {s : Session} {env : Environment} {line message : String}
    {d : Diagnosis} (h : (s.diagnose (tensorScene env) line message).1.diagnosis = some d) :
    ∃ e t ts run stop, parse line = .ok (some e) ∧
      e.eval (tensorWorld env) = .error (.trap t) ∧ d.offending = t.node.source ∧
      tokenize line = .ok ts ∧ tokenize d.offending = .ok (run ++ [Token.ending stop]) ∧
      (∀ u ∈ run, u.kind ≠ .endMarker) ∧ run.map Token.lexeme <:+: ts.map Token.lexeme ∧
      ((∀ u ∈ run.head?, ¬ (u.kind = .name ∧ u.text ∈ TokenLine.statementWords)) →
        parse d.offending = .ok (some t.node) ∧
        ∀ s' : Session, s'.policy = s.policy →
          ∃ d', (s'.diagnose (tensorScene env) d.offending message).1.diagnosis = some d' ∧
            d'.line = d.offending ∧ d'.offending = d.offending ∧ d'.explanation = d.explanation ∧
            d'.message = d.message) := by
  obtain ⟨hinteresting, e, t, hparse, htrap, rfl⟩ := Policy.diagnosis_eq_some_iff.mp h
  obtain ⟨ts, run, stop, htokens, htokens', hend, hrun, hline, htrim⟩ :=
    exists_run_of_trap hparse htrap
  refine ⟨e, t, ts, run, stop, hparse, htrap, rfl, htokens, htokens', hend, hrun, fun hfirst => ?_⟩
  have hidle : (⟨run, stop⟩ : TokenLine).isIdle = false := by
    cases run with
    | nil => cases read_start_eq_ok_iff.mpr hline
    | cons u us => simpa [TokenLine.isIdle] using hfirst u rfl
  have hparse' : parse t.node.source = .ok (some t.node) :=
    parse_eq_ok_some_iff.mpr ⟨run, stop, htokens', hend, hidle, hline⟩
  have htrap' := (Node.evaluates_of_eval_eq_trap htrap).2.eval_node
  refine ⟨hparse', fun s' hs' => ?_⟩
  refine ⟨t.diagnosis (tensorScene env) t.node.source message,
    Policy.diagnosis_eq_some_iff.mpr ⟨hs' ▸ hinteresting, t.node, t, hparse', htrap', rfl⟩,
    htrim, rfl, rfl, rfl⟩

/-- The value of an assignment is to blame, and is to blame again on a line of its own. -/
theorem product_in_assignment_is_to_blame :
    ∃ d, ((Session.start .standard).diagnose (tensorScene unalignedMatrices) "y = x @ w"
        "matmul").1.diagnosis = some d ∧ d.offending = "x @ w" ∧
      ∃ d', ((Session.start .standard).diagnose (tensorScene unalignedMatrices) d.offending
          "matmul").1.diagnosis = some d' ∧
        d'.line = d.offending ∧ d'.offending = d.offending ∧ d'.explanation = d.explanation ∧
        d'.message = d.message := by
  have htarget : (Cursor.start "y = x @ w").next =
      (.ok ⟨.name, "y", ⟨0, 1⟩⟩, ⟨1, " = x @ w".toList⟩) := rfl
  have hequals : (Cursor.mk 1 " = x @ w".toList).next =
      (.ok ⟨.equal, "=", ⟨2, 3⟩⟩, ⟨3, " x @ w".toList⟩) := rfl
  have hleft : (Cursor.mk 3 " x @ w".toList).next =
      (.ok ⟨.name, "x", ⟨4, 5⟩⟩, ⟨5, " @ w".toList⟩) := rfl
  have hparse : parse "y = x @ w" = .ok (some (.assign .set (.name "y")
      (.binary .matmul (.name "x") (.name "w")))) := by
    rw [parse, tokenize, Cursor.tokens_of_next_ok htarget, Cursor.tokens_of_next_ok hequals,
      Cursor.tokens_of_next_ok hleft, tokens_at_w]
    rfl
  have htrap : (Node.assign .set (.name "y") (.binary .matmul (.name "x") (.name "w"))).eval
      (tensorWorld unalignedMatrices) = .error (.trap ⟨.binary .matmul (.name "x") (.name "w"),
        .binary (.tensor [2, 3]) (.tensor [4, 5]), .shape (.innerSizes 3 4)⟩) := rfl
  have hinteresting : Policy.standard.isInteresting "matmul" := by decide +kernel
  obtain ⟨d, hdiagnosis, hoffending⟩ : ∃ d, ((Session.start .standard).diagnose
      (tensorScene unalignedMatrices) "y = x @ w" "matmul").1.diagnosis = some d ∧
        d.offending = "x @ w" :=
    ⟨_, Policy.diagnosis_eq_some_iff.mpr ⟨hinteresting, _, _, hparse, htrap, rfl⟩, rfl⟩
  obtain ⟨-, t, -, run, stop, -, -, -, -, hrun, -, -, hagain⟩ := offending_is_fixpoint hdiagnosis
  have heq : [⟨.name, "x", ⟨0, 1⟩⟩, ⟨.atSign, "@", ⟨2, 3⟩⟩, ⟨.name, "w", ⟨4, 5⟩⟩] ++
      [Token.ending 5] = run ++ [Token.ending stop] :=
    Except.ok.inj (tokenize_x_at_w.symm.trans (hoffending ▸ hrun))
  obtain ⟨rfl, -⟩ := List.append_inj' heq rfl
  exact ⟨d, hdiagnosis, hoffending, (hagain (by decide +kernel)).2 _ rfl⟩

end ShapeFault
