import ShapeFault.Proofs.Eval.Outcome

/-!
# Where a trap comes from

A trap is passed on unchanged from the node whose operation failed up to the root of the tree, so it
names the smallest expression that fails: its node has only children with values, and nothing that
these evaluate on their way fails either (`eval_eq_trap`). Targets of assignments are not evaluated,
so no trap names a node within one.
-/

namespace ShapeFault

variable {V E : Type} {w : World V E}

/-- `e.Evaluates m` says that `m` is `e` itself or stands within `e` outside of the targets of
assignments. -/
def Node.Evaluates (e m : Node) : Prop :=
  Relation.ReflTransGen (fun a b => b ∈ a.children) e m

/-- `e.EvaluatesBelow m` says the same of the trees that are not `e` itself. -/
def Node.EvaluatesBelow (e m : Node) : Prop :=
  Relation.TransGen (fun a b => b ∈ a.children) e m

theorem Node.Evaluates.contains {e m : Node} (h : e.Evaluates m) : e.Contains m :=
  Relation.ReflTransGen.mono (fun a _ hb => a.children_subset_parts hb) _ _ h

/-- Everything that is evaluated on the way to a value has a value. -/
theorem Node.Evaluates.exists_eval {e m : Node} (h : e.Evaluates m) {v : V}
    (he : e.eval w = .ok v) : ∃ u, m.eval w = .ok u := by
  induction h with
  | refl => exact ⟨v, he⟩
  | tail _ hc ih =>
    obtain ⟨u, hu⟩ := ih
    exact exists_eval_of_eval_eq_ok hu _ hc

/-- The trap is one of its own node: the operation of the node fails for shapes on the values of the
children. -/
def Trap.Arises (w : World V E) (t : Trap V E) : Prop :=
  ∃ o, Operates w t.node o t.operands ∧ w.host o = .error t.cause ∧ w.isShapeFailure t.cause

/-- A trap of a node on its own is what the node evaluates to. -/
theorem Trap.Arises.eval_node {t : Trap V E} (h : t.Arises w) :
    t.node.eval w = .error (.trap t) := by
  obtain ⟨o, ho, hfail, hshape⟩ := h
  rw [ho.eval_eq]
  exact World.outcome_perform_eq_trap_iff.mpr ⟨rfl, ho.operands?_eq, hfail, hshape⟩

/-- **One level of an error.** An error is that of an unbound name, one of a child, or one of the
operation of the tree itself, which has the values of the children as its operands. -/
theorem Node.eval_eq_error_cases {e : Node} {x : EvalError V E} (h : e.eval w = .error x) :
    (∃ id, e = .name id ∧ w.lookup id = none ∧ x = .unbound id) ∨
      (∃ c ∈ e.children, c.eval w = .error x) ∨
      ∃ o, Performs w e o ∧ (w.perform e o).outcome = .error x := by
  unfold Node.eval at h
  cases e with
  | name id =>
    rw [Node.run, World.valueOf] at h
    cases hlookup : w.lookup id with
    | some v =>
      rw [hlookup] at h
      cases h
    | none =>
      rw [hlookup] at h
      exact Or.inl ⟨id, rfl, hlookup, (Except.error.inj h).symm⟩
  | literal l => exact Or.inr (Or.inr ⟨_, .literal l, h⟩)
  | unary op a =>
    rw [Node.run, Run.outcome_bind_eq_error_iff] at h
    rcases h with ha | ⟨v, hv, h⟩
    · exact Or.inr (Or.inl ⟨_, List.mem_singleton_self a, ha⟩)
    · exact Or.inr (Or.inr ⟨_, .operates (.unary hv), h⟩)
  | binary op a b =>
    rw [Node.run, Run.outcome_bind_eq_error_iff] at h
    rcases h with ha | ⟨v, hv, h⟩
    · exact Or.inr (Or.inl ⟨_, by simp [children, parts], ha⟩)
    · rcases Run.outcome_bind_eq_error_iff.mp h with hb | ⟨u, hu, h⟩
      · exact Or.inr (Or.inl ⟨_, by simp [children, parts], hb⟩)
      · exact Or.inr (Or.inr ⟨_, .operates (.binary hv hu), h⟩)
  | paren a | assign op target a =>
    rw [Node.run] at h
    exact Or.inr (Or.inl ⟨_, List.mem_singleton_self a, h⟩)
  | member a id =>
    rw [Node.run, Run.outcome_bind_eq_error_iff] at h
    rcases h with ha | ⟨v, hv, h⟩
    · exact Or.inr (Or.inl ⟨_, List.mem_singleton_self a, ha⟩)
    · exact Or.inr (Or.inr ⟨_, .member hv, h⟩)
  | call f as =>
    rw [Node.run, Run.outcome_bind_eq_error_iff] at h
    rcases h with hf | ⟨v, hv, h⟩
    · exact Or.inr (Or.inl ⟨_, List.mem_cons_self, hf⟩)
    · rcases Run.outcome_bind_eq_error_iff.mp h with has | ⟨vs, hvs, h⟩
      · obtain ⟨a, ha, herror⟩ := exists_eval_of_outcome_runList has
        exact Or.inr (Or.inl ⟨_, List.mem_cons_of_mem f ha, herror⟩)
      · exact Or.inr (Or.inr ⟨_, .operates (.call hv (outcome_runList_eq_ok_iff.mp hvs)), h⟩)
  | index a is =>
    rw [Node.run, Run.outcome_bind_eq_error_iff] at h
    rcases h with ha | ⟨v, hv, h⟩
    · exact Or.inr (Or.inl ⟨_, List.mem_cons_self, ha⟩)
    · rcases Run.outcome_bind_eq_error_iff.mp h with his | ⟨vs, hvs, h⟩
      · obtain ⟨c, hc, herror⟩ := IndexItem.exists_eval_of_outcome_runList his
        exact Or.inr (Or.inl ⟨_, List.mem_cons_of_mem a hc, herror⟩)
      · exact Or.inr (Or.inr
          ⟨_, .operates (.index hv (IndexItem.outcome_runList_eq_ok_iff.mp hvs)), h⟩)
  | list es =>
    rw [Node.run, Run.outcome_bind_eq_error_iff] at h
    rcases h with hes | ⟨vs, hvs, h⟩
    · obtain ⟨c, hc, herror⟩ := exists_eval_of_outcome_runList hes
      exact Or.inr (Or.inl ⟨_, hc, herror⟩)
    · exact Or.inr (Or.inr ⟨_, .list (outcome_runList_eq_ok_iff.mp hvs), h⟩)

/-- **Where an error comes from.** It is that of a name that the tree evaluates, or of the operation
of a node that it evaluates, all of whose children have values. -/
theorem Node.exists_origin {e : Node} {x : EvalError V E} (h : e.eval w = .error x) :
    ∃ m, e.Evaluates m ∧ ((∃ id, m = .name id ∧ w.lookup id = none ∧ x = .unbound id) ∨
      ∃ o, Performs w m o ∧ (w.perform m o).outcome = .error x) := by
  induction e using Node.parts_induction with
  | h e ih =>
    rcases eval_eq_error_cases h with hname | ⟨c, hc, hchild⟩ | hperform
    · exact ⟨e, .refl, Or.inl hname⟩
    · obtain ⟨m, hm, horigin⟩ := ih c (e.children_subset_parts hc) hchild
      exact ⟨m, .head hc hm, horigin⟩
    · exact ⟨e, .refl, Or.inr hperform⟩

/-- An error of the host that is no trap comes from an operation of which no operands are recorded,
or it is no failure about shapes. -/
theorem Node.exists_operation_of_eval_eq_host {e : Node} {c : E}
    (h : e.eval w = .error (.host c)) :
    ∃ m o, e.Evaluates m ∧ Performs w m o ∧ w.host o = .error c ∧
      (o.operands? ≠ none → w.isShapeFailure c = false) := by
  obtain ⟨m, hm, ⟨id, -, -, hid⟩ | ⟨o, ho, hperform⟩⟩ := exists_origin h
  · cases hid
  · exact ⟨m, o, hm, ho, World.outcome_perform_eq_host_iff.mp hperform⟩

/-- A trap arises at a node that the tree evaluates. -/
theorem Node.evaluates_of_eval_eq_trap {e : Node} {t : Trap V E}
    (h : e.eval w = .error (.trap t)) : e.Evaluates t.node ∧ t.Arises w := by
  obtain ⟨m, hm, ⟨id, -, -, hid⟩ | ⟨o, ho, hperform⟩⟩ := exists_origin h
  · cases hid
  · -- the operation traps only if its operands are recorded
    obtain ⟨rfl, hrecorded, hfail, hshape⟩ := World.outcome_perform_eq_trap_iff.mp hperform
    exact ⟨hm, o, ho.operates_of_operands? hrecorded, hfail, hshape⟩

/-- **A trap names the smallest failing expression.** Its node is evaluated by the tree, the
children of the node have the recorded values, the operation of the node fails on them with the
recorded cause, and this is a failure about shapes. Nothing that the node evaluates below itself
fails, and the node on its own evaluates to the same trap. -/
theorem eval_eq_trap {e : Node} {t : Trap V E} (h : e.eval w = .error (.trap t)) :
    e.Evaluates t.node ∧
      (∃ o, Operates w t.node o t.operands ∧ w.host o = .error t.cause ∧
        w.isShapeFailure t.cause) ∧
      (∀ m, t.node.EvaluatesBelow m → ∃ v, m.eval w = .ok v) ∧
      t.node.eval w = .error (.trap t) := by
  obtain ⟨hevaluates, harises⟩ := Node.evaluates_of_eval_eq_trap h
  refine ⟨hevaluates, harises, fun m hm => ?_, harises.eval_node⟩
  obtain ⟨o, ho, -⟩ := harises
  obtain ⟨c, hc, hcm⟩ := Relation.TransGen.head'_iff.mp hm
  obtain ⟨v, hv⟩ := ho.exists_eval c hc
  exact Node.Evaluates.exists_eval hcm hv

/-- A world in which no two values can be combined. -/
def combinesNothing : World Nat String where
  host
    | .binary .. => .error "shapes do not fit"
    | _ => .ok 0
  isShapeFailure _ := true
  lookup
    | "a" => some 2
    | "b" => some 3
    | _ => none

/-- The trap of `x = [a, -(a + b)]` names the sum. -/
theorem eval_list_of_sum_eq_trap :
    (Node.assign .set (.name "x") (.list [.name "a", .unary .neg
        (.paren (.binary .add (.name "a") (.name "b")))])).eval combinesNothing =
          .error (.trap ⟨.binary .add (.name "a") (.name "b"), .binary 2 3, "shapes do not fit"⟩) ∧
      ∀ m, (Node.binary .add (.name "a") (.name "b")).EvaluatesBelow m →
        ∃ v, m.eval combinesNothing = .ok v :=
  have h : (Node.assign .set (.name "x") (.list [.name "a", .unary .neg
      (.paren (.binary .add (.name "a") (.name "b")))])).eval combinesNothing =
        .error (.trap ⟨.binary .add (.name "a") (.name "b"), .binary 2 3, "shapes do not fit"⟩) :=
    rfl
  ⟨h, (eval_eq_trap h).2.2.1⟩

end ShapeFault
