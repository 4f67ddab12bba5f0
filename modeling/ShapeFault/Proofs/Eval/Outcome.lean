import Mathlib.Data.List.Forall2
import ShapeFault.Eval.Run
import ShapeFault.Proofs.Tree.Parts

/-!
# Outcomes of evaluations

What the evaluation of a tree evaluates on its way are its `Node.children`: all parts of the tree
but the target of an assignment. `Performs` says which operation a node asks for once its children
have values, and `Operates` says it of the nodes whose operation can trap. A tree that has a value
has it because its children have (`Node.exists_eval_of_eval_eq_ok`).
-/

namespace ShapeFault

variable {V E : Type}

/-! ### Steps one after the other -/

namespace Run

variable {α β : Type} {r : Run V E α} {f : α → Run V E β}

theorem outcome_bind_of_ok {a : α} (h : r.outcome = .ok a) :
    (r >>= f).outcome = (f a).outcome := by
  rw [outcome_bind, h, Except.bind]

theorem outcome_bind_eq_ok_iff {b : β} :
    (r >>= f).outcome = .ok b ↔ ∃ a, r.outcome = .ok a ∧ (f a).outcome = .ok b := by
  rw [outcome_bind]
  cases r.outcome <;> simp [Except.bind]

theorem outcome_bind_eq_error_iff {x : EvalError V E} :
    (r >>= f).outcome = .error x ↔
      r.outcome = .error x ∨ ∃ a, r.outcome = .ok a ∧ (f a).outcome = .error x := by
  rw [outcome_bind]
  cases r.outcome <;> simp [Except.bind]

end Run

namespace World

variable {w : World V E} {n : Node} {o : Operation V}

theorem errorOf_eq_trap_iff {c : E} {t : Trap V E} :
    w.errorOf n o c = .trap t ↔
      t.node = n ∧ o.operands? = some t.operands ∧ c = t.cause ∧ w.isShapeFailure t.cause := by
  obtain ⟨node, operands, cause⟩ := t
  unfold errorOf
  cases o.operands? with
  | none => simp
  | some operands' =>
    by_cases hc : w.isShapeFailure c
    · simp only [if_pos hc, EvalError.trap.injEq, Trap.mk.injEq, Option.some.injEq]
      constructor
      · rintro ⟨rfl, rfl, rfl⟩
        exact ⟨rfl, rfl, rfl, hc⟩
      · rintro ⟨rfl, rfl, rfl, -⟩
        exact ⟨rfl, rfl, rfl⟩
    · simp only [if_neg hc, reduceCtorEq, false_iff]
      rintro ⟨-, -, rfl, hcause⟩
      exact hc hcause

theorem outcome_perform :
    (w.perform n o).outcome = (w.host o).mapError (w.errorOf n o) := rfl

/-- The operation of a node traps if it fails for shapes and its operands are recorded. -/
theorem outcome_perform_eq_trap_iff {t : Trap V E} :
    (w.perform n o).outcome = .error (.trap t) ↔ t.node = n ∧ o.operands? = some t.operands ∧
      w.host o = .error t.cause ∧ w.isShapeFailure t.cause := by
  rw [outcome_perform]
  cases w.host o with
  | ok v => simp [Except.mapError]
  | error c => simp [Except.mapError, errorOf_eq_trap_iff]

/-- The error of the operation of a node is the host's own if it cannot be a trap. -/
theorem outcome_perform_eq_host_iff {c : E} :
    (w.perform n o).outcome = .error (.host c) ↔
      w.host o = .error c ∧ (o.operands? ≠ none → w.isShapeFailure c = false) := by
  rw [outcome_perform]
  cases w.host o with
  | ok v => simp [Except.mapError]
  | error c' =>
    simp only [Except.mapError, errorOf, Except.error.injEq]
    cases o.operands? with
    | none => simp
    | some operands =>
      by_cases hc : w.isShapeFailure c'
      · simp only [if_pos hc, reduceCtorEq, false_iff, not_and]
        rintro rfl hno
        rw [hno nofun] at hc
        cases hc
      · simp only [if_neg hc, EvalError.host.injEq]
        refine ⟨?_, fun h => h.1⟩
        rintro rfl
        exact ⟨rfl, fun _ => Bool.eq_false_iff.mpr hc⟩

/-- No operation fails for a name. -/
theorem outcome_perform_ne_unbound {id : String} :
    (w.perform n o).outcome ≠ .error (.unbound id) := by
  rw [outcome_perform]
  cases w.host o with
  | ok v => nofun
  | error c =>
    rw [Except.mapError, errorOf]
    cases o.operands? with
    | none => nofun
    | some operands => by_cases hc : w.isShapeFailure c <;> simp [hc]

end World

/-! ### Lists, bounds and items -/

/-- The value of an item of an index: absent bounds stay absent, and each tree is evaluated on its
own. -/
inductive IndexItem.HasValue (w : World V E) : IndexItem → IndexValue V → Prop where
  | expr {e : Node} {v : V} (he : e.eval w = .ok v) : HasValue w (.expr e) (.value v)
  | slice {a b c : Option Node} {x y z : Option V} {stepped : Bool}
      (ha : Option.Rel (fun e v => e.eval w = .ok v) a x)
      (hb : Option.Rel (fun e v => e.eval w = .ok v) b y)
      (hc : Option.Rel (fun e v => e.eval w = .ok v) c z) :
      HasValue w (.slice a b c stepped) (.slice x y z)
  | full : HasValue w .full .full
  | ellipsis : HasValue w .ellipsis .ellipsis

section Lists

variable {w : World V E}

theorem Node.outcome_runList_eq_ok_iff {es : List Node} {vs : List V} :
    (Node.runList w es).outcome = .ok vs ↔ List.Forall₂ (fun e v => e.eval w = .ok v) es vs := by
  induction es generalizing vs with
  | nil =>
    rw [Node.runList, Run.outcome_pure, List.forall₂_nil_left_iff, Except.ok.injEq, eq_comm]
  | cons e es ih =>
    rw [Node.runList, Run.outcome_bind_eq_ok_iff, List.forall₂_cons_left_iff]
    simp only [Run.outcome_bind_eq_ok_iff, ih, Run.outcome_pure, Except.ok.injEq]
    constructor
    · rintro ⟨v, hv, vs, hvs, rfl⟩
      exact ⟨v, vs, hv, hvs, rfl⟩
    · rintro ⟨v, vs, hv, hvs, rfl⟩
      exact ⟨v, hv, vs, hvs, rfl⟩

theorem Node.exists_eval_of_outcome_runList {es : List Node} {x : EvalError V E}
    (h : (Node.runList w es).outcome = .error x) : ∃ e ∈ es, e.eval w = .error x := by
  induction es with
  | nil => cases h
  | cons e es ih =>
    rw [Node.runList, Run.outcome_bind_eq_error_iff] at h
    rcases h with he | ⟨v, -, h⟩
    · exact ⟨e, List.mem_cons_self, he⟩
    · rcases Run.outcome_bind_eq_error_iff.mp h with hes | ⟨vs, -, h⟩
      · obtain ⟨e', he', herror⟩ := ih hes
        exact ⟨e', List.mem_cons_of_mem e he', herror⟩
      · cases h

theorem Node.outcome_runBound_eq_ok_iff {b : Option Node} {v : Option V} :
    (Node.runBound w b).outcome = .ok v ↔ Option.Rel (fun e v => e.eval w = .ok v) b v := by
  cases b with
  | none =>
    rw [Node.runBound, Run.outcome_pure, Except.ok.injEq]
    constructor
    · rintro rfl
      exact .none
    · rintro ⟨⟩
      rfl
  | some e =>
    rw [Node.runBound, Run.outcome_bind_eq_ok_iff]
    constructor
    · rintro ⟨v, hv, ⟨⟩⟩
      exact .some hv
    · rintro (hv | _)
      exact ⟨_, hv, rfl⟩

theorem Node.exists_eval_of_outcome_runBound {b : Option Node} {x : EvalError V E}
    (h : (Node.runBound w b).outcome = .error x) : ∃ e ∈ b, e.eval w = .error x := by
  cases b with
  | none => cases h
  | some e =>
    rw [Node.runBound, Run.outcome_bind_eq_error_iff] at h
    rcases h with he | ⟨v, -, h⟩
    · exact ⟨e, rfl, he⟩
    · cases h

theorem IndexItem.outcome_run_eq_ok_iff {i : IndexItem} {v : IndexValue V} :
    (i.run w).outcome = .ok v ↔ i.HasValue w v := by
  cases i with
  | expr e =>
    rw [IndexItem.run, Run.outcome_bind_eq_ok_iff]
    constructor
    · rintro ⟨v, hv, ⟨⟩⟩
      exact .expr hv
    · rintro ⟨hv⟩
      exact ⟨_, hv, rfl⟩
  | slice a b c stepped =>
    rw [IndexItem.run]
    simp only [Run.outcome_bind_eq_ok_iff, Node.outcome_runBound_eq_ok_iff, Run.outcome_pure,
      Except.ok.injEq]
    constructor
    · rintro ⟨x, hx, y, hy, z, hz, rfl⟩
      exact .slice hx hy hz
    · intro h
      cases h with
      | slice hx hy hz => exact ⟨_, hx, _, hy, _, hz, rfl⟩
  | full | ellipsis =>
    rw [IndexItem.run, Run.outcome_pure, Except.ok.injEq]
    constructor
    · rintro rfl
      constructor
    · rintro ⟨⟩
      rfl

theorem IndexItem.exists_eval_of_outcome_run {i : IndexItem} {x : EvalError V E}
    (h : (i.run w).outcome = .error x) : ∃ e ∈ i.parts, e.eval w = .error x := by
  cases i with
  | expr e =>
    rw [IndexItem.run, Run.outcome_bind_eq_error_iff] at h
    rcases h with he | ⟨v, -, h⟩
    · exact ⟨e, List.mem_singleton_self e, he⟩
    · cases h
  | slice a b c stepped =>
    rw [IndexItem.run] at h
    simp only [Run.outcome_bind_eq_error_iff, Run.outcome_pure, reduceCtorEq, and_false,
      exists_false, or_false] at h
    have hbound : ∀ {o : Option Node}, (Node.runBound w o).outcome = .error x →
        o.toList ⊆ (slice a b c stepped).parts →
          ∃ e ∈ (slice a b c stepped).parts, e.eval w = .error x := by
      intro o ho hsub
      obtain ⟨e, he, herror⟩ := Node.exists_eval_of_outcome_runBound ho
      exact ⟨e, hsub (Option.mem_toList.mpr he), herror⟩
    rcases h with h | ⟨_, -, h | ⟨_, -, h⟩⟩ <;> exact hbound h (by simp [parts])
  | full | ellipsis => cases h

theorem IndexItem.outcome_runList_eq_ok_iff {is : List IndexItem} {vs : List (IndexValue V)} :
    (IndexItem.runList w is).outcome = .ok vs ↔ List.Forall₂ (IndexItem.HasValue w) is vs := by
  induction is generalizing vs with
  | nil =>
    rw [IndexItem.runList, Run.outcome_pure, List.forall₂_nil_left_iff, Except.ok.injEq, eq_comm]
  | cons i is ih =>
    rw [IndexItem.runList, Run.outcome_bind_eq_ok_iff, List.forall₂_cons_left_iff]
    simp only [Run.outcome_bind_eq_ok_iff, ih, Run.outcome_pure, Except.ok.injEq,
      outcome_run_eq_ok_iff]
    constructor
    · rintro ⟨v, hv, vs, hvs, rfl⟩
      exact ⟨v, vs, hv, hvs, rfl⟩
    · rintro ⟨v, vs, hv, hvs, rfl⟩
      exact ⟨v, hv, vs, hvs, rfl⟩

theorem IndexItem.exists_eval_of_outcome_runList {is : List IndexItem} {x : EvalError V E}
    (h : (IndexItem.runList w is).outcome = .error x) :
    ∃ e ∈ is.flatMap IndexItem.parts, e.eval w = .error x := by
  induction is with
  | nil => cases h
  | cons i is ih =>
    rw [List.flatMap_cons]
    rw [IndexItem.runList, Run.outcome_bind_eq_error_iff] at h
    rcases h with hi | ⟨v, -, h⟩
    · obtain ⟨e, he, herror⟩ := exists_eval_of_outcome_run hi
      exact ⟨e, List.mem_append_left _ he, herror⟩
    · rcases Run.outcome_bind_eq_error_iff.mp h with his | ⟨vs, -, h⟩
      · obtain ⟨e, he, herror⟩ := ih his
        exact ⟨e, List.mem_append_right _ he, herror⟩
      · cases h

end Lists

/-! ### Nodes and their children -/

/-- The trees that the evaluation of a tree evaluates: its parts, but not the target of an
assignment. -/
def Node.children : Node → List Node
  | .assign _ _ v => [v]
  | e => e.parts

theorem Node.children_subset_parts (e : Node) : e.children ⊆ e.parts := by
  cases e <;> simp [children, parts]

/-- The operation that a node asks for once its children have values, and the operands that are
recorded for it, for the nodes whose operation can trap. -/
inductive Operates (w : World V E) : Node → Operation V → Operands V → Prop where
  | unary {op : UnaryOp} {e : Node} {v : V} (he : e.eval w = .ok v) :
      Operates w (.unary op e) (.unary op v) (.unary v)
  | binary {op : BinaryOp} {a b : Node} {v u : V} (ha : a.eval w = .ok v) (hb : b.eval w = .ok u) :
      Operates w (.binary op a b) (.binary op v u) (.binary v u)
  | call {f : Node} {as : List Node} {v : V} {vs : List V} (hf : f.eval w = .ok v)
      (has : List.Forall₂ (fun e v => e.eval w = .ok v) as vs) :
      Operates w (.call f as) (.call v vs) (.call v vs)
  | index {a : Node} {is : List IndexItem} {v : V} {vs : List (IndexValue V)}
      (ha : a.eval w = .ok v) (his : List.Forall₂ (IndexItem.HasValue w) is vs) :
      Operates w (.index a is) (.index v vs) (.index v vs)

/-- The operation that a node asks for once its children have values, whether it can trap or not. -/
inductive Performs (w : World V E) : Node → Operation V → Prop where
  | literal (l : Literal) : Performs w (.literal l) (.literal l)
  | member {e : Node} {id : String} {v : V} (he : e.eval w = .ok v) :
      Performs w (.member e id) (.member v id)
  | list {es : List Node} {vs : List V} (hes : List.Forall₂ (fun e v => e.eval w = .ok v) es vs) :
      Performs w (.list es) (.list vs)
  | operates {n : Node} {o : Operation V} {operands : Operands V} (h : Operates w n o operands) :
      Performs w n o

/-- The nodes whose operation is never a trap: literals, members and lists. -/
def Node.isUntrapped : Node → Bool
  | .literal _ | .member _ _ | .list _ => true
  | _ => false

section Children

variable {w : World V E}

theorem exists_of_forall₂ {α β : Type} {R : α → β → Prop} {as : List α} {bs : List β}
    (h : List.Forall₂ R as bs) : ∀ a ∈ as, ∃ b, R a b := by
  induction h with
  | nil => nofun
  | cons hab _ ih => exact List.forall_mem_cons.mpr ⟨⟨_, hab⟩, ih⟩

theorem IndexItem.HasValue.exists_eval {i : IndexItem} {v : IndexValue V} (h : i.HasValue w v) :
    ∀ e ∈ i.parts, ∃ u, e.eval w = .ok u := by
  have hbound : ∀ {b : Option Node} {x : Option V},
      Option.Rel (fun e v => e.eval w = .ok v) b x → ∀ e ∈ b.toList, ∃ u, e.eval w = .ok u := by
    rintro _ _ (hv | _) e he
    · obtain rfl := List.mem_singleton.mp he
      exact ⟨_, hv⟩
    · cases he
  cases h with
  | expr he => exact List.forall_mem_singleton.mpr ⟨_, he⟩
  | slice ha hb hc =>
    exact List.forall_mem_append.mpr ⟨List.forall_mem_append.mpr ⟨hbound ha, hbound hb⟩, hbound hc⟩
  | full | ellipsis => nofun

theorem IndexItem.exists_eval_of_forall₂ {is : List IndexItem} {vs : List (IndexValue V)}
    (h : List.Forall₂ (IndexItem.HasValue w) is vs) :
    ∀ e ∈ is.flatMap IndexItem.parts, ∃ u, e.eval w = .ok u := by
  intro e he
  obtain ⟨i, hi, hei⟩ := List.mem_flatMap.mp he
  obtain ⟨v, hv⟩ := exists_of_forall₂ h i hi
  exact hv.exists_eval e hei

namespace Operates

variable {n : Node} {o : Operation V} {operands : Operands V}

/-- The operands of the operation are the recorded ones. -/
theorem operands?_eq (h : Operates w n o operands) : o.operands? = some operands := by
  cases h <;> rfl

/-- The children of a node that asks for an operation have values. -/
theorem exists_eval (h : Operates w n o operands) : ∀ c ∈ n.children, ∃ v, c.eval w = .ok v := by
  cases h with
  | unary he => exact List.forall_mem_singleton.mpr ⟨_, he⟩
  | binary ha hb => exact List.forall_mem_cons.mpr ⟨⟨_, ha⟩, List.forall_mem_singleton.mpr ⟨_, hb⟩⟩
  | call hf has => exact List.forall_mem_cons.mpr ⟨⟨_, hf⟩, exists_of_forall₂ has⟩
  | index ha his =>
    exact List.forall_mem_cons.mpr ⟨⟨_, ha⟩, IndexItem.exists_eval_of_forall₂ his⟩

/-- A node that asks for an operation has the outcome of the operation. -/
theorem eval_eq (h : Operates w n o operands) : n.eval w = (w.perform n o).outcome := by
  cases h with
  | unary he => exact Run.outcome_bind_of_ok he
  | binary ha hb => exact (Run.outcome_bind_of_ok ha).trans (Run.outcome_bind_of_ok hb)
  | call hf has =>
    exact (Run.outcome_bind_of_ok hf).trans
      (Run.outcome_bind_of_ok (Node.outcome_runList_eq_ok_iff.mpr has))
  | index ha his =>
    exact (Run.outcome_bind_of_ok ha).trans
      (Run.outcome_bind_of_ok (IndexItem.outcome_runList_eq_ok_iff.mpr his))

end Operates

namespace Performs

variable {n : Node} {o : Operation V}

theorem exists_eval (h : Performs w n o) : ∀ c ∈ n.children, ∃ v, c.eval w = .ok v := by
  cases h with
  | literal l => nofun
  | member he => exact List.forall_mem_singleton.mpr ⟨_, he⟩
  | list hes => exact exists_of_forall₂ hes
  | operates h => exact h.exists_eval

theorem eval_eq (h : Performs w n o) : n.eval w = (w.perform n o).outcome := by
  cases h with
  | literal l => rfl
  | member he => exact Run.outcome_bind_of_ok he
  | list hes => exact Run.outcome_bind_of_ok (Node.outcome_runList_eq_ok_iff.mpr hes)
  | operates h => exact h.eval_eq

/-- The operations whose operands are recorded are those that can trap. -/
theorem operates_of_operands? (h : Performs w n o) {operands : Operands V}
    (ho : o.operands? = some operands) : Operates w n o operands := by
  cases h with
  | literal | member | list => cases ho
  | operates h =>
    obtain rfl := Option.some.inj (h.operands?_eq.symm.trans ho)
    exact h

theorem isUntrapped_of_operands? (h : Performs w n o) (ho : o.operands? = none) :
    n.isUntrapped := by
  cases h with
  | literal | member | list => rfl
  | operates h => cases h.operands?_eq.symm.trans ho

end Performs

/-- The children of a tree that has a value have values. -/
theorem Node.exists_eval_of_eval_eq_ok {e : Node} {v : V} (h : e.eval w = .ok v) :
    ∀ c ∈ e.children, ∃ u, c.eval w = .ok u := by
  unfold Node.eval at h
  cases e with
  | name | literal => nofun
  | unary op a | member a id =>
    rw [Node.run, Run.outcome_bind_eq_ok_iff] at h
    obtain ⟨u, hu, -⟩ := h
    exact List.forall_mem_singleton.mpr ⟨u, hu⟩
  | paren a | assign op t a =>
    rw [Node.run] at h
    exact List.forall_mem_singleton.mpr ⟨v, h⟩
  | binary op a b =>
    simp only [Node.run, Run.outcome_bind_eq_ok_iff] at h
    obtain ⟨u, hu, u', hu', -⟩ := h
    exact List.forall_mem_cons.mpr ⟨⟨u, hu⟩, List.forall_mem_singleton.mpr ⟨u', hu'⟩⟩
  | call f as =>
    simp only [Node.run, Run.outcome_bind_eq_ok_iff, Node.outcome_runList_eq_ok_iff] at h
    obtain ⟨u, hu, us, hus, -⟩ := h
    exact List.forall_mem_cons.mpr ⟨⟨u, hu⟩, exists_of_forall₂ hus⟩
  | index a is =>
    simp only [Node.run, Run.outcome_bind_eq_ok_iff, IndexItem.outcome_runList_eq_ok_iff] at h
    obtain ⟨u, hu, us, hus, -⟩ := h
    exact List.forall_mem_cons.mpr ⟨⟨u, hu⟩, IndexItem.exists_eval_of_forall₂ hus⟩
  | list es =>
    rw [Node.run, Run.outcome_bind_eq_ok_iff] at h
    obtain ⟨us, hus, -⟩ := h
    exact exists_of_forall₂ (Node.outcome_runList_eq_ok_iff.mp hus)

end Children

end ShapeFault
