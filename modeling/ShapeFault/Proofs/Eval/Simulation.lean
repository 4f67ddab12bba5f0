import ShapeFault.Proofs.Eval.Machine
import ShapeFault.Proofs.Eval.Outcome

/-!
# Evaluation on the machine

Running the steps of a tree on a stack does what evaluating the tree does, and leaves its value on
top of the stack. The statement is proved for steps in front of any others (`Simulates`), where it
passes from the parts of a tree to the tree.
-/

namespace ShapeFault

variable {V E : Type} {w : World V E}

/-! ### Going on after a run -/

namespace Run

variable {α β γ : Type} {r : Run V E α}

theorem feed_ok (ops : List (Performed V E)) (a : α) (k : α → Option (Run V E β)) :
    (⟨ops, .ok a⟩ : Run V E α).feed k = (k a).map fun s => ⟨ops ++ s.performed, s.outcome⟩ := rfl

@[simp]
theorem feed_pure (a : α) (k : α → Option (Run V E β)) : (pure a : Run V E α).feed k = k a := by
  change ((k a).map fun s => (⟨[] ++ s.performed, s.outcome⟩ : Run V E β)) = k a
  cases k a <;> rfl

theorem feed_bind (f : α → Run V E β) (k : β → Option (Run V E γ)) :
    (r >>= f).feed k = r.feed fun a => (f a).feed k := by
  obtain ⟨ops, x | a⟩ := r
  · rfl
  · change (andThen ⟨ops, .ok a⟩ f).feed k = _
    simp only [andThen, feed]
    cases (f a).outcome with
    | error x => rfl
    | ok b =>
      simp only [List.append_assoc, Option.map_map]
      rfl

theorem feed_congr {k k' : α → Option (Run V E β)} (h : ∀ a, r.outcome = .ok a → k a = k' a) :
    r.feed k = r.feed k' := by
  unfold feed
  cases ho : r.outcome with
  | error x => rfl
  | ok a => simp only [h a ho]

end Run

/-! ### Operands on the stack -/

theorem pop?_append {n : Nat} {vs stack : List V} (h : vs.length = n) :
    pop? n (vs.reverse ++ stack) = some (vs, stack) := by
  subst h
  have hlen : vs.length = vs.reverse.length := vs.length_reverse.symm
  rw [pop?, if_pos (by simp), hlen, List.take_left, List.drop_left, List.reverse_reverse]

/-- The values of an item, in the order in which they are computed. -/
def IndexValue.values : IndexValue V → List V
  | .value v => [v]
  | .slice a b c => a.toList ++ b.toList ++ c.toList
  | .full | .ellipsis => []

theorem ItemLayout.takeBound?_append (o : Option V) (vs : List V) :
    takeBound? o.isSome (o.toList ++ vs) = some (o, vs) := by
  cases o <;> rfl

/-- An item is taken back from its values. -/
theorem ItemLayout.take?_append {i : IndexItem} {v : IndexValue V} (h : i.HasValue w v)
    (vs : List V) : i.layout.take? (v.values ++ vs) = some (v, vs) := by
  cases h with
  | expr | full | ellipsis => rfl
  | @slice a b c x y z _ ha hb hc =>
    have hsome : ∀ {b : Option Node} {x : Option V},
        Option.Rel (fun e v => e.eval w = .ok v) b x → b.isSome = x.isSome := by
      rintro _ _ (_ | _) <;> rfl
    simp only [IndexItem.layout, IndexValue.values, take?, List.append_assoc, hsome ha, hsome hb,
      hsome hc, takeBound?_append, Option.bind_eq_bind, Option.bind_some]

theorem ItemLayout.takeAll?_values {is : List IndexItem} {vs : List (IndexValue V)}
    (h : List.Forall₂ (IndexItem.HasValue w) is vs) :
    takeAll? (is.map IndexItem.layout) (vs.flatMap IndexValue.values) = some vs := by
  induction h with
  | nil => rfl
  | cons hi _ ih =>
    rw [List.map_cons, List.flatMap_cons, takeAll?, take?_append hi]
    simp only [Option.bind_eq_bind, Option.bind_some, ih]

theorem ItemLayout.length_values {is : List IndexItem} {vs : List (IndexValue V)}
    (h : List.Forall₂ (IndexItem.HasValue w) is vs) :
    (vs.flatMap IndexValue.values).length = totalSize (is.map IndexItem.layout) := by
  induction h with
  | nil => rfl
  | @cons i v is vs hi _ ih =>
    have hsize : v.values.length = i.layout.size := by
      cases hi with
      | expr | full | ellipsis => rfl
      | slice ha hb hc =>
        have hbound : ∀ {b : Option Node} {x : Option V},
            Option.Rel (fun e v => e.eval w = .ok v) b x → x.toList.length = b.isSome.toNat := by
          rintro _ _ (_ | _) <;> rfl
        simp only [IndexValue.values, List.length_append, hbound ha, hbound hb, hbound hc,
          IndexItem.layout, size]
    rw [List.flatMap_cons, List.length_append, List.map_cons, totalSize, hsize, ih]

/-! ### Single steps -/

/-- A step takes its operands from the top of the stack and performs its operation. -/
theorem Step.execute_append {s : Step} {vs : List V} {o : Operation V}
    (hlen : vs.length = s.instruction.arity)
    (ho : s.instruction.operation? vs = some (o, o.operands?)) (stack : List V) :
    s.execute w (vs.reverse ++ stack) =
      some (w.perform s.node o >>= fun v => pure (v :: stack)) := by
  unfold execute
  split
  · rename_i id hid
    rw [hid] at ho
    cases ho
  · have hfailure : ∀ cause, s.failure w o.operands? cause = w.errorOf s.node o cause := by
      intro cause
      unfold failure World.errorOf
      cases o.operands? <;> rfl
    have hbind : ∀ r : Run V E V, r >>= (fun v => pure (v :: stack)) =
        ⟨r.performed, r.outcome.map (· :: stack)⟩ := by
      rintro ⟨ops, x | v⟩
      · rfl
      · exact congrArg (Run.mk · _) (List.append_nil ops)
    simp only [pop?_append hlen, ho, Option.bind_eq_bind, Option.bind_some, hbind, World.perform]
    cases w.host o with
    | ok v => rfl
    | error cause => simp only [hfailure, Except.mapError, Except.map]

theorem runSteps_cons_append {s : Step} (vs : List V) (o : Operation V)
    (hlen : vs.length = s.instruction.arity)
    (ho : s.instruction.operation? vs = some (o, o.operands?)) (ss : List Step) (stack : List V) :
    runSteps w (s :: ss) (vs.reverse ++ stack) =
      (w.perform s.node o).feed fun v => runSteps w ss (v :: stack) := by
  rw [runSteps, Step.execute_append hlen ho, Option.bind_some, Run.feed_bind]
  simp only [Run.feed_pure]

/-! ### Trees -/

/-- **The steps of a tree** in front of any others do what evaluating the tree does, and leave its
value on top of the stack. -/
def Simulates (w : World V E) (e : Node) : Prop :=
  ∀ ss stack, runSteps w (e.steps ++ ss) stack =
    (e.run w).feed fun v => runSteps w ss (v :: stack)

theorem runSteps_stepsList {es : List Node} (h : ∀ e ∈ es, Simulates w e) (ss : List Step)
    (stack : List V) : runSteps w (Node.stepsList es ++ ss) stack =
      (Node.runList w es).feed fun vs => runSteps w ss (vs.reverse ++ stack) := by
  induction es generalizing stack with
  | nil =>
    rw [Node.runList, Run.feed_pure]
    rfl
  | cons e es ih =>
    obtain ⟨he, hes⟩ := List.forall_mem_cons.mp h
    rw [Node.stepsList, List.append_assoc, he, Node.runList]
    simp only [Run.feed_bind, Run.feed_pure, ih hes, List.reverse_cons, List.append_assoc,
      List.singleton_append]

theorem runSteps_stepsBound {b : Option Node} (h : ∀ e ∈ b.toList, Simulates w e)
    (ss : List Step) (stack : List V) : runSteps w (Node.stepsBound b ++ ss) stack =
      (Node.runBound w b).feed fun o => runSteps w ss (o.toList.reverse ++ stack) := by
  cases b with
  | none =>
    rw [Node.runBound, Run.feed_pure]
    rfl
  | some e =>
    rw [Node.stepsBound, h e (List.mem_singleton_self e), Node.runBound]
    simp only [Run.feed_bind, Run.feed_pure, Option.toList_some, List.reverse_singleton,
      List.singleton_append]

theorem runSteps_stepsItem {i : IndexItem} (h : ∀ e ∈ i.parts, Simulates w e) (ss : List Step)
    (stack : List V) : runSteps w (i.steps ++ ss) stack =
      (i.run w).feed fun v => runSteps w ss (v.values.reverse ++ stack) := by
  cases i with
  | expr e =>
    rw [IndexItem.steps, h e (List.mem_singleton_self e), IndexItem.run]
    simp only [Run.feed_bind, Run.feed_pure, IndexValue.values, List.reverse_singleton,
      List.singleton_append]
  | slice a b c stepped =>
    obtain ⟨hab, hc⟩ := List.forall_mem_append.mp h
    obtain ⟨ha, hb⟩ := List.forall_mem_append.mp hab
    rw [IndexItem.steps, List.append_assoc, List.append_assoc, runSteps_stepsBound ha,
      IndexItem.run]
    simp only [Run.feed_bind, Run.feed_pure, runSteps_stepsBound hb, runSteps_stepsBound hc,
      IndexValue.values, List.reverse_append, List.append_assoc]
  | full | ellipsis =>
    rw [IndexItem.run, Run.feed_pure]
    rfl

theorem runSteps_stepsItems {is : List IndexItem}
    (h : ∀ e ∈ is.flatMap IndexItem.parts, Simulates w e) (ss : List Step) (stack : List V) :
    runSteps w (IndexItem.stepsList is ++ ss) stack =
      (IndexItem.runList w is).feed fun vs =>
        runSteps w ss ((vs.flatMap IndexValue.values).reverse ++ stack) := by
  induction is generalizing stack with
  | nil =>
    rw [IndexItem.runList, Run.feed_pure]
    rfl
  | cons i is ih =>
    rw [List.flatMap_cons] at h
    obtain ⟨hi, his⟩ := List.forall_mem_append.mp h
    rw [IndexItem.stepsList, List.append_assoc, runSteps_stepsItem hi, IndexItem.runList]
    simp only [Run.feed_bind, Run.feed_pure, ih his, List.flatMap_cons, List.reverse_append,
      List.append_assoc]

/-- **Simulation.** -/
theorem simulates (w : World V E) (e : Node) : Simulates w e := by
  induction e using Node.parts_induction with
  | h e ih =>
    intro ss stack
    cases e with
    | name id =>
      have hlookup : (⟨.name id, .lookup id⟩ : Step).execute w stack =
          some (w.valueOf id >>= fun v => pure (v :: stack)) := by
        simp only [Step.execute, World.valueOf]
        cases w.lookup id <;> rfl
      rw [Node.steps, List.singleton_append, runSteps, hlookup, Option.bind_some, Run.feed_bind,
        Node.run]
      simp only [Run.feed_pure]
    | literal l => exact runSteps_cons_append [] (.literal l) rfl rfl ss stack
    | unary op a =>
      rw [Node.steps, List.append_assoc, ih a (List.mem_singleton_self a), Node.run, Run.feed_bind]
      refine Run.feed_congr fun v _ => ?_
      exact runSteps_cons_append [v] (.unary op v) rfl rfl ss stack
    | binary op a b =>
      have hb := ih b (List.mem_cons_of_mem a (List.mem_singleton_self b))
      rw [Node.steps, List.append_assoc, List.append_assoc, ih a List.mem_cons_self, Node.run,
        Run.feed_bind]
      refine Run.feed_congr fun v _ => ?_
      rw [hb, Run.feed_bind]
      refine Run.feed_congr fun u _ => ?_
      exact runSteps_cons_append [v, u] (.binary op v u) rfl rfl ss stack
    | assign op target a =>
      rw [Node.steps, ih a (List.mem_cons_of_mem target (List.mem_singleton_self a)), Node.run]
    | paren a => rw [Node.steps, ih a (List.mem_singleton_self a), Node.run]
    | member a id =>
      rw [Node.steps, List.append_assoc, ih a (List.mem_singleton_self a), Node.run, Run.feed_bind]
      refine Run.feed_congr fun v _ => ?_
      exact runSteps_cons_append [v] (.member v id) rfl rfl ss stack
    | call f as =>
      obtain ⟨hf, has⟩ := List.forall_mem_cons.mp ih
      rw [Node.steps, List.append_assoc, List.append_assoc, hf, Node.run, Run.feed_bind]
      refine Run.feed_congr fun v _ => ?_
      rw [runSteps_stepsList has, Run.feed_bind]
      refine Run.feed_congr fun vs hvs => ?_
      -- there are as many values as arguments
      have hlen := (Node.outcome_runList_eq_ok_iff.mp hvs).length_eq
      have hstack : vs.reverse ++ v :: stack = (v :: vs).reverse ++ stack := by simp
      rw [hstack]
      exact runSteps_cons_append (v :: vs) (.call v vs) (congrArg (· + 1) hlen.symm) rfl ss stack
    | index a is =>
      obtain ⟨ha, his⟩ := List.forall_mem_cons.mp ih
      rw [Node.steps, List.append_assoc, List.append_assoc, ha, Node.run, Run.feed_bind]
      refine Run.feed_congr fun v _ => ?_
      rw [runSteps_stepsItems his, Run.feed_bind]
      refine Run.feed_congr fun vs hvs => ?_
      -- the layout of the items tells how to take their values from the stack again
      have hvalues := IndexItem.outcome_runList_eq_ok_iff.mp hvs
      have hstack : (vs.flatMap IndexValue.values).reverse ++ v :: stack =
          (v :: vs.flatMap IndexValue.values).reverse ++ stack := by simp
      have hoperation : (Instruction.index (is.map IndexItem.layout)).operation?
          (v :: vs.flatMap IndexValue.values) = some (.index v vs, some (.index v vs)) := by
        rw [Instruction.operation?, ItemLayout.takeAll?_values hvalues, Option.map_some]
      rw [hstack]
      exact runSteps_cons_append _ (.index v vs)
        (congrArg (· + 1) (ItemLayout.length_values hvalues)) hoperation ss stack
    | list es =>
      have hes : ∀ e ∈ es, Simulates w e := ih
      rw [Node.steps, List.append_assoc, runSteps_stepsList hes, Node.run, Run.feed_bind]
      refine Run.feed_congr fun vs hvs => ?_
      have hlen := (Node.outcome_runList_eq_ok_iff.mp hvs).length_eq
      exact runSteps_cons_append (s := ⟨.list es, .list es.length⟩) vs (.list vs) hlen.symm rfl ss
        stack

/-- A run that fails has executed the steps up to the first one that fails. -/
theorem exists_failing_step {ss : List Step} {stack : List V} {ops : List (Performed V E)}
    {x : EvalError V E} (h : runSteps w ss stack = some ⟨ops, .error x⟩) :
    ∃ before s after stack' ops' op, ss = before ++ s :: after ∧
      runSteps w before stack = some ⟨ops', .ok stack'⟩ ∧
      s.execute w stack' = some ⟨op, .error x⟩ ∧ ops = ops' ++ op := by
  induction ss generalizing stack ops with
  | nil => cases h
  | cons s ss ih =>
    rw [runSteps] at h
    obtain ⟨⟨op, outcome⟩, hs, hfeed⟩ := Option.bind_eq_some_iff.mp h
    cases outcome with
    | error y =>
      cases hfeed
      exact ⟨[], s, ss, stack, [], op, rfl, rfl, hs, rfl⟩
    | ok stack' =>
      obtain ⟨⟨ops', outcome'⟩, hss, hsame⟩ := Option.map_eq_some_iff.mp hfeed
      cases hsame
      obtain ⟨before, s', after, stack'', ops'', op', rfl, hbefore, hs', rfl⟩ := ih hss
      refine ⟨s :: before, s', after, stack'', op ++ ops'', op', rfl, ?_, hs', ?_⟩
      · rw [runSteps, hs, Option.bind_some, Run.feed_ok, hbefore]
        rfl
      · exact (List.append_assoc op ops'' op').symm

/-- **The evaluator is the machine.** Running the steps of a tree on the empty stack has the outcome
of the tree, with its value alone on the stack, and performs the same operations. If the tree has no
value, then some step is the first one that fails: it fails as the tree does, and the operations
performed are those of the steps before it and its own. -/
theorem run_eq_runSteps (w : World V E) (e : Node) :
    runSteps w e.steps [] = some ⟨(e.run w).performed, (e.eval w).map fun v => [v]⟩ ∧
      ∀ x, e.eval w = .error x → ∃ before s after stack ops op, e.steps = before ++ s :: after ∧
        runSteps w before [] = some ⟨ops, .ok stack⟩ ∧ s.execute w stack = some ⟨op, .error x⟩ ∧
        (e.run w).performed = ops ++ op := by
  have hrun : runSteps w e.steps [] =
      some ⟨(e.run w).performed, (e.eval w).map fun v => [v]⟩ := by
    have hsteps := simulates w e [] []
    rw [List.append_nil] at hsteps
    rw [hsteps, Run.feed, Node.eval]
    cases (e.run w).outcome with
    | error x => rfl
    | ok v => exact congrArg (fun ops => some (Run.mk ops _)) (List.append_nil _)
  refine ⟨hrun, fun x hx => exists_failing_step ?_⟩
  rw [hrun, hx]
  rfl

end ShapeFault
