import ShapeFault.Proofs.Eval.Trap
import ShapeFault.Proofs.Tree.Substitution

/-!
# Two evaluations side by side

Two evaluations in worlds with the same host go through the same operations as long as they get the
same values. `Follows` says what is asked of the second one: the values of the first, and for each
of its errors one that answers it; there may be errors after which nothing is asked. The second
tree is the first one with trees in the place of its names. If these follow the names, and the
errors of single operations are answered, the second evaluation follows the first
(`Node.follows_substitute`, and `Node.follows` for one and the same tree).
-/

namespace ShapeFault

variable {V E : Type}

/-- How the second of two outcomes follows the first: a value is the same in both, and an error is
answered by an error. Nothing is asked after an error that is excused. -/
inductive Follows (excused : EvalError V E → Prop) (answers : EvalError V E → EvalError V E → Prop)
    {α : Type} : Except (EvalError V E) α → Except (EvalError V E) α → Prop where
  | ok (a : α) : Follows excused answers (.ok a) (.ok a)
  | error {x y : EvalError V E} (h : answers x y) : Follows excused answers (.error x) (.error y)
  | excused {x : EvalError V E} (h : excused x) (r : Except (EvalError V E) α) :
      Follows excused answers (.error x) r

variable {excused : EvalError V E → Prop} {answers : EvalError V E → EvalError V E → Prop}

namespace Follows

variable {α β : Type}

/-- If no error is excused and each one has a single answer, the answers make up the difference. -/
theorem eq_mapError {g : EvalError V E → EvalError V E} {r r' : Except (EvalError V E) α}
    (h : Follows (fun _ => False) (fun x y => y = g x) r r') : r' = r.mapError g := by
  cases h with
  | ok a => rfl
  | error h => rw [h, Except.mapError]
  | excused h => exact h.elim

/-- If errors are answered by themselves, only an excused error makes the outcomes differ. -/
theorem eq {r r' : Except (EvalError V E) α} (h : Follows excused (fun x y => y = x) r r')
    (hr : ∀ x, r = .error x → ¬ excused x) : r' = r := by
  cases h with
  | ok a => rfl
  | error h => rw [h]
  | excused h => exact absurd h (hr _ rfl)

theorem pure (a : α) :
    Follows excused answers (Pure.pure a : Run V E α).outcome (Pure.pure a : Run V E α).outcome :=
  .ok a

theorem bind {r r' : Run V E α} {k k' : α → Run V E β}
    (h : Follows excused answers r.outcome r'.outcome)
    (hk : ∀ a, Follows excused answers (k a).outcome (k' a).outcome) :
    Follows excused answers (r >>= k).outcome (r' >>= k').outcome := by
  rw [Run.outcome_bind, Run.outcome_bind]
  generalize r.outcome = o, r'.outcome = o' at h
  cases h with
  | ok a => exact hk a
  | error h => exact .error h
  | excused h => exact .excused h _

end Follows

variable {w w' : World V E} {f : String → Node}

theorem Node.eval_name (w : World V E) (id : String) :
    (Node.name id).eval w = (w.lookup id).elim (.error (.unbound id)) .ok := by
  rw [Node.eval, Node.run, World.valueOf]
  cases w.lookup id <;> rfl

/-- A name follows itself if it has the same value, or none, in both worlds. -/
theorem Node.follows_name {id : String} (hlookup : w'.lookup id = w.lookup id)
    (hunbound : answers (.unbound id) (.unbound id)) :
    Follows excused answers ((Node.name id).eval w) ((Node.name id).eval w') := by
  rw [eval_name, eval_name, hlookup]
  cases w.lookup id with
  | some v => exact .ok v
  | none => exact .error hunbound

/-- One operation, asked for by different nodes. -/
theorem World.follows_perform (hhost : w'.host = w.host) {n n' : Node} {o : Operation V}
    (hfail : ∀ c, w.host o = .error c → answers (w.errorOf n o c) (w'.errorOf n' o c)) :
    Follows excused answers (w.perform n o).outcome (w'.perform n' o).outcome := by
  rw [outcome_perform, outcome_perform, hhost]
  cases ho : w.host o with
  | ok v => exact .ok v
  | error c => exact .error (hfail c ho)

/-! ### Lists, bounds and items -/

theorem Node.follows_runList {es : List Node}
    (h : ∀ e ∈ es, Follows excused answers (e.eval w) ((e.substitute f).eval w')) :
    Follows excused answers (Node.runList w es).outcome
      (Node.runList w' (Node.substituteList f es)).outcome := by
  induction es with
  | nil => exact .pure []
  | cons e es ih =>
    obtain ⟨he, hes⟩ := List.forall_mem_cons.mp h
    exact .bind he fun _ => .bind (ih hes) fun _ => .pure _

theorem Node.follows_runBound {b : Option Node}
    (h : ∀ e ∈ b.toList, Follows excused answers (e.eval w) ((e.substitute f).eval w')) :
    Follows excused answers (Node.runBound w b).outcome
      (Node.runBound w' (Node.substituteBound f b)).outcome := by
  cases b with
  | none => exact .pure none
  | some e => exact .bind (h e (List.mem_singleton_self e)) fun _ => .pure _

theorem IndexItem.follows_run {i : IndexItem}
    (h : ∀ e ∈ i.parts, Follows excused answers (e.eval w) ((e.substitute f).eval w')) :
    Follows excused answers (i.run w).outcome ((i.substitute f).run w').outcome := by
  cases i with
  | expr e => exact .bind (h e (List.mem_singleton_self e)) fun _ => .pure _
  | slice a b c stepped =>
    obtain ⟨hab, hc⟩ := List.forall_mem_append.mp h
    obtain ⟨ha, hb⟩ := List.forall_mem_append.mp hab
    exact .bind (Node.follows_runBound ha) fun _ => .bind (Node.follows_runBound hb) fun _ =>
      .bind (Node.follows_runBound hc) fun _ => .pure _
  | full | ellipsis => exact .pure _

theorem IndexItem.follows_runList {is : List IndexItem}
    (h : ∀ e ∈ is.flatMap IndexItem.parts,
      Follows excused answers (e.eval w) ((e.substitute f).eval w')) :
    Follows excused answers (IndexItem.runList w is).outcome
      (IndexItem.runList w' (IndexItem.substituteList f is)).outcome := by
  induction is with
  | nil => exact .pure []
  | cons i is ih =>
    obtain ⟨hi, his⟩ := List.forall_mem_append.mp (List.flatMap_cons ▸ h)
    exact .bind (IndexItem.follows_run hi) fun _ => .bind (ih his) fun _ => .pure _

/-! ### Trees -/

/-- **One level.** A tree follows if its children do and its own name or operation does. -/
theorem Node.follows_of_children (hhost : w'.host = w.host) {e : Node}
    (hname : ∀ id, e = .name id → Follows excused answers (e.eval w) ((f id).eval w'))
    (hfail : ∀ o c, w.host o = .error c → answers (w.errorOf e o c)
      (w'.errorOf (e.substitute f) o c))
    (h : ∀ c ∈ e.children, Follows excused answers (c.eval w) ((c.substitute f).eval w')) :
    Follows excused answers (e.eval w) ((e.substitute f).eval w') := by
  have hperform : ∀ o, Follows excused answers (w.perform e o).outcome
      (w'.perform (e.substitute f) o).outcome :=
    fun o => World.follows_perform hhost fun c => hfail o c
  cases e with
  | name id => exact hname id rfl
  | literal l => exact hperform (.literal l)
  | unary op a => exact .bind (h a (List.mem_singleton_self a)) fun v => hperform (.unary op v)
  | binary op a b =>
    exact .bind (h a List.mem_cons_self) fun v =>
      .bind (h b (List.mem_cons_of_mem a (List.mem_singleton_self b))) fun u =>
        hperform (.binary op v u)
  | assign op target a => exact h a (List.mem_singleton_self a)
  | member a id => exact .bind (h a (List.mem_singleton_self a)) fun v => hperform (.member v id)
  | call g as =>
    obtain ⟨hg, has⟩ := List.forall_mem_cons.mp h
    exact .bind hg fun v => .bind (Node.follows_runList has) fun vs => hperform (.call v vs)
  | index a is =>
    obtain ⟨ha, his⟩ := List.forall_mem_cons.mp h
    exact .bind ha fun v => .bind (IndexItem.follows_runList his) fun vs => hperform (.index v vs)
  | list es => exact .bind (Node.follows_runList h) fun vs => hperform (.list vs)
  | paren a => exact h a (List.mem_singleton_self a)

/-- **Agreement.** A tree with trees in the place of its names follows the tree itself, if each of
them follows the name whose place it takes and the errors of operations are answered. -/
theorem Node.follows_substitute (hhost : w'.host = w.host) {e : Node}
    (hname : ∀ id, e.Evaluates (.name id) →
      Follows excused answers ((Node.name id).eval w) ((f id).eval w'))
    (hfail : ∀ n o c, w.host o = .error c → answers (w.errorOf n o c)
      (w'.errorOf (n.substitute f) o c)) :
    Follows excused answers (e.eval w) ((e.substitute f).eval w') := by
  -- the names of a child are names of the tree, so the hypothesis passes on to the children
  induction e using Node.parts_induction with
  | h e ih =>
    refine follows_of_children hhost ?_ (hfail e) fun c hc => ?_
    · rintro id rfl
      exact hname id .refl
    · exact ih c (e.children_subset_parts hc) fun id hid => hname id (.head hc hid)

/-- Agreement for one tree in two worlds. -/
theorem Node.follows (hhost : w'.host = w.host) {e : Node}
    (hname : ∀ id, e.Evaluates (.name id) →
      Follows excused answers ((Node.name id).eval w) ((Node.name id).eval w'))
    (hfail : ∀ n o c, w.host o = .error c → answers (w.errorOf n o c) (w'.errorOf n o c)) :
    Follows excused answers (e.eval w) (e.eval w') := by
  have h := follows_substitute hhost hname fun n o c ho => by
    rw [n.substitute_name]
    exact hfail n o c ho
  rwa [e.substitute_name] at h

end ShapeFault
