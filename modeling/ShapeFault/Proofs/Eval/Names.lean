import ShapeFault.Proofs.Eval.Agreement

/-!
# Names and their values

The names that a tree reads are those outside of the targets of its assignments. An evaluation
depends on nothing else of its environment, and on a name only if it gets as far as to look it up
(`eval_depends_on_names_read`). A name that is bound to the value of an expression can be replaced
by the expression (`eval_replaceName`).
-/

namespace ShapeFault

variable {V E : Type}

/-- The same world with other values of names. -/
def World.withNames (w : World V E) (lookup : String → Option V) : World V E :=
  { w with lookup := lookup }

theorem World.host_withNames (w : World V E) (lookup : String → Option V) :
    (w.withNames lookup).host = w.host := rfl

/-- The same world with a name bound, in place of what it was bound to. -/
def World.bind (w : World V E) (x : String) (v : V) : World V E :=
  w.withNames fun id => if id = x then some v else w.lookup id

theorem World.lookup_bind (w : World V E) (x : String) (v : V) (id : String) :
    (w.bind x v).lookup id = if id = x then some v else w.lookup id := rfl

/-- Whether a name stands in a tree outside of the targets of assignments. -/
def Node.Reads (e : Node) (id : String) : Prop :=
  e.Evaluates (.name id)

theorem Node.reads_iff {e : Node} {id : String} :
    e.Reads id ↔ e = .name id ∨ ∃ c ∈ e.children, c.Reads id :=
  Relation.ReflTransGen.cases_head_iff

/-! ### The names that are read -/

/-- A name that is found to be unbound is one that the tree reads. -/
theorem Node.reads_of_eval_eq_unbound {w : World V E} {e : Node} {id : String}
    (h : e.eval w = .error (.unbound id)) : e.Reads id ∧ w.lookup id = none := by
  obtain ⟨m, hm, ⟨id', rfl, hnone, hid⟩ | ⟨o, -, hperform⟩⟩ := exists_origin h
  · obtain rfl := EvalError.unbound.inj hid
    exact ⟨hm, hnone⟩
  · exact absurd hperform World.outcome_perform_ne_unbound

/-- Environments with the same values for the names that a tree reads give the same outcome. -/
theorem Node.eval_withNames_of_reads {w : World V E} {e : Node} {lookup : String → Option V}
    (hsame : ∀ id, e.Reads id → lookup id = w.lookup id) :
    e.eval (w.withNames lookup) = e.eval w := by
  have h : Follows (fun _ => False) (fun x y => y = x) (e.eval w)
      (e.eval (w.withNames lookup)) := by
    refine follows (w.host_withNames lookup) (fun id hid => ?_) fun n o c _ => ?_
    · exact follows_name (hsame id hid) rfl
    · rfl
  exact h.eq fun _ _ => not_false

/-- An environment with more names gives the same outcome, unless a name was missing. -/
theorem Node.eval_withNames_of_bound {w : World V E} {e : Node} {lookup : String → Option V}
    (hmore : ∀ id v, w.lookup id = some v → lookup id = some v)
    (hbound : ∀ id, e.eval w ≠ .error (.unbound id)) :
    e.eval (w.withNames lookup) = e.eval w := by
  -- once a name is found to be unbound, the two evaluations may part
  have h : Follows (fun x => ∃ id, x = .unbound id) (fun x y => y = x) (e.eval w)
      (e.eval (w.withNames lookup)) := by
    refine follows (w.host_withNames lookup) (fun id _ => ?_) fun n o c _ => ?_
    · cases hid : w.lookup id with
      | some v => exact follows_name ((hmore id v hid).trans hid.symm) rfl
      | none =>
        rw [eval_name w, hid]
        exact .excused ⟨id, rfl⟩ _
    · rfl
  refine h.eq ?_
  rintro _ hx ⟨id, rfl⟩
  exact hbound id hx

/-- **An evaluation depends on the names that it reads.** Environments with the same values for the
names that the tree reads give the same outcome. So does an environment with more names, if the
outcome is not the error of an unbound name; and such an error is about a name that the tree reads
and that has no value. -/
theorem eval_depends_on_names_read (w : World V E) (e : Node) :
    (∀ lookup, (∀ id, e.Reads id → lookup id = w.lookup id) →
      e.eval (w.withNames lookup) = e.eval w) ∧
    (∀ lookup, (∀ id v, w.lookup id = some v → lookup id = some v) →
      (∀ id, e.eval w ≠ .error (.unbound id)) → e.eval (w.withNames lookup) = e.eval w) ∧
    ∀ id, e.eval w = .error (.unbound id) → e.Reads id ∧ w.lookup id = none :=
  ⟨fun _ => Node.eval_withNames_of_reads, fun _ => Node.eval_withNames_of_bound,
    fun _ => Node.reads_of_eval_eq_unbound⟩

/-- An assignment of `a` to `c` needs the value of `a` alone. A sum that traps keeps `c` from being
looked up behind it, and where `c` is looked up it is found to be unbound. -/
theorem eval_assign_a_to_c :
    (Node.assign .set (.name "c") (.name "a")).eval
        (combinesNothing.withNames fun id => if id = "a" then some 2 else none) =
      (Node.assign .set (.name "c") (.name "a")).eval combinesNothing ∧
    (Node.list [.binary .add (.name "a") (.name "b"), .name "c"]).eval
        (combinesNothing.bind "c" 5) =
      (Node.list [.binary .add (.name "a") (.name "b"), .name "c"]).eval combinesNothing ∧
    (Node.unary .neg (.name "c")).Reads "c" ∧ combinesNothing.lookup "c" = none := by
  refine ⟨(eval_depends_on_names_read _ _).1 _ fun id hid => ?_,
    (eval_depends_on_names_read _ _).2.1 _ (fun id v hid => ?_) (fun id => nofun),
    (eval_depends_on_names_read combinesNothing _).2.2 "c" rfl⟩
  · obtain hassign | ⟨c, hc, hread⟩ := Node.reads_iff.mp hid
    · cases hassign
    · obtain rfl := List.mem_singleton.mp hc
      obtain ha | ⟨c, hc, -⟩ := Node.reads_iff.mp hread
      · obtain rfl := Node.name.inj ha
        rfl
      · cases hc
  · have hne : id ≠ "c" := by
      rintro rfl
      cases hid
    exact (if_neg hne).trans hid

/-! ### Expressions in place of names -/

/-- The error with another node in its trap. -/
def EvalError.mapNode (g : Node → Node) : EvalError V E → EvalError V E
  | .unbound id => .unbound id
  | .trap t => .trap ⟨g t.node, t.operands, t.cause⟩
  | .host c => .host c

theorem World.errorOf_mapNode (w : World V E) (g : Node → Node) (n : Node) (o : Operation V)
    (c : E) : w.errorOf (g n) o c = (w.errorOf n o c).mapNode g := by
  unfold errorOf
  cases o.operands? with
  | none => rfl
  | some operands => by_cases hc : w.isShapeFailure c <;> simp only [hc] <;> rfl

/-- **Replacing a name by an expression** with its value changes nothing: there is the same value or
the same error, and a trap has the same operands and cause at the node that the replacement makes of
the one that trapped before. -/
theorem eval_replaceName {w : World V E} {x : String} {e : Node} {v : V} (he : e.eval w = .ok v)
    (t : Node) : (t.replaceName x e).eval w =
      (t.eval (w.bind x v)).mapError (EvalError.mapNode (·.replaceName x e)) := by
  have hhost : w.host = (w.bind x v).host := rfl
  refine Follows.eq_mapError ?_
  refine Node.follows_substitute hhost (fun id _ => ?_) fun n o c _ => ?_
  · by_cases hid : id = x
    · have hname : (Node.name id).eval (w.bind x v) = .ok v := by
        rw [Node.eval_name, World.lookup_bind, if_pos hid, Option.elim_some]
      have hparen : (Node.paren e).eval w = .ok v := he
      rw [if_pos hid, hname, hparen]
      exact .ok v
    · rw [if_neg hid]
      exact Node.follows_name (if_neg hid).symm rfl
  · exact w.errorOf_mapNode (·.replaceName x e) n o c

/-- With `-a` in the place of `x`, the value of `x[x] = [x, b + x]` traps at `b + (-a)`. -/
theorem eval_replaceName_list_of_sum :
    (Node.unary .neg (.name "a")).eval combinesNothing = .ok 0 ∧
      ((Node.assign .set (.index (.name "x") [.expr (.name "x")])
          (.list [.name "x", .binary .add (.name "b") (.name "x")])).replaceName "x"
            (.unary .neg (.name "a"))).eval combinesNothing =
        .error (.trap ⟨.binary .add (.name "b") (.paren (.unary .neg (.name "a"))), .binary 3 0,
          "shapes do not fit"⟩) :=
  have h : (Node.unary .neg (.name "a")).eval combinesNothing = .ok 0 := rfl
  ⟨h, (eval_replaceName h _).trans rfl⟩

end ShapeFault
