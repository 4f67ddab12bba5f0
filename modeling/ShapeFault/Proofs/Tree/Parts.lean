import Mathlib.Logic.Relation
import ShapeFault.Expr.Basic

/-!
# The trees within a tree

`Node.parts` lists the trees that a tree is directly made of, whatever its form, so that one
relation, `Node.Contains`, reaches every tree within it.
-/

namespace ShapeFault

/-- The trees that an item of an index is directly made of. -/
def IndexItem.parts : IndexItem → List Node
  | .expr e => [e]
  | .slice a b c _ => a.toList ++ b.toList ++ c.toList
  | .full | .ellipsis => []

theorem IndexItem.sizeOf_lt_of_mem_parts {i : IndexItem} {p : Node} (h : p ∈ i.parts) :
    sizeOf p < sizeOf i := by
  cases i with
  | expr e =>
    obtain rfl := List.mem_singleton.mp h
    rw [expr.sizeOf_spec]
    omega
  | slice a b c stepped =>
    simp only [parts, List.mem_append, Option.mem_toList] at h
    rcases h with (h | h) | h <;> cases h <;>
      simp only [slice.sizeOf_spec, Option.some.sizeOf_spec] <;> omega
  | full | ellipsis => cases h

namespace Node

/-- The trees that a tree is directly made of. -/
def parts : Node → List Node
  | name _ | literal _ => []
  | unary _ e | member e _ | paren e => [e]
  | binary _ a b => [a, b]
  | assign _ t v => [t, v]
  | call f as => f :: as
  | index a is => a :: is.flatMap IndexItem.parts
  | list es => es

/-- The parts of a tree are smaller than the tree. -/
theorem sizeOf_lt_of_mem_parts {e p : Node} (h : p ∈ e.parts) : sizeOf p < sizeOf e := by
  cases e with
  | name | literal => cases h
  | unary | member | paren =>
    obtain rfl := List.mem_singleton.mp h
    simp only [unary.sizeOf_spec, member.sizeOf_spec, paren.sizeOf_spec]
    omega
  | binary | assign =>
    simp only [parts, List.mem_cons, List.not_mem_nil, or_false] at h
    simp only [binary.sizeOf_spec, assign.sizeOf_spec]
    rcases h with rfl | rfl <;> omega
  | call f as =>
    rw [call.sizeOf_spec]
    rcases List.mem_cons.mp h with rfl | h
    · omega
    · have hlist := List.sizeOf_lt_of_mem h
      omega
  | index a is =>
    rw [index.sizeOf_spec]
    rcases List.mem_cons.mp h with rfl | h
    · omega
    · obtain ⟨i, hi, hp⟩ := List.mem_flatMap.mp h
      have hlist := List.sizeOf_lt_of_mem hi
      have hitem := i.sizeOf_lt_of_mem_parts hp
      omega
  | list es =>
    have hlist : sizeOf p < sizeOf es := List.sizeOf_lt_of_mem h
    rw [list.sizeOf_spec]
    omega

/-- **Induction over a tree.** A statement that passes from the parts of a tree to the tree holds of
all trees. -/
theorem parts_induction {P : Node → Prop} (h : ∀ e, (∀ p ∈ e.parts, P p) → P e) (e : Node) : P e :=
  h e fun p _ => parts_induction h p
termination_by sizeOf e
decreasing_by exact sizeOf_lt_of_mem_parts ‹_›

/-- `e.Contains m` says that `m` is `e` itself or stands somewhere within it. -/
def Contains (e m : Node) : Prop :=
  Relation.ReflTransGen (fun a b => b ∈ a.parts) e m

/-- What a tree contains is the tree itself or contained in one of its parts. -/
theorem contains_iff {e m : Node} : e.Contains m ↔ m = e ∨ ∃ p ∈ e.parts, p.Contains m := by
  rw [Contains, Relation.ReflTransGen.cases_head_iff]
  exact or_congr eq_comm Iff.rfl

/-- A statement holds of everything within a tree if it holds of the tree and of everything within
its parts. -/
theorem forall_contains_iff {P : Node → Prop} {e : Node} :
    (∀ m, e.Contains m → P m) ↔ P e ∧ ∀ p ∈ e.parts, ∀ m, p.Contains m → P m := by
  constructor
  · intro h
    exact ⟨h e (contains_iff.mpr (Or.inl rfl)),
      fun p hp m hm => h m (contains_iff.mpr (Or.inr ⟨p, hp, hm⟩))⟩
  · rintro ⟨he, hparts⟩ m hm
    rcases contains_iff.mp hm with rfl | ⟨p, hp, hpm⟩
    · exact he
    · exact hparts p hp m hpm

end Node

end ShapeFault
