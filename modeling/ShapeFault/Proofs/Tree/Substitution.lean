import ShapeFault.Proofs.Tree.Parts

/-!
# Trees in place of names

`Node.substitute` puts trees in the place of all names of a tree, but for those in the targets of
assignments. `Node.replaceName` does so with one name, and puts parentheses around the tree that
takes its place.
-/

namespace ShapeFault

mutual

/-- A tree with the tree `f id` in the place of each name `id`. The targets of assignments stay as
they are. -/
def Node.substitute (f : String → Node) : Node → Node
  | .name id => f id
  | .literal l => .literal l
  | .unary op e => .unary op (e.substitute f)
  | .binary op a b => .binary op (a.substitute f) (b.substitute f)
  | .assign op target e => .assign op target (e.substitute f)
  | .member e id => .member (e.substitute f) id
  | .call g as => .call (g.substitute f) (Node.substituteList f as)
  | .index a is => .index (a.substitute f) (IndexItem.substituteList f is)
  | .list es => .list (Node.substituteList f es)
  | .paren e => .paren (e.substitute f)

/-- Substitution in the trees of a list. -/
def Node.substituteList (f : String → Node) : List Node → List Node
  | [] => []
  | e :: es => e.substitute f :: Node.substituteList f es

/-- Substitution in a bound of a slice. -/
def Node.substituteBound (f : String → Node) : Option Node → Option Node
  | none => none
  | some e => some (e.substitute f)

/-- Substitution in an item of an index. -/
def IndexItem.substitute (f : String → Node) : IndexItem → IndexItem
  | .expr e => .expr (e.substitute f)
  | .slice a b c stepped =>
    .slice (Node.substituteBound f a) (Node.substituteBound f b) (Node.substituteBound f c) stepped
  | .full => .full
  | .ellipsis => .ellipsis

/-- Substitution in the items of an index. -/
def IndexItem.substituteList (f : String → Node) : List IndexItem → List IndexItem
  | [] => []
  | i :: is => i.substitute f :: IndexItem.substituteList f is

end

/-- A tree with `e` in parentheses in the place of a name. -/
def Node.replaceName (t : Node) (x : String) (e : Node) : Node :=
  t.substitute fun id => if id = x then .paren e else .name id

/-! ### A name in place of itself -/

theorem Node.substituteList_name {es : List Node} (h : ∀ e ∈ es, e.substitute .name = e) :
    Node.substituteList .name es = es := by
  induction es with
  | nil => rfl
  | cons e es ih =>
    obtain ⟨he, hes⟩ := List.forall_mem_cons.mp h
    rw [Node.substituteList, he, ih hes]

theorem Node.substituteBound_name {b : Option Node} (h : ∀ e ∈ b.toList, e.substitute .name = e) :
    Node.substituteBound .name b = b := by
  cases b with
  | none => rfl
  | some e => rw [Node.substituteBound, h e (List.mem_singleton_self e)]

theorem IndexItem.substitute_name {i : IndexItem} (h : ∀ e ∈ i.parts, e.substitute .name = e) :
    i.substitute .name = i := by
  cases i with
  | expr e => rw [IndexItem.substitute, h e (List.mem_singleton_self e)]
  | slice a b c stepped =>
    obtain ⟨hab, hc⟩ := List.forall_mem_append.mp h
    obtain ⟨ha, hb⟩ := List.forall_mem_append.mp hab
    rw [IndexItem.substitute, Node.substituteBound_name ha, Node.substituteBound_name hb,
      Node.substituteBound_name hc]
  | full | ellipsis => rfl

theorem IndexItem.substituteList_name {is : List IndexItem}
    (h : ∀ e ∈ is.flatMap IndexItem.parts, e.substitute .name = e) :
    IndexItem.substituteList .name is = is := by
  induction is with
  | nil => rfl
  | cons i is ih =>
    obtain ⟨hi, his⟩ := List.forall_mem_append.mp (List.flatMap_cons ▸ h)
    rw [IndexItem.substituteList, IndexItem.substitute_name hi, ih his]

/-- A tree does not change if each name takes its own place. -/
theorem Node.substitute_name (e : Node) : e.substitute .name = e := by
  induction e using Node.parts_induction with
  | h e ih =>
    cases e with
    | name | literal => rfl
    | unary | member | paren => rw [Node.substitute, ih _ (List.mem_singleton_self _)]
    | binary op a b =>
      rw [Node.substitute, ih a List.mem_cons_self,
        ih b (List.mem_cons_of_mem a (List.mem_singleton_self b))]
    | assign op target e =>
      rw [Node.substitute, ih e (List.mem_cons_of_mem target (List.mem_singleton_self e))]
    | call f as =>
      obtain ⟨hf, has⟩ := List.forall_mem_cons.mp ih
      rw [Node.substitute, hf, Node.substituteList_name has]
    | index a is =>
      obtain ⟨ha, his⟩ := List.forall_mem_cons.mp ih
      rw [Node.substitute, ha, IndexItem.substituteList_name his]
    | list es =>
      have hes : ∀ e ∈ es, e.substitute .name = e := ih
      rw [Node.substitute, Node.substituteList_name hes]

end ShapeFault
