import ShapeFault.Explain
import ShapeFault.Proofs.Eval.Trap

/-!
# What the explanation of a trap says

An explanation is made of a node and of operands that are given with it, and it is given up if
these do not belong together. With a trap they always do (`LinesUp`), since the operands are the
values of the parts of the node. So the explanation can be told from the tree and the world alone:
`Node.reported` lists the parts that are reported, each with its place, and `Node.mentions` keeps
those whose value has a shape with an axis.

Main statement: there is an explanation of a trap exactly if a reported operand has such a shape,
and its text names the node and these operands (`explanation_names_shaped_operands`).
-/

namespace ShapeFault

/-- Where a reported operand stands in its node. Arguments and items are counted from zero. -/
inductive Place where
  | operand
  | left
  | right
  | argument (position : Nat)
  | array
  | item (position : Nat)
  deriving DecidableEq, Repr

namespace Place

def text : Place → String
  | operand => "operand"
  | left => "left operand"
  | right => "right operand"
  | argument n => "argument #" ++ n.repr
  | array => "array"
  | item n => "index #" ++ n.repr

/-- A node works on the operands of its operator or on its array, with arguments and items. -/
def isSubject : Place → Bool
  | argument _ | item _ => false
  | _ => true

end Place

/-- An operand with its place and the shape of its value. -/
structure Mention where
  place : Place
  node : Node
  shape : Shape

def Mention.text (m : Mention) : String :=
  m.place.text ++ " " ++ m.node.source ++ " w/shape " ++ m.shape.text

/-- Mentions behind a joining word, or nothing. -/
def Mention.phrase (word separator : String) (ms : List Mention) : String :=
  if ms = [] then "" else word ++ String.intercalate separator (ms.map text)

namespace Node

/-- The plain items among items with their positions. -/
def plainItems (is : List (IndexItem × Nat)) : List (Place × Node) :=
  is.filterMap fun
    | (.expr e, n) => some (.item n, e)
    | _ => none

/-- The operands of a node that are reported, in their order: those of operators, the arguments but
not the callee of a call, the array and the plain items of an index. -/
def reported : Node → List (Place × Node)
  | unary _ e => [(.operand, e)]
  | binary _ a b => [(.left, a), (.right, b)]
  | call _ as => as.zipIdx.map fun (a, n) => (.argument n, a)
  | index a is => (.array, a) :: plainItems is.zipIdx
  | _ => []

/-- The shape of the value of a tree, if it has an axis. -/
def shapeIn {V E : Type} (w : World V E) (shapeOf : V → Option Shape) (e : Node) : Option Shape :=
  match e.eval w with
  | .ok v => (shapeOf v).filter fun s => 0 < s.rank
  | .error _ => none

/-- What is said of a tree in its place, if its value has a shape with an axis. -/
def mention? {V E : Type} (w : World V E) (shapeOf : V → Option Shape) (place : Place) (e : Node) :
    Option Mention :=
  (e.shapeIn w shapeOf).map (Mention.mk place e)

/-- The trees whose values have shapes with an axis, in their places. -/
def mentionsOf {V E : Type} (w : World V E) (shapeOf : V → Option Shape)
    (ps : List (Place × Node)) : List Mention :=
  ps.filterMap fun p => mention? w shapeOf p.1 p.2

/-- The reported operands whose values have shapes with an axis. -/
def mentions {V E : Type} (w : World V E) (shapeOf : V → Option Shape) (m : Node) : List Mention :=
  mentionsOf w shapeOf m.reported

/-- The text that names a node and some of its operands. -/
def causeText (m : Node) (ms : List Mention) : String :=
  "Cause: " ++ m.source ++ Mention.phrase " on " " and " (ms.filter (·.place.isSubject)) ++
    Mention.phrase " with " ", " (ms.filter (!·.place.isSubject))

end Node

/-- An item of an index and an evaluated one are of the same form. -/
def IndexItem.SameForm {V : Type} : IndexItem → IndexValue V → Prop
  | .expr _, .value _ | .slice .., .slice .. | .full, .full | .ellipsis, .ellipsis => True
  | _, _ => False

/-- Operands are those of a node: of its form, and one for each argument or item. -/
inductive LinesUp {V : Type} : Node → Operands V → Prop where
  | unary {op : UnaryOp} {e : Node} {v : V} : LinesUp (.unary op e) (.unary v)
  | binary {op : BinaryOp} {a b : Node} {v u : V} : LinesUp (.binary op a b) (.binary v u)
  | call {f : Node} {as : List Node} {v : V} {vs : List V} (has : as.length = vs.length) :
      LinesUp (.call f as) (.call v vs)
  | index {a : Node} {is : List IndexItem} {v : V} {vs : List (IndexValue V)}
      (his : List.Forall₂ IndexItem.SameForm is vs) : LinesUp (.index a is) (.index v vs)

variable {V E : Type} {w : World V E} {shapeOf : V → Option Shape}

theorem IndexItem.HasValue.sameForm {i : IndexItem} {v : IndexValue V} (h : i.HasValue w v) :
    i.SameForm v := by
  cases h <;> trivial

/-- **The recorded operands of an operation line up with its node.** -/
theorem Operates.linesUp {m : Node} {o : Operation V} {operands : Operands V}
    (h : Operates w m o operands) : LinesUp m operands := by
  cases h with
  | unary => exact .unary
  | binary => exact .binary
  | call _ has => exact .call has.length_eq
  | index _ his => exact .index (his.imp fun _ _ => IndexItem.HasValue.sameForm)

theorem Node.mentionsOf_cons (p : Place × Node) (ps : List (Place × Node)) :
    mentionsOf w shapeOf (p :: ps) = (mention? w shapeOf p.1 p.2).toList ++
      mentionsOf w shapeOf ps := by
  rw [mentionsOf, List.filterMap_cons]
  cases mention? w shapeOf p.1 p.2 <;> rfl

theorem Node.mentionsOf_singleton (place : Place) (e : Node) :
    mentionsOf w shapeOf [(place, e)] = (mention? w shapeOf place e).toList := by
  rw [mentionsOf_cons]
  exact List.append_nil _

/-- Mentions have the places that were given. -/
theorem Node.isSubject_of_mem_mentionsOf {b : Bool} {ps : List (Place × Node)}
    (hps : ∀ p ∈ ps, p.1.isSubject = b) :
    ∀ n ∈ mentionsOf w shapeOf ps, n.place.isSubject = b := by
  intro n hn
  obtain ⟨p, hp, hmention⟩ := List.mem_filterMap.mp hn
  obtain ⟨s, -, rfl⟩ := Option.map_eq_some_iff.mp hmention
  exact hps p hp

theorem Node.isSubject_of_mem_plainItems {is : List (IndexItem × Nat)} :
    ∀ p ∈ plainItems is, p.1.isSubject = false := by
  intro p hp
  obtain ⟨⟨i, n⟩, -, hi⟩ := List.mem_filterMap.mp hp
  cases i <;> cases hi
  rfl

namespace Explain

/-! ### Descriptions and mentions -/

/-- What one operand contributes. -/
theorem toList_describe?_eq {e : Node} {v : V} (he : e.eval w = .ok v) (place : Place) :
    (describe? place.text e.source (shapeOf v)).toList =
      (Node.mention? w shapeOf place e).toList.map Mention.text := by
  simp only [Node.mention?, Node.shapeIn, he]
  cases shapeOf v with
  | none => rfl
  | some s => cases s <;> rfl

/-- **Arguments**, by induction on them. Their places are counted before any is left out. -/
theorem describeAll_arguments {as : List Node} {vs : List V}
    (has : List.Forall₂ (fun e v => e.eval w = .ok v) as vs) (n : Nat) :
    describeAll "argument" n ((as.map Node.source).zip (vs.map shapeOf)) =
      (Node.mentionsOf w shapeOf ((as.zipIdx n).map fun (a, n) => (.argument n, a))).map
        Mention.text := by
  induction has generalizing n with
  | nil => rfl
  | @cons a v as vs ha _ ih =>
    have hplace : "argument" ++ " #" ++ n.repr = (Place.argument n).text := rfl
    rw [List.map_cons, List.map_cons, List.zip_cons_cons, describeAll, ih, hplace,
      toList_describe?_eq ha, List.zipIdx_cons, List.map_cons, Node.mentionsOf_cons,
      List.map_append]

/-- **Items**, by induction on them. Those that are no plain values are counted and left out. -/
theorem describeAll_items {is : List IndexItem} {vs : List (IndexValue V)}
    (his : List.Forall₂ (IndexItem.HasValue w) is vs) (n : Nat) :
    describeAll "index" n
        ((is.map IndexItem.source).zip (vs.map fun i => (plain? i).bind shapeOf)) =
      (Node.mentionsOf w shapeOf (Node.plainItems (is.zipIdx n))).map Mention.text := by
  induction his generalizing n with
  | nil => rfl
  | @cons i v is vs hi _ ih =>
    have hplace : "index" ++ " #" ++ n.repr = (Place.item n).text := rfl
    rw [List.map_cons, List.map_cons, List.zip_cons_cons, describeAll, ih, hplace,
      List.zipIdx_cons]
    cases hi with
    | @expr e v he =>
      have hitem : Node.plainItems ((.expr e, n) :: is.zipIdx (n + 1)) =
          (.item n, e) :: Node.plainItems (is.zipIdx (n + 1)) := rfl
      rw [hitem, Node.mentionsOf_cons, List.map_append, ← toList_describe?_eq he]
      rfl
    | slice | full | ellipsis => rfl

/-! ### The text -/

theorem clause_map (word separator : String) (ms : List Mention) :
    clause word separator (ms.map Mention.text) =
      Mention.phrase (" " ++ word ++ " ") separator ms := by
  cases ms with
  | nil => rfl
  | cons m ms => rfl

/-- A single description has no separator. -/
theorem clause_congr (word : String) {separator separator' : String} {ds : List String}
    (h : separator = separator' ∨ ds.length ≤ 1) :
    clause word separator ds = clause word separator' ds := by
  rcases h with rfl | h
  · rfl
  · match ds with
    | [] => rfl
    | [d] => simp [clause]
    | _ :: _ :: _ => simp at h

/-- **Composing.** The subjects of a node and what goes with them are all that is reported of it,
and their descriptions make the text that names the mentioned ones. -/
theorem compose_eq {m : Node} {ss cs : List (Place × Node)} {subjects companions : List String}
    {separator : String} (hreported : m.reported = ss ++ cs) (hss : ∀ p ∈ ss, p.1.isSubject)
    (hcs : ∀ p ∈ cs, p.1.isSubject = false)
    (hsubjects : subjects = (Node.mentionsOf w shapeOf ss).map Mention.text)
    (hcompanions : companions = (Node.mentionsOf w shapeOf cs).map Mention.text)
    (hseparator : separator = " and " ∨ subjects.length ≤ 1) :
    compose m subjects separator companions =
      if m.mentions w shapeOf = [] then none else some (m.causeText (m.mentions w shapeOf)) := by
  have hmentions : m.mentions w shapeOf =
      Node.mentionsOf w shapeOf ss ++ Node.mentionsOf w shapeOf cs := by
    rw [Node.mentions, hreported]
    exact List.filterMap_append
  have hempty : subjects = [] ∧ companions = [] ↔ m.mentions w shapeOf = [] := by
    rw [hsubjects, hcompanions, hmentions, List.map_eq_nil_iff, List.map_eq_nil_iff,
      List.append_eq_nil_iff]
  have hsubject : (m.mentions w shapeOf).filter (·.place.isSubject) =
      Node.mentionsOf w shapeOf ss := by
    rw [hmentions, List.filter_append,
      List.filter_eq_self.mpr (Node.isSubject_of_mem_mentionsOf hss),
      List.filter_eq_nil_iff.mpr fun n hn =>
        Bool.eq_false_iff.mp (Node.isSubject_of_mem_mentionsOf hcs n hn), List.append_nil]
  have hcompanion : (m.mentions w shapeOf).filter (!·.place.isSubject) =
      Node.mentionsOf w shapeOf cs := by
    rw [hmentions, List.filter_append,
      List.filter_eq_nil_iff.mpr fun n hn => by simp [Node.isSubject_of_mem_mentionsOf hss n hn],
      List.filter_eq_self.mpr fun n hn => by simp [Node.isSubject_of_mem_mentionsOf hcs n hn],
      List.nil_append]
  have htext : "Cause: " ++ m.source ++ clause "on" separator subjects ++
      clause "with" ", " companions = m.causeText (m.mentions w shapeOf) := by
    rw [clause_congr "on" hseparator, hsubjects, hcompanions, clause_map, clause_map,
      Node.causeText, hsubject, hcompanion]
    rfl
  simp only [compose, hempty, htext]

end Explain

/-- **The explanation of an operation** whose operands are the values of the parts of its node names
the mentioned ones. -/
theorem Operates.explainOperands_eq {m : Node} {o : Operation V} {operands : Operands V}
    (h : Operates w m o operands) : explainOperands shapeOf m operands =
      if m.mentions w shapeOf = [] then none else some (m.causeText (m.mentions w shapeOf)) := by
  have hlength : ∀ {place source : String} {s : Option Shape},
      (Explain.describe? place source s).toList.length ≤ 1 :=
    fun {_ _ _} => Option.length_toList_le
  cases h with
  | @unary op e v he =>
    have hreported : (Node.unary op e).reported = [(.operand, e)] ++ [] := rfl
    have hoperand := @Explain.toList_describe?_eq V E w shapeOf e v he .operand
    rw [← Node.mentionsOf_singleton] at hoperand
    exact Explain.compose_eq hreported (List.forall_mem_singleton.mpr rfl) nofun hoperand rfl
      (Or.inr hlength)
  | @binary op a b v u ha hb =>
    have hreported : (Node.binary op a b).reported = [(.left, a), (.right, b)] ++ [] := rfl
    have hright := @Explain.toList_describe?_eq V E w shapeOf b u hb .right
    rw [← Node.mentionsOf_singleton] at hright
    refine Explain.compose_eq hreported ?_ nofun ?_ rfl (Or.inl rfl)
    · exact List.forall_mem_cons.mpr ⟨rfl, List.forall_mem_singleton.mpr rfl⟩
    · rw [Node.mentionsOf_cons, List.map_append, ← Explain.toList_describe?_eq ha, ← hright]
      rfl
  | @call f as v vs hf has =>
    have hreported : (Node.call f as).reported =
        [] ++ as.zipIdx.map fun (a, n) => (.argument n, a) := rfl
    refine (if_pos has.length_eq).trans ?_
    exact Explain.compose_eq hreported nofun (List.forall_mem_map.mpr fun _ _ => rfl) rfl
      (Explain.describeAll_arguments has 0) (Or.inr (Nat.zero_le 1))
  | @index a is v vs ha his =>
    have hreported : (Node.index a is).reported = [(.array, a)] ++ Node.plainItems is.zipIdx := rfl
    have harray := @Explain.toList_describe?_eq V E w shapeOf a v ha .array
    rw [← Node.mentionsOf_singleton] at harray
    refine (if_pos his.length_eq).trans ?_
    exact Explain.compose_eq hreported (List.forall_mem_singleton.mpr rfl)
      Node.isSubject_of_mem_plainItems harray (Explain.describeAll_items his 0) (Or.inr hlength)

/-- What is reported of a node is evaluated. -/
theorem Node.mem_children_of_reported {m : Node} : ∀ p ∈ m.reported, p.2 ∈ m.children := by
  intro p hp
  cases m with
  | unary => exact List.mem_singleton.mpr (congrArg Prod.snd (List.mem_singleton.mp hp))
  | binary op a b => exact List.mem_map_of_mem (f := Prod.snd) hp
  | call f as =>
    obtain ⟨⟨a, n⟩, ha, rfl⟩ := List.mem_map.mp hp
    exact List.mem_cons_of_mem f (List.fst_mem_of_mem_zipIdx ha)
  | index a is =>
    rcases List.mem_cons.mp hp with rfl | hp
    · exact List.mem_cons_self
    · obtain ⟨⟨i, n⟩, hi, hitem⟩ := List.mem_filterMap.mp hp
      have hmem := List.fst_mem_of_mem_zipIdx hi
      cases i <;> cases hitem
      exact List.mem_cons_of_mem a (List.mem_flatMap.mpr ⟨_, hmem, List.mem_singleton_self _⟩)
  | _ => cases hp

theorem Node.isSome_shapeIn_iff {e : Node} : (e.shapeIn w shapeOf).isSome ↔
    ∃ v s, e.eval w = .ok v ∧ shapeOf v = some s ∧ 0 < s.rank := by
  unfold shapeIn
  cases he : e.eval w with
  | error => simp
  | ok v => simp [Option.isSome_filter, Option.any_eq_true]

theorem Node.mentions_ne_nil_iff {m : Node} : m.mentions w shapeOf ≠ [] ↔
    ∃ p ∈ m.reported, ∃ v s, p.2.eval w = .ok v ∧ shapeOf v = some s ∧ 0 < s.rank := by
  simp only [← isSome_shapeIn_iff, mentions, mentionsOf, mention?, ne_eq,
    List.filterMap_eq_nil_iff, Option.map_eq_none_iff, not_forall, ← Option.isSome_iff_ne_none,
    exists_prop]

/-- **The explanation of a trap names exactly the operands with shapes.** The recorded operands
line up with the node, and what is reported of it has a value. There is an explanation exactly if
one of these values has a shape with an axis, and then its text is the one that names the node and
all operands with such shapes, in their order, each with its place, its source and its shape. -/
theorem explanation_names_shaped_operands {e : Node} {t : Trap V E}
    (h : e.eval w = .error (.trap t)) (shapeOf : V → Option Shape) :
    LinesUp t.node t.operands ∧
      (∀ p ∈ t.node.reported, ∃ v, p.2.eval w = .ok v) ∧
      ((t.explain shapeOf).isSome ↔ ∃ p ∈ t.node.reported, ∃ v s, p.2.eval w = .ok v ∧
        shapeOf v = some s ∧ 0 < s.rank) ∧
      ∀ text, t.explain shapeOf = some text →
        text = t.node.causeText (t.node.mentions w shapeOf) := by
  obtain ⟨-, o, ho, -⟩ := Node.evaluates_of_eval_eq_trap h
  have hexplain : t.explain shapeOf = if t.node.mentions w shapeOf = [] then none
      else some (t.node.causeText (t.node.mentions w shapeOf)) := ho.explainOperands_eq
  refine ⟨ho.linesUp, fun p hp => ho.exists_eval _ (Node.mem_children_of_reported p hp), ?_, ?_⟩
  · rw [hexplain, ← Node.mentions_ne_nil_iff]
    split <;> simp_all
  · intro text htext
    rw [hexplain] at htext
    split at htext
    · cases htext
    · exact (Option.some.inj htext).symm

/-- A world in which nothing can be indexed. -/
def indexesNothing : World Nat String where
  host
    | .index .. => .error "too many indices"
    | _ => .ok 0
  isShapeFailure _ := true
  lookup
    | "x" => some 0
    | "a" => some 1
    | "b" => some 2
    | _ => none

/-- The trap of `x[a, :, b]` where `a` has no axis. The explanation names `x` and `b`. -/
theorem explanation_of_index_by_full_and_name :
    ∃ t, (Node.index (.name "x") [.expr (.name "a"), .full, .expr (.name "b")]).eval
          indexesNothing = .error (.trap t) ∧
      t.explain (fun v => [[4, 5], [], [3]][v]?) =
        some "Cause: x[a, :, b] on array x w/shape (4, 5) with index #2 b w/shape (3,)" := by
  refine ⟨⟨.index (.name "x") [.expr (.name "a"), .full, .expr (.name "b")],
    .index 0 [.value 1, .full, .value 2], "too many indices"⟩, rfl, ?_⟩
  obtain ⟨-, -, hsome, htext⟩ := explanation_names_shaped_operands
    (w := indexesNothing)
    (e := .index (.name "x") [.expr (.name "a"), .full, .expr (.name "b")]) rfl
    fun v => [[4, 5], [], [3]][v]?
  obtain ⟨text, hexplain⟩ := Option.isSome_iff_exists.mp
    (hsome.mpr ⟨(.array, .name "x"), List.mem_cons_self, 0, [4, 5], rfl, rfl, by decide⟩)
  have htext := htext text hexplain
  subst htext
  exact hexplain

end ShapeFault
