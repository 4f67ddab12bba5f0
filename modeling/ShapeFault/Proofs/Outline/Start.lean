import ShapeFault.Expr.Outline
import ShapeFault.Proofs.Outline.Decoding
import ShapeFault.Proofs.Outline.Proper

/-!
# What an outline begins with

Outlines are not quoted: names, numbers and strings stand between the commas, brackets and colons
of the outline as they stand in the line. What keeps them apart is that each of them was a token.
An outline begins with a lexeme that stands in front of what follows it: the token of an atom, or
the tag of a node, which is a name in front of a parenthesis. A text begins with one lexeme only,
so its beginning tells which atom it is, or which kind of node (`Node.Proper.tag_eq_or_eq`).
-/

namespace ShapeFault

open Token (Kind)

/-- What a text begins with is determined. -/
theorem Stands.unique {k l : Kind} {v w r s : List Char} (hw : Stands k w r) (hv : Stands l v s)
    (htext : w ++ r = v ++ s) : k = l ∧ w = v ∧ r = s := by
  obtain ⟨c, cs, rfl, hbegins⟩ := hw
  obtain ⟨d, ds, rfl, hbegins'⟩ := hv
  rw [List.cons_append, List.cons_append] at htext
  obtain ⟨rfl, hrest⟩ := List.cons.inj htext
  rw [← Front.of_eq_token_iff, hrest, Front.of_eq_token_iff.mpr hbegins'] at hbegins
  obtain ⟨rfl, hlen⟩ := Front.token.inj hbegins
  obtain ⟨rfl, rfl⟩ := List.append_inj hrest (Nat.succ.inj hlen.symm)
  exact ⟨rfl, rfl, rfl⟩

/-- **Operators.** The outline of an operator tells its kind, since the label has no colon. -/
theorem Token.Kind.eq_of_outline_append {k l : Kind} {r s : List Char}
    (h : k.outline.toList ++ r = l.outline.toList ++ s) : k = l ∧ r = s := by
  have hall : ∀ k ∈ Kind.all, (k.label.toList.all fun c => decide (c ≠ ':')) = true := by decide
  have htext : ∀ (k : Kind) (r : List Char), k.outline.toList ++ r =
      '<' :: (k.label.toList ++ ':' :: (k.spelling.toList ++ '>' :: r)) := by
    simp [outline]
  have hlabel : ∀ (k : Kind) (r : List Char),
      (k.label.toList ++ ':' :: r).takeWhile (· ≠ ':') = k.label.toList := by
    intro k r
    rw [List.takeWhile_append_of_pos (List.all_eq_true.mp (hall k k.mem_all))]
    simp
  rw [htext, htext] at h
  have hlabels := congrArg (List.takeWhile (· ≠ ':')) (List.cons.inj h).2
  rw [hlabel, hlabel] at hlabels
  have hkl := congrArg ofLabel? (String.toList_inj.mp hlabels)
  rw [ofLabel?_label, ofLabel?_label] at hkl
  obtain rfl := Option.some.inj hkl
  exact ⟨rfl, by simpa using h⟩

namespace Node

/-- What can follow an expression in an outline. -/
def stops : List Char :=
  [',', ')', ']', ':']

end Node

/-! ### Atoms -/

theorem Literal.Written.unique {t u : Token} {l m : Literal} (hl : l.Written t) (hm : m.Written u)
    (h : t.lexeme = u.lexeme) : l = m := by
  obtain ⟨hkind, htext⟩ := Prod.mk.inj h
  cases hl with
  | number hk hl =>
    cases hm with
    | number _ hm =>
      rw [htext, hm] at hl
      exact (Option.some.inj hl).symm
    | string hk' | trueWord hk' | falseWord hk' | noneWord hk' =>
      rw [hk, hk'] at hkind
      cases hkind
  | string hk =>
    cases hm with
    | string => rw [htext]
    | number hk' | trueWord hk' | falseWord hk' | noneWord hk' =>
      rw [hk, hk'] at hkind
      cases hkind
  | trueWord hk | falseWord hk | noneWord hk =>
    cases hm <;> simp_all

namespace Node

/-- `Atom t e` says that `e` is the atom that the token `t` stands for on its own. -/
inductive Atom : Token → Node → Prop where
  | name {t : Token} (hk : t.kind = .name) : Atom t (.name t.text)
  | literal {t : Token} {l : Literal} (hl : l.Written t) : Atom t (.literal l)

namespace Atom

variable {t u : Token} {e f : Node}

theorem unique (he : Atom t e) (hf : Atom u f) (h : t.lexeme = u.lexeme) : e = f := by
  obtain ⟨hkind, htext⟩ := Prod.mk.inj h
  cases he with
  | name hk =>
    cases hf with
    | name => rw [htext]
    | literal hl => cases hl <;> simp_all
  | literal hl =>
    cases hf with
    | name => cases hl <;> simp_all
    | literal hm => rw [hl.unique hm h]

theorem kind_eq (h : Atom t e) : t.kind = .number ∨ t.kind = .string ∨ t.kind.IsWord := by
  cases h with
  | name hk => exact Or.inr (Or.inr (Or.inl hk))
  | literal hl =>
    cases hl with
    | number hk => exact Or.inl hk
    | string hk => exact Or.inr (Or.inl hk)
    | trueWord hk | falseWord hk | noneWord hk =>
      rw [hk]
      decide

/-- The outline of an atom is the text of its token. -/
theorem outline_eq (h : Atom t e) (ht : t.Genuine) : e.outline = t.text := by
  cases h with
  | name => rfl
  | literal hl => exact hl.text_eq ht

/-- The token of an atom stands in front of everything that follows an expression. -/
theorem stands (h : Atom t e) (ht : t.Genuine) {r : List Char} (hr : StopsAt stops r) :
    Stands t.kind t.text.toList r := by
  have hsub : ∀ c ∈ stops, c ∈ separators ∧ c ≠ '.' := Text.forall_of_all (by decide)
  obtain ⟨c, hc, hhead⟩ := hr
  have hseparated : Separated r := fun d hd => Option.mem_unique hhead hd ▸ (hsub c hc).1
  have hdot : '.' ∉ r.head? := fun hd => (hsub c hc).2 (Option.mem_unique hhead hd)
  obtain ⟨rest, hstands⟩ := ht
  rcases h.kind_eq with hk | hk | hk
  · rw [hk] at hstands ⊢
    obtain ⟨hfraction, hpoint⟩ := hseparated.not_point hdot
    exact (hstands.number_iff_of_calm hseparated.calm).mpr ⟨fun _ => hfraction, fun _ => hpoint⟩
  · rw [hk] at hstands ⊢
    exact hstands.string r
  · exact hstands.word hk hseparated.continuesWord_eq_false

end Atom

/-! ### What an outline begins with -/

/-- The name in front of the parts of a node; an atom has none. -/
def tag : Node → Option String
  | name _ | literal _ => none
  | unary .. => some "UnaryOp"
  | binary .. => some "BinaryOp"
  | assign .. => some "Assign"
  | member .. => some "Member"
  | call .. => some "Call"
  | index .. => some "Index"
  | list _ => some "ListLiteral"
  | paren _ => some "SubExpr"

/-- The tag is a name, and the outline has a parenthesis behind it. -/
theorem stands_tag {e : Node} {w : String} (h : e.tag = some w) (rest : List Char) :
    Stands .name w.toList ('(' :: rest) := by
  have hword : ∀ w ∈ ["UnaryOp", "BinaryOp", "Assign", "Member", "Call", "Index", "ListLiteral",
      "SubExpr"], (w.toList.head?.any fun c => decide (Text.startsWord c)) = true ∧
        (w.toList.all fun c => decide (Text.continuesWord c)) = true ∧
          Kind.ofWord w = .name := by
    decide
  have hmem : w ∈ ["UnaryOp", "BinaryOp", "Assign", "Member", "Call", "Index", "ListLiteral",
      "SubExpr"] := by
    cases e <;> cases h <;> simp
  obtain ⟨hhead, hall, hof⟩ := hword w hmem
  refine (Stands.word_iff (Or.inl rfl)).mpr ⟨Text.exists_of_any hhead, Text.forall_of_all hall, ?_,
    by rwa [String.ofList_toList]⟩
  rintro c ⟨⟩
  decide

theorem tag_prefix {e : Node} {w : String} (h : e.tag = some w) :
    (w ++ "(").toList <+: e.outline.toList := by
  cases e <;> cases h <;> simp only [outline_unary, outline_binary, outline_assign, outline_member,
    outline_call, outline_index, outline_list, outline_paren, String.toList_append,
    List.append_assoc] <;> exact List.IsPrefix.trans (by decide) (List.prefix_append _ _)

/-- **Atoms and nodes.** An outline in front of a rest begins with the tag of the tree in front of a
parenthesis, or it is the token of an atom in front of that rest. -/
theorem Proper.begins {e : Node} (he : e.Proper) {r : List Char} (hr : StopsAt stops r) :
    (∃ w tail, e.tag = some w ∧ e.outline.toList ++ r = w.toList ++ '(' :: tail ∧
      Stands .name w.toList ('(' :: tail)) ∨
    ∃ t, Atom t e ∧ e.outline = t.text ∧ Stands t.kind t.text.toList r := by
  cases htag : e.tag with
  | some w =>
    obtain ⟨tail, htext⟩ := tag_prefix htag
    exact Or.inl ⟨w, tail ++ r, rfl, by simp [← htext], stands_tag htag _⟩
  | none =>
    obtain ⟨t, ht, hatom⟩ : ∃ t : Token, t.Genuine ∧ Atom t e := by
      cases e with
      | name id =>
        obtain ⟨t, ht, hk, rfl⟩ := he
        exact ⟨t, ht, .name hk⟩
      | literal l =>
        obtain ⟨t, ht, hl⟩ := he
        exact ⟨t, ht, .literal hl⟩
      | _ => cases htag
    exact Or.inr ⟨t, hatom, hatom.outline_eq ht, hatom.stands ht hr⟩

namespace Proper

variable {e f : Node} {r s : List Char}

/-- **No outline begins with punctuation** that can be followed by anything. -/
theorem ne_closed (he : e.Proper) (hr : StopsAt stops r) {k : Kind} (hk : k ∈ Kind.closed) :
    e.outline.toList ++ r ≠ k.spelling.toList ++ s := by
  have hall : ∀ k ∈ Kind.closed, ¬ (k = .number ∨ k = .string ∨ k.IsWord) := by decide
  intro htext
  rcases he.begins hr with ⟨w, tail, -, hw, hstands⟩ | ⟨t, hatom, hw, hstands⟩
  · rw [hw] at htext
    obtain ⟨rfl, -⟩ := hstands.unique (.closed hk) htext
    exact absurd hk (by decide)
  · rw [hw] at htext
    obtain ⟨hkind, -⟩ := hstands.unique (.closed hk) htext
    exact hall k hk (hkind ▸ hatom.kind_eq)

/-- No outline begins like what follows one. -/
theorem not_stopsAt (he : e.Proper) (hr : StopsAt stops r) :
    ¬ StopsAt stops (e.outline.toList ++ r) := by
  have hall : ∀ c ∈ stops, ∃ k ∈ Kind.closed, k.spelling.toList = [c] :=
    Text.forall_of_all (by decide)
  rintro ⟨c, hc, hhead⟩
  obtain ⟨k, hk, hspelling⟩ := hall c hc
  obtain ⟨s, htext⟩ := List.head?_eq_some_iff.mp hhead
  exact he.ne_closed hr hk (htext.trans (by rw [hspelling]; rfl))

/-- Two outlines that begin one text are those of nodes with one tag, or of one atom. -/
theorem tag_eq_or_eq (he : e.Proper) (hf : f.Proper) (hr : StopsAt stops r) (hs : StopsAt stops s)
    (htext : e.outline.toList ++ r = f.outline.toList ++ s) :
    (∃ w, e.tag = some w ∧ f.tag = some w) ∨ e = f ∧ r = s := by
  have hparen : '(' ∉ stops := by decide
  rcases he.begins hr with ⟨v, tail, hv, hleft, hstands⟩ | ⟨t, ht, hleft, hstands⟩ <;>
    rcases hf.begins hs with ⟨w, tail', hw, hright, hstands'⟩ | ⟨u, hu, hright, hstands'⟩ <;>
    rw [hleft, hright] at htext <;>
    obtain ⟨hkind, hword, hrest⟩ := hstands.unique hstands' htext
  · exact Or.inl ⟨v, hv, by rw [hw, String.toList_inj.mp hword]⟩
  · exact absurd (hrest ▸ hs).mem_of_cons hparen
  · exact absurd (hrest ▸ hr).mem_of_cons hparen
  · exact Or.inr ⟨ht.unique hu (Prod.ext hkind (String.toList_inj.mp hword)), hrest⟩

end Proper

end Node

end ShapeFault
