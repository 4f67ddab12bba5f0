import ShapeFault.Proofs.Outline.Start

/-!
# An outline determines its tree

Main statement: two lines whose trees have one outline have one tree (`outline_determines_tree`).

An expression decodes in front of commas, closing brackets and colons (`Node.Decodes`). Its tag
tells the form of the tree, and each part decodes in front of what the outline has behind it. The
bounds of an item are a list with colons between them, the items of an index a list with commas.
-/

namespace ShapeFault

open Token (Kind)

/-- The trees within a bound can be read. -/
def Node.BoundReadable (b : Option Node) : Prop :=
  ∀ e ∈ b, e.Readable

/-- The item and the trees within it can be read. -/
def IndexItem.Readable (i : IndexItem) : Prop :=
  i.Proper ∧ ∀ p ∈ i.parts, p.Readable

namespace Node

/-- In front of what can follow an expression, the outline of the tree is that of no other one. -/
def Decodes (e : Node) : Prop :=
  ShapeFault.Decodes stops outline Readable e

/-- An expression in front of a text, with something behind it. -/
theorem Decodes.append {a b : Node} (ha : a.Decodes) (hb : b.Readable) {w r s : List Char}
    (hw : (w.head?.any fun c => decide (c ∈ stops)) = true)
    (htext : a.outline.toList ++ (w ++ r) = b.outline.toList ++ (w ++ s)) : a = b ∧ r = s := by
  obtain ⟨c, hhead, hc⟩ := Text.exists_of_any hw
  obtain ⟨w, rfl⟩ := List.head?_eq_some_iff.mp hhead
  obtain ⟨rfl, hrest⟩ := ha b hb _ _ (.cons hc _) (.cons hc _) htext
  exact ⟨rfl, List.append_cancel_left (List.cons.inj hrest).2⟩

/-- It is enough to look at trees with the same tag. -/
theorem decodes_of_tag {e : Node} {w : String} (he : e.Readable) (htag : e.tag = some w)
    (h : ∀ f, f.Readable → f.tag = some w → ∀ r s : List Char,
      e.outline.toList ++ r = f.outline.toList ++ s → e = f ∧ r = s) : e.Decodes := by
  intro f hf r s hr hs htext
  rcases he.proper.tag_eq_or_eq hf.proper hr hs htext with ⟨v, hv, hv'⟩ | heq
  · exact h f hf (by rw [hv', ← hv, htag]) r s htext
  · exact heq

theorem decodes_of_atom {e : Node} (he : e.Readable) (htag : e.tag = none) : e.Decodes := by
  intro f hf r s hr hs htext
  rcases he.proper.tag_eq_or_eq hf.proper hr hs htext with ⟨v, hv, -⟩ | heq
  · rw [htag] at hv
    cases hv
  · exact heq

/-! ### Bounds and items -/

/-- A bound decodes, since no outline begins like what follows a bound. -/
theorem decodes_bound {b : Option Node} (hb : BoundReadable b) (h : ∀ e ∈ b, e.Decodes) :
    ShapeFault.Decodes stops boundOutline BoundReadable b := by
  intro b' hb' r s hr hs htext
  cases b with
  | none =>
    cases b' with
    | none => exact ⟨rfl, htext⟩
    | some f => exact absurd (htext ▸ hr) ((hb' f rfl).proper.not_stopsAt hs)
  | some e =>
    cases b' with
    | none => exact absurd (htext.symm ▸ hs) ((hb e rfl).proper.not_stopsAt hr)
    | some f =>
      obtain ⟨rfl, hrest⟩ := h e rfl f (hb' f rfl) r s hr hs htext
      exact ⟨rfl, hrest⟩

end Node

namespace IndexItem

open Node (Decodes boundOutline BoundReadable)

/-- What stands around the colons of an item, as a list; a whole axis is a colon between two absent
bounds. An ellipsis is not written with bounds. -/
def bounds : IndexItem → List (Option Node)
  | expr e => [some e]
  | slice a b c stepped => a :: b :: if stepped then [c] else []
  | full => [none, none]
  | ellipsis => []

/-- The item that is written with these bounds. -/
def ofBounds : List (Option Node) → IndexItem
  | [a, b, c] => slice a b c true
  | [none, none] => full
  | [a, b] => slice a b none false
  | [some e] => expr e
  | _ => ellipsis

theorem ofBounds_bounds {i : IndexItem} (hi : i.Proper) : ofBounds i.bounds = i := by
  match i with
  | expr _ | full | ellipsis | slice _ _ _ true => rfl
  | slice (some _) none none false | slice _ (some _) none false => rfl
  | slice none none _ false => exact absurd hi.1 (by decide)

/-- An item is an ellipsis or its bounds with colons between them. -/
theorem outline_cases (i : IndexItem) : i = ellipsis ∨ ∃ b bs, i.bounds = b :: bs ∧
    i.outline.toList = (boundOutline b).toList ++ behindEach [':'] boundOutline bs := by
  cases i with
  | expr e => exact Or.inr ⟨_, _, rfl, by simp [behindEach]; rfl⟩
  | slice a b c stepped =>
    refine Or.inr ⟨_, _, rfl, ?_⟩
    rw [outline_slice]
    cases stepped <;> simp [behindEach]
  | full => exact Or.inr ⟨_, _, rfl, by simp [behindEach]; rfl⟩
  | ellipsis => exact Or.inl rfl

theorem mem_bounds {i : IndexItem} {b : Option Node} {e : Node} (hb : b ∈ i.bounds) (he : e ∈ b) :
    e ∈ i.parts := by
  cases i with
  | expr | full | ellipsis => simp_all [bounds, parts]
  | slice a b c stepped =>
    simp only [bounds, List.mem_cons] at hb
    simp only [parts, List.mem_append, Option.mem_toList]
    rcases hb with rfl | rfl | hb
    · exact Or.inl (Or.inl he)
    · exact Or.inl (Or.inr he)
    · cases stepped with
      | false => cases hb
      | true => exact Or.inr (List.mem_singleton.mp hb ▸ he)

variable {i : IndexItem} {r s : List Char}

/-- An item begins with a colon, with the points of an ellipsis or like an expression. -/
theorem Readable.ne_closed (hi : i.Readable) (hr : StopsAt [',', ']'] r) {k : Kind}
    (hk : k ∈ Kind.closed) (hcolon : k ≠ .colon) (hellipsis : i = ellipsis → k ≠ .ellipsis) :
    i.outline.toList ++ r ≠ k.spelling.toList ++ s := by
  have hall : ∀ k ∈ Kind.closed, (k.spelling.toList.head?.any fun c =>
      decide ((k ≠ .colon → c ≠ ':') ∧ (k ≠ .ellipsis → c ≠ '.'))) = true := by decide
  obtain ⟨c, hc, hne, hne'⟩ := Text.exists_of_any (hall k hk)
  obtain ⟨w, hw⟩ := List.head?_eq_some_iff.mp hc
  have hhead : ∀ {d : Char} {w' : List Char}, c ≠ d → d :: w' ≠ k.spelling.toList ++ s := by
    intro d w' hcd htext
    rw [hw] at htext
    exact hcd (List.cons.inj htext).1.symm
  cases i with
  | expr e =>
    exact (hi.2 e (List.mem_singleton_self e)).proper.ne_closed (hr.mono (by decide)) hk
  | slice a b c stepped =>
    obtain ⟨tail, htail⟩ : ∃ tail, (slice a b c stepped).outline.toList ++ r =
        (boundOutline a).toList ++ ':' :: tail :=
      ⟨(boundOutline b ++ if stepped then ":" ++ boundOutline c else "").toList ++ r,
        by simp [outline_slice]⟩
    rw [htail]
    cases a with
    | none => exact hhead (hne hcolon)
    | some e =>
      exact (hi.2 e (mem_bounds List.mem_cons_self rfl)).proper.ne_closed (.cons (by decide) _) hk
  | full => exact hhead (hne hcolon)
  | ellipsis => exact hhead (hne' (hellipsis rfl))

/-- **Items.** An item decodes in front of a comma or a closing bracket. -/
theorem decodes (hi : i.Readable) (h : ∀ p ∈ i.parts, p.Decodes) :
    ShapeFault.Decodes [',', ']'] outline Readable i := by
  intro j hj r s hr hs htext
  have hbounds : ∀ {i : IndexItem}, i.Readable → ∀ b ∈ i.bounds, BoundReadable b :=
    fun hi b hb e he => hi.2 e (mem_bounds hb he)
  have hdecodes : ∀ b ∈ i.bounds,
      ShapeFault.Decodes (':' :: [',', ']']) boundOutline BoundReadable b :=
    fun b hb => (Node.decodes_bound (hbounds hi b hb) fun e he => h e (mem_bounds hb he)).mono
      (by decide)
  have hspelling : ellipsis.outline = Kind.ellipsis.spelling := rfl
  rcases outline_cases i with rfl | ⟨b, bs, hib, hitext⟩ <;>
    rcases outline_cases j with rfl | ⟨b', bs', hjb, hjtext⟩
  · exact ⟨rfl, List.append_cancel_left htext⟩
  · rw [hspelling] at htext
    refine absurd htext.symm (hj.ne_closed hs (by decide) (by decide) ?_)
    rintro rfl
    cases hjb
  · rw [hspelling] at htext
    refine absurd htext (hi.ne_closed hr (by decide) (by decide) ?_)
    rintro rfl
    cases hib
  · rw [hitext, hjtext, List.append_assoc, List.append_assoc] at htext
    have hib' := hbounds hi
    have hjb' := hbounds hj
    rw [hib] at hdecodes
    rw [hjb, List.forall_mem_cons] at hjb'
    rw [List.forall_mem_cons] at hdecodes
    obtain ⟨heq, hrs⟩ := Decodes.joined (by decide) hdecodes.1 hdecodes.2 hjb'.1 hjb'.2 hr hs htext
    rw [← hib, ← hjb] at heq
    exact ⟨by rw [← ofBounds_bounds hi.1, heq, ofBounds_bounds hj.1], hrs⟩

end IndexItem

theorem UnaryOp.kind_injective : Function.Injective kind :=
  fun a b h => Option.some.inj (by rw [← ofKind?_kind, h, ofKind?_kind])

theorem BinaryOp.kind_injective : Function.Injective kind :=
  fun a b h => Option.some.inj (by rw [← ofKind?_kind, h, ofKind?_kind])

theorem AssignOp.kind_injective : Function.Injective kind :=
  fun a b h => Option.some.inj (by rw [← ofKind?_kind, h, ofKind?_kind])

namespace Node

/-! ### Nodes -/

variable {e : Node}

/-- Elements and items stand between brackets, and none of them starts with a bracket. -/
theorem eq_of_elements {es fs : List Node} {r s : List Char} (h : ∀ p ∈ es, p.Decodes)
    (hes : ∀ p ∈ es, p.Readable) (hfs : ∀ p ∈ fs, p.Readable)
    (htext : (commaSeparated (Node.outlines es)).toList ++ ']' :: r =
      (commaSeparated (Node.outlines fs)).toList ++ ']' :: s) : es = fs ∧ r = s := by
  rw [outlines_eq_map, outlines_eq_map] at htext
  refine ShapeFault.Decodes.bracketed (fun p hp => (h p hp).mono (by decide)) hfs ?_ htext
  intro p hp r s hr
  have hproper : p.Proper := (hp.elim (hes p) (hfs p)).proper
  exact hproper.ne_closed (k := .rightBracket) (hr.mono (by decide)) (by decide)

theorem eq_of_items {is js : List IndexItem} {r s : List Char}
    (h : ∀ p ∈ is.flatMap IndexItem.parts, p.Decodes) (his : ∀ i ∈ is, i.Readable)
    (hjs : ∀ i ∈ js, i.Readable)
    (htext : (commaSeparated (IndexItem.outlines is)).toList ++ ']' :: r =
      (commaSeparated (IndexItem.outlines js)).toList ++ ']' :: s) : is = js ∧ r = s := by
  rw [IndexItem.outlines_eq_map, IndexItem.outlines_eq_map] at htext
  have hdecodes (i : IndexItem) (hi : i ∈ is) :=
    IndexItem.decodes (his i hi) fun p hp => h p (List.mem_flatMap.mpr ⟨i, hi, hp⟩)
  refine ShapeFault.Decodes.bracketed hdecodes hjs ?_ htext
  intro i hi r s hr
  exact (hi.elim (his i) (hjs i)).ne_closed (k := .rightBracket) hr (by decide) (by decide)
    fun _ => by decide

section Forms

variable {a b : Node} {id : String}

theorem decodes_unary {op : UnaryOp} (he : (unary op a).Readable) (ha : a.Decodes) :
    (unary op a).Decodes := by
  refine decodes_of_tag he rfl fun f hf htag r s htext => ?_
  cases f with
  | unary op' a' =>
    simp only [outline_unary, String.toList_append, List.append_assoc] at htext
    obtain ⟨hop, hoperand⟩ := Kind.eq_of_outline_append (List.append_cancel_left htext)
    obtain ⟨rfl, hrs⟩ := ha.append (hf.of_mem_parts List.mem_cons_self) (by decide)
      (List.append_cancel_left hoperand)
    exact ⟨by rw [UnaryOp.kind_injective hop], hrs⟩
  | _ => simp [tag] at htag

/-- The operands of an operator with two of them. -/
theorem eq_of_operands {k k' : Kind} {a' b' : Node} {r s : List Char} (ha : a.Decodes)
    (hb : b.Decodes) (ha' : a'.Readable) (hb' : b'.Readable)
    (htext : k.outline.toList ++ (", lhs=".toList ++ (a.outline.toList ++ (", rhs=".toList ++
        (b.outline.toList ++ (")".toList ++ r))))) =
      k'.outline.toList ++ (", lhs=".toList ++ (a'.outline.toList ++ (", rhs=".toList ++
        (b'.outline.toList ++ (")".toList ++ s)))))) :
    k = k' ∧ a = a' ∧ b = b' ∧ r = s := by
  obtain ⟨hkind, hleft⟩ := Kind.eq_of_outline_append htext
  obtain ⟨rfl, hright⟩ := ha.append ha' (by decide) (List.append_cancel_left hleft)
  obtain ⟨rfl, hrs⟩ := hb.append hb' (by decide) hright
  exact ⟨hkind, rfl, rfl, hrs⟩

theorem decodes_binary {op : BinaryOp} (he : (binary op a b).Readable) (ha : a.Decodes)
    (hb : b.Decodes) : (binary op a b).Decodes := by
  refine decodes_of_tag he rfl fun f hf htag r s htext => ?_
  cases f with
  | binary op' a' b' =>
    simp only [outline_binary, String.toList_append, List.append_assoc] at htext
    obtain ⟨hop, rfl, rfl, hrs⟩ := eq_of_operands ha hb (hf.of_mem_parts List.mem_cons_self)
      (hf.of_mem_parts (by simp [parts])) (List.append_cancel_left htext)
    exact ⟨by rw [BinaryOp.kind_injective hop], hrs⟩
  | _ => simp [tag] at htag

theorem decodes_assign {op : AssignOp} (he : (assign op a b).Readable) (ha : a.Decodes)
    (hb : b.Decodes) : (assign op a b).Decodes := by
  refine decodes_of_tag he rfl fun f hf htag r s htext => ?_
  cases f with
  | assign op' a' b' =>
    simp only [outline_assign, String.toList_append, List.append_assoc] at htext
    obtain ⟨hop, rfl, rfl, hrs⟩ := eq_of_operands ha hb (hf.of_mem_parts List.mem_cons_self)
      (hf.of_mem_parts (by simp [parts])) (List.append_cancel_left htext)
    exact ⟨by rw [AssignOp.kind_injective hop], hrs⟩
  | _ => simp [tag] at htag

/-- A name alone can be read if it was a token. -/
theorem readable_name (h : (name id).Proper) : (name id).Readable := by
  intro m hm
  rcases contains_iff.mp hm with rfl | ⟨p, hp, -⟩
  · exact h
  · cases hp

/-- The name of a member was a token, and decodes as a name does. -/
theorem decodes_member (he : (member a id).Readable) (ha : a.Decodes) :
    (member a id).Decodes := by
  refine decodes_of_tag he rfl fun f hf htag r s htext => ?_
  cases f with
  | member a' id' =>
    simp only [outline_member, String.toList_append, List.append_assoc] at htext
    obtain ⟨-, hobject⟩ := Kind.eq_of_outline_append (List.append_cancel_left htext)
    obtain ⟨rfl, hmember⟩ := ha.append (hf.of_mem_parts List.mem_cons_self) (by decide)
      (List.append_cancel_left hobject)
    have hid : (name id).Readable := readable_name he.proper
    have hid' : (name id').Readable := readable_name hf.proper
    obtain ⟨hname, hrs⟩ := (decodes_of_atom hid rfl).append hid' (by decide) hmember
    exact ⟨by rw [name.inj hname], hrs⟩
  | _ => simp [tag] at htag

theorem decodes_call {es : List Node} (he : (call a es).Readable) (ha : a.Decodes)
    (hes : ∀ p ∈ es, p.Decodes) : (call a es).Decodes := by
  refine decodes_of_tag he rfl fun f hf htag r s htext => ?_
  cases f with
  | call a' fs =>
    simp only [outline_call, String.toList_append, List.append_assoc] at htext
    obtain ⟨rfl, hargs⟩ := ha.append (hf.of_mem_parts List.mem_cons_self) (by decide)
      (List.append_cancel_left htext)
    obtain ⟨rfl, hrest⟩ := eq_of_elements hes
      (fun p hp => he.of_mem_parts (List.mem_cons_of_mem _ hp))
      (fun p hp => hf.of_mem_parts (List.mem_cons_of_mem _ hp)) hargs
    exact ⟨rfl, (List.cons.inj hrest).2⟩
  | _ => simp [tag] at htag

theorem Readable.items {is : List IndexItem} (h : (index a is).Readable) :
    ∀ i ∈ is, i.Readable :=
  fun i hi => ⟨h.proper i hi, fun _ hp =>
    h.of_mem_parts (List.mem_cons_of_mem _ (List.mem_flatMap.mpr ⟨i, hi, hp⟩))⟩

theorem decodes_index {is : List IndexItem} (he : (index a is).Readable) (ha : a.Decodes)
    (his : ∀ p ∈ is.flatMap IndexItem.parts, p.Decodes) : (index a is).Decodes := by
  refine decodes_of_tag he rfl fun f hf htag r s htext => ?_
  cases f with
  | index a' js =>
    simp only [outline_index, String.toList_append, List.append_assoc] at htext
    obtain ⟨rfl, hitems⟩ := ha.append (hf.of_mem_parts List.mem_cons_self) (by decide)
      (List.append_cancel_left htext)
    obtain ⟨rfl, hrest⟩ := eq_of_items his he.items hf.items hitems
    exact ⟨rfl, (List.cons.inj hrest).2⟩
  | _ => simp [tag] at htag

theorem decodes_list {es : List Node} (he : (list es).Readable) (hes : ∀ p ∈ es, p.Decodes) :
    (list es).Decodes := by
  refine decodes_of_tag he rfl fun f hf htag r s htext => ?_
  cases f with
  | list fs =>
    simp only [outline_list, String.toList_append, List.append_assoc] at htext
    obtain ⟨rfl, hrest⟩ := eq_of_elements hes (fun p hp => he.of_mem_parts hp)
      (fun p hp => hf.of_mem_parts hp) (List.append_cancel_left htext)
    exact ⟨rfl, (List.cons.inj hrest).2⟩
  | _ => simp [tag] at htag

theorem decodes_paren (he : (paren a).Readable) (ha : a.Decodes) : (paren a).Decodes := by
  refine decodes_of_tag he rfl fun f hf htag r s htext => ?_
  cases f with
  | paren a' =>
    simp only [outline_paren, String.toList_append, List.append_assoc] at htext
    obtain ⟨rfl, hrs⟩ := ha.append (hf.of_mem_parts List.mem_cons_self) (by decide)
      (List.append_cancel_left htext)
    exact ⟨rfl, hrs⟩
  | _ => simp [tag] at htag

end Forms

/-- **Trees**, by induction over the tree: a tree decodes if its parts do. -/
theorem Readable.decodes (he : e.Readable) : e.Decodes := by
  induction e using parts_induction with
  | h e ih =>
    have hparts : ∀ p ∈ e.parts, p.Decodes := fun p hp => ih p hp (he.of_mem_parts hp)
    cases e with
    | name | literal => exact decodes_of_atom he rfl
    | unary => exact decodes_unary he (hparts _ List.mem_cons_self)
    | binary =>
      exact decodes_binary he (hparts _ List.mem_cons_self) (hparts _ (by simp [parts]))
    | assign =>
      exact decodes_assign he (hparts _ List.mem_cons_self) (hparts _ (by simp [parts]))
    | member => exact decodes_member he (hparts _ List.mem_cons_self)
    | call =>
      exact decodes_call he (hparts _ List.mem_cons_self)
        fun p hp => hparts p (List.mem_cons_of_mem _ hp)
    | index =>
      exact decodes_index he (hparts _ List.mem_cons_self)
        fun p hp => hparts p (List.mem_cons_of_mem _ hp)
    | list => exact decodes_list he hparts
    | paren => exact decodes_paren he (hparts _ List.mem_cons_self)

end Node

/-- **An outline determines its tree**: lines whose trees have one outline have one tree. -/
theorem outline_determines_tree {line line' : String} {e f : Node}
    (he : parse line = .ok (some e)) (hf : parse line' = .ok (some f))
    (h : e.outline = f.outline) : e = f := by
  have hstop : StopsAt Node.stops [','] := .cons (by decide) _
  exact ((readable_of_parse he).decodes f (readable_of_parse hf) _ _ hstop hstop (by rw [h])).1

/-- Spaces leave no trace in an outline. -/
theorem outline_of_spaced_slice :
    ∃ e f : Node, parse "a[:b]" = .ok (some e) ∧ parse "a [: b]" = .ok (some f) ∧
      e.outline = f.outline ∧ e = f := by
  have htight : Lexes "a[:b]".toList [(.name, "a"), (.leftBracket, "["), (.colon, ":"),
      (.name, "b"), (.rightBracket, "]")] :=
    @Lexes.token _ "[:b]".toList 'a' _ 1 _ rfl (by decide) <|
    @Lexes.token _ ":b]".toList '[' _ 1 _ rfl (by decide) <|
    @Lexes.token _ "b]".toList ':' _ 1 _ rfl (by decide) <|
    @Lexes.token _ "]".toList 'b' _ 1 _ rfl (by decide) <|
    @Lexes.token _ [] ']' _ 1 _ rfl (by decide) <| .done rfl
  have hspaced : Lexes "a [: b]".toList [(.name, "a"), (.leftBracket, "["), (.colon, ":"),
      (.name, "b"), (.rightBracket, "]")] :=
    @Lexes.token _ " [: b]".toList 'a' _ 1 _ rfl (by decide) <|
    @Lexes.token _ ": b]".toList '[' _ 1 _ rfl (by decide) <|
    @Lexes.token _ " b]".toList ':' _ 1 _ rfl (by decide) <|
    @Lexes.token _ "]".toList 'b' _ 1 _ rfl (by decide) <|
    @Lexes.token _ [] ']' _ 1 _ rfl (by decide) <| .done rfl
  have hparse : ∀ {line : String}, Lexes line.toList [(.name, "a"), (.leftBracket, "["),
      (.colon, ":"), (.name, "b"), (.rightBracket, "]")] →
      parse line = .ok (some (.index (.name "a") [.slice none (some (.name "b")) none false])) := by
    intro line hlex
    obtain ⟨body, stop, htokens, -, hws⟩ := tokenize_of_lexes hlex
    simp only [List.map_eq_cons_iff, List.map_eq_nil_iff, Token.lexeme, Prod.mk.injEq] at hws
    obtain ⟨⟨_, _, _⟩, _, rfl, ⟨rfl, rfl⟩, ⟨_, _, _⟩, _, rfl, ⟨rfl, rfl⟩, ⟨_, _, _⟩, _, rfl,
      ⟨rfl, rfl⟩, ⟨_, _, _⟩, _, rfl, ⟨rfl, rfl⟩, ⟨_, _, _⟩, _, rfl, ⟨rfl, rfl⟩, rfl⟩ := hws
    unfold parse
    rw [htokens]
    rfl
  exact ⟨_, _, hparse htight, hparse hspaced, rfl,
    outline_determines_tree (hparse htight) (hparse hspaced) rfl⟩

end ShapeFault
