import ShapeFault.Proofs.Grammar.Line
import ShapeFault.Proofs.Source.Reread

/-!
# Reading the source of a tree

Every phrase that was derived from tokens that were read somewhere reads as these tokens again
(`Derives.readsAs`), unless a member in it fuses. On the level of lines it follows that `parse`
inverts `Node.source` on the trees that it finds, up to the fusing members (`parse_source_eq_iff`).
-/

namespace ShapeFault

open Token (Kind)

/-- The tokens around a token. -/
theorem Token.Genuine.split {xs ys : List Token} {t : Token}
    (h : ∀ s ∈ xs ++ t :: ys, s.Genuine) :
    (∀ s ∈ xs, s.Genuine) ∧ t.Genuine ∧ ∀ s ∈ ys, s.Genuine := by
  obtain ⟨hx, hty⟩ := List.forall_mem_append.mp h
  obtain ⟨ht, hy⟩ := List.forall_mem_cons.mp hty
  exact ⟨hx, ht, hy⟩

/-- The tokens before the last one. -/
theorem Token.Genuine.concat {xs : List Token} {t : Token} (h : ∀ s ∈ xs ++ [t], s.Genuine) :
    (∀ s ∈ xs, s.Genuine) ∧ t.Genuine := by
  obtain ⟨hx, ht, -⟩ := split h
  exact ⟨hx, ht⟩

namespace Derives

variable {xs : List Token} {p : Phrase}

/-- The items of an index are not empty. -/
theorem items_ne_nil (h : Derives xs p) {is : List IndexItem} (hp : p = .items is) : is ≠ [] := by
  cases h <;> cases hp <;> simp

/-- The object of a member that is a number was derived from one token. -/
theorem exists_token_of_literal (h : Derives xs p) {l : Tier} {v : Literal}
    (hp : p = .expression l (.literal v)) : ∃ t, xs = [t] ∧ v.Written t := by
  induction h generalizing l with
  | @literal t v' hl =>
    cases hp
    exact ⟨t, rfl, hl⟩
  | tighter _ ih =>
    cases hp
    exact ih rfl
  | _ => cases hp

/-- The source of an expression starts with the first character of a name, a literal, a unary
operator or a bracket. -/
theorem exists_source_head {P : Char → Prop} (h : Derives xs p) (hxs : ∀ t ∈ xs, t.Genuine)
    (htoken : ∀ t : Token, t.Genuine → t.kind = .number ∨ t.kind = .string ∨ t.kind.IsWord →
      ∃ c ∈ t.text.toList.head?, P c)
    (hsymbol : P '-' ∧ P 'n' ∧ P '(' ∧ P '[') {l : Tier} {e : Node}
    (hp : p = .expression l e) : ∃ c ∈ e.source.toList.head?, P c := by
  have happend : ∀ {s u : String}, (∃ c ∈ s.toList.head?, P c) →
      ∃ c ∈ (s ++ u).toList.head?, P c := by
    rintro s u ⟨c, hc, hP⟩
    refine ⟨c, ?_, hP⟩
    rw [String.toList_append, List.head?_append, Option.mem_def.mp hc]
    rfl
  obtain ⟨hminus, hnot, hparen, hbracket⟩ := hsymbol
  induction h generalizing l e with
  | chain _ _ _ _ _ iha | power _ _ _ iha | member _ _ _ iha | call _ _ _ _ iha _
  | index _ _ _ _ iha _ =>
    cases hp
    simp only [List.forall_mem_append] at hxs
    simp only [Node.source, String.append_assoc]
    exact happend (iha (by simp_all) rfl)
  | @unary _ _ op =>
    cases hp
    refine happend ?_
    cases op with
    | neg => exact ⟨_, rfl, hminus⟩
    | not => exact ⟨_, rfl, hnot⟩
  | name hk =>
    cases hp
    exact htoken _ (hxs _ (List.mem_singleton_self _)) (Or.inr (Or.inr (Or.inl hk)))
  | literal hl =>
    cases hp
    have ht := hxs _ (List.mem_singleton_self _)
    have htext : (Node.literal _).source = _ := hl.text_eq ht
    rw [htext]
    refine htoken _ ht ?_
    cases hl with
    | number hk _ => exact Or.inl hk
    | string hk => exact Or.inr (Or.inl hk)
    | trueWord hk | falseWord hk | noneWord hk =>
      exact Or.inr (Or.inr (Or.inr (hk ▸ by decide)))
  | paren =>
    cases hp
    simp only [Node.source, String.append_assoc]
    exact happend ⟨_, rfl, hparen⟩
  | list =>
    cases hp
    simp only [Node.source, String.append_assoc]
    exact happend ⟨_, rfl, hbracket⟩
  | tighter _ ih =>
    cases hp
    exact ih hxs rfl
  | _ => cases hp

open Phrase in
/-- **Reading a phrase again.** -/
theorem readsAs (h : Derives xs p) (hxs : ∀ t ∈ xs, t.Genuine) : p.ReadsAs xs := by
  induction h with
  | @chain _ _ _ _ op _ _ _ hl _ hk _ iha ihb =>
    obtain ⟨hx, ht, hy⟩ := Token.Genuine.split hxs
    have hrank : op.tier.rank ≤ 7 := by cases op <;> decide
    exact .binary (hl ▸ hrank) (iha hx) ht hk (ihb hy)
  | power _ hk _ iha ihb =>
    obtain ⟨hx, ht, hy⟩ := Token.Genuine.split hxs
    exact .binary (by decide) (iha hx) ht hk (ihb hy)
  | unary hk he ih =>
    obtain ⟨ht, hx⟩ := List.forall_mem_cons.mp hxs
    have hhead := he.exists_source_head hx (fun _ => Token.Genuine.head_ne) (by decide) rfl
    exact .unary ht hk hhead (ih hx)
  | @member _ _ _ e he hk hs ih =>
    obtain ⟨hx, ht, hu⟩ := Token.Genuine.split hxs
    have hu := hu _ (List.mem_singleton_self _)
    -- a number is a single token, and whether the point behind it is read as a token depends on it
    cases hnumber : e.isNumber with
    | false => exact .member (ih hx) hnumber ht hk hu hs
    | true =>
      obtain ⟨v, rfl⟩ : ∃ v, e = .literal v := by
        cases e <;> first | exact ⟨_, rfl⟩ | cases hnumber
      obtain ⟨t, rfl, hv⟩ := he.exists_token_of_literal rfl
      have hkind : t.kind = .number := by
        cases hv <;> first | assumption | cases hnumber
      exact .memberOfNumber hv (hx t (List.mem_singleton_self t)) hkind ht hk hu hs
  | call _ hk _ hu ihf ihas =>
    obtain ⟨hx, hu'⟩ := Token.Genuine.concat hxs
    obtain ⟨hx, ht, hy⟩ := Token.Genuine.split hx
    exact .call (ihf hx) ht hk (ihas hy) hu' hu
  | index _ hk _ hu iha ihis =>
    obtain ⟨hx, hu'⟩ := Token.Genuine.concat hxs
    obtain ⟨hx, ht, hy⟩ := Token.Genuine.split hx
    exact .index (iha hx) ht hk (ihis hy) hu' hu
  | name hk => exact .name (hxs _ (List.mem_singleton_self _)) hk
  | literal hv => exact .literal (hxs _ (List.mem_singleton_self _)) hv
  | paren hk _ hu ih =>
    obtain ⟨hx, hu'⟩ := Token.Genuine.concat hxs
    obtain ⟨ht, hx⟩ := List.forall_mem_cons.mp hx
    exact .paren ht hk (ih hx) hu' hu
  | list hk _ hu ih =>
    obtain ⟨hx, hu'⟩ := Token.Genuine.concat hxs
    obtain ⟨ht, hx⟩ := List.forall_mem_cons.mp hx
    exact .list ht hk (ih hx) hu' hu
  | tighter _ ih => exact .tighter (ih hxs)
  | noElements | absent => exact .empty rfl rfl
  | oneElement _ ih =>
    exact (ih hxs).of_source_eq (by simp [source, commaSeparated, Node.sources]) rfl id
  | moreElements hne _ hk _ ihes ihe =>
    obtain ⟨hx, ht, hy⟩ := Token.Genuine.split hxs
    exact .moreElements hne (ihes hx) ht hk (ihe hy)
  | present _ ih | entry _ ih => exact (ih hxs).of_source_eq rfl rfl id
  | ellipsis hk | full hk =>
    exact .ofToken (hxs _ (List.mem_singleton_self _)) hk (by decide) rfl rfl
  | range _ _ hk _ iha ihb =>
    obtain ⟨hx, ht, hy⟩ := Token.Genuine.split hxs
    exact .range (iha hx) ht hk (ihb hy)
  | stepped _ hk _ hu _ iha ihb ihc =>
    obtain ⟨hx, hu', hz⟩ := Token.Genuine.split hxs
    obtain ⟨hx, ht, hy⟩ := Token.Genuine.split hx
    exact .stepped (iha hx) ht hk (ihb hy) hu' hu (ihc hz)
  | oneItem _ ih =>
    exact (ih hxs).of_source_eq (by simp [source, commaSeparated, IndexItem.sources])
      (List.append_nil _) id
  | moreItems his hk _ ihis ihi =>
    obtain ⟨hx, ht, hy⟩ := Token.Genuine.split hxs
    exact .moreItems (his.items_ne_nil rfl) (ihis hx) ht hk (ihi hy)

end Derives

/-- The source of a line reads as the tokens of the line exactly if none of its members fuses. -/
theorem DerivesLine.lexes_source_iff {xs : List Token} {e : Node} (h : DerivesLine xs e)
    (hxs : ∀ t ∈ xs, t.Genuine) :
    Lexes e.source.toList (xs.map Token.lexeme) ↔ e.Clean := by
  cases h with
  | expression he => exact (he.readsAs hxs).expression_end_iff
  | @assign xs ys t op e v he _ hk hv =>
    obtain ⟨hx, ht, hy⟩ := Token.Genuine.split hxs
    have hop : op.kind ∈ Kind.punctuation := by cases op <;> decide
    have hclean : (Node.assign op e v).Clean ↔ e.Clean ∧ v.Clean :=
      Iff.trans (Node.clean_iff_parts nofun) (by simp [Node.parts])
    have htext : (Node.assign op e v).source.toList =
        e.source.toList ++ ' ' :: (op.kind.spelling.toList ++ ' ' :: v.source.toList) := by
      simp [Node.source, AssignOp.symbol]
    rw [htext, List.map_append, List.map_cons,
      (he.readsAs hx).expression_cons_iff (by decide) (by decide), Lexes.blank_iff (by decide),
      ht.lexes_spaced_iff hk (Or.inl hop), (hv.readsAs hy).expression_end_iff, hclean]

/-! ### The main statement -/

/-- **Reading the source of a tree** gives the tree back exactly if it contains no member of a
number that fuses. -/
theorem parse_source_eq_iff {line : String} {e : Node} (h : parse line = .ok (some e)) :
    parse e.source = .ok (some e) ↔ ∀ m, e.Contains m → ¬ m.Fuses := by
  have hgenuine : ∀ {text : String} {xs : List Token},
      Lexes text.toList (xs.map Token.lexeme) → ∀ t ∈ xs, t.Genuine := by
    intro text xs hlex t ht
    exact hlex.exists_stands _ (List.mem_map_of_mem ht)
  constructor
  · intro hsource
    -- the tokens of the source derive the tree, and the source reads as them
    obtain ⟨xs, stop, htokens, hxs, -, hline⟩ := parse_eq_ok_some_iff.mp hsource
    obtain ⟨xs', stop', heq, -, hlex⟩ := lexes_of_tokenize htokens
    obtain ⟨rfl, -⟩ := List.append_inj' heq rfl
    exact (hline.lexes_source_iff (hgenuine hlex)).mp hlex
  · intro hclean
    -- the source reads as the tokens of the line, but for their places
    obtain ⟨xs, stop, htokens, -, hidle, hline⟩ := parse_eq_ok_some_iff.mp h
    obtain ⟨xs', stop', heq, -, hlex⟩ := lexes_of_tokenize htokens
    obtain ⟨rfl, -⟩ := List.append_inj' heq rfl
    obtain ⟨ys, stop', htokens', hys, hsame⟩ :=
      tokenize_of_lexes ((hline.lexes_source_iff (hgenuine hlex)).mpr hclean)
    refine parse_eq_ok_some_iff.mpr ⟨ys, stop', htokens', hys, ?_, hline.of_lexemes hsame.symm⟩
    rw [TokenLine.isIdle_congr stop' stop hsame, hidle]

/-- The member `e5` of the number 1 is written as a float. -/
theorem parse_member_e5 :
    parse "1 .e5" = .ok (some (.member (.literal (.int "1" 1)) "e5")) ∧
      parse "1.e5" ≠ .ok (some (.member (.literal (.int "1" 1)) "e5")) := by
  have hlex : Lexes "1 .e5".toList [(.number, "1"), (.dot, "."), (.name, "e5")] :=
    @Lexes.token _ " .e5".toList '1' _ 1 _ rfl (by decide) <|
    @Lexes.token _ "e5".toList '.' _ 1 _ rfl (by decide) <|
    @Lexes.token _ "5".toList 'e' _ 2 _ rfl (by decide) <| .done rfl
  obtain ⟨body, stop, htokens, hbody, hws⟩ := tokenize_of_lexes hlex
  simp only [List.map_eq_cons_iff, List.map_eq_nil_iff, Token.lexeme, Prod.mk.injEq] at hws
  obtain ⟨n, _, rfl, ⟨hn, hn'⟩, d, _, rfl, ⟨hd, -⟩, s, _, rfl, ⟨hs, hs'⟩, rfl⟩ := hws
  have hline : DerivesLine [n, d, s] (.member (.literal (.int "1" 1)) "e5") := by
    have hone : Literal.ofNumber? n.text = some (.int "1" 1) := by
      rw [hn']
      rfl
    have hobject : Derives [n] (.expression .suffixed (.literal (.int "1" 1))) :=
      (Derives.literal (.number hn hone)).loosen (by decide)
    rw [← hs']
    exact .expression ((Derives.member hobject hd hs).loosen (by decide))
  have hparse : parse "1 .e5" = .ok (some (.member (.literal (.int "1" 1)) "e5")) :=
    parse_eq_ok_some_iff.mpr ⟨_, stop, htokens, hbody, by simp [TokenLine.isIdle, hn], hline⟩
  refine ⟨hparse, fun hsource => ?_⟩
  exact (parse_source_eq_iff hparse).mp hsource _ .refl (.int ⟨'e', '5', [], rfl, Or.inl rfl, rfl⟩)

end ShapeFault
