import ShapeFault.Proofs.Source.Subphrase

/-!
# Trees that lines can have

Not every tree is that of a line. In one that is read, names and literals were tokens, and a slice
is not written in the way of another item: with one colon it has a bound and no step. `Node.Proper`
says so of the top of a tree, and `Node.Readable` of everything within it.
-/

namespace ShapeFault

open Token (Kind)

/-- An item of an index that can be read. A slice has a step only behind a second colon, and a colon
without bounds is that of a whole axis. -/
def IndexItem.Proper : IndexItem → Prop
  | slice a b c false => (a.isSome ∨ b.isSome) ∧ c = none
  | _ => True

namespace Node

/-- The names and literals at the top of the tree were tokens, and its items can be read. -/
def Proper : Node → Prop
  | name id | member _ id => ∃ t : Token, t.Genuine ∧ t.kind = .name ∧ t.text = id
  | literal l => ∃ t : Token, t.Genuine ∧ l.Written t
  | index _ is => ∀ i ∈ is, i.Proper
  | _ => True

/-- Everything within the tree can be read. -/
def Readable (e : Node) : Prop :=
  ∀ m, e.Contains m → m.Proper

theorem Readable.proper {e : Node} (h : e.Readable) : e.Proper :=
  h e .refl

theorem Readable.of_mem_parts {e p : Node} (h : e.Readable) (hp : p ∈ e.parts) : p.Readable :=
  fun m hm => h m (contains_iff.mpr (Or.inr ⟨p, hp, hm⟩))

end Node

/-- What is said of the trees and items of a phrase. -/
def Phrase.Proper : Phrase → Prop
  | expression _ e => e.Proper
  | item i => i.Proper
  | items is => ∀ i ∈ is, i.Proper
  | elements _ | bound _ => True

/-- **What is derived can be read**, by induction over the productions. -/
theorem Derives.proper {xs : List Token} {p : Phrase} (h : Derives xs p)
    (hxs : ∀ t ∈ xs, t.Genuine) : p.Proper := by
  induction h with
  | name hk => exact ⟨_, hxs _ (List.mem_singleton_self _), hk, rfl⟩
  | literal hl => exact ⟨_, hxs _ (List.mem_singleton_self _), hl⟩
  | member _ _ hs =>
    obtain ⟨-, -, hid⟩ := Token.Genuine.split hxs
    exact ⟨_, hid _ (List.mem_singleton_self _), hs, rfl⟩
  | index _ _ _ _ _ ih =>
    obtain ⟨-, -, hy⟩ := Token.Genuine.split (Token.Genuine.concat hxs).1
    exact ih hy
  | tighter _ ih => exact ih hxs
  | range hab => exact ⟨hab, rfl⟩
  | oneItem _ ih => exact List.forall_mem_singleton.mpr (ih hxs)
  | moreItems _ _ _ ihis ihi =>
    obtain ⟨hx, -, hy⟩ := Token.Genuine.split hxs
    exact List.forall_mem_append.mpr ⟨ihis hx, List.forall_mem_singleton.mpr (ihi hy)⟩
  | _ => trivial

/-- **The tree of a line is readable.** -/
theorem readable_of_parse {line : String} {e : Node} (h : parse line = .ok (some e)) :
    e.Readable := by
  obtain ⟨body, stop, htokens, -, -, hline⟩ := parse_eq_ok_some_iff.mp h
  obtain ⟨body', stop', heq, -, hlex⟩ := lexes_of_tokenize htokens
  obtain ⟨rfl, -⟩ := List.append_inj' heq rfl
  intro m hm
  by_cases hassign : ∃ op a v, m = .assign op a v
  · obtain ⟨op, a, v, rfl⟩ := hassign
    trivial
  · obtain ⟨ys, l, hrun, hder⟩ := hline.exists_run hm fun op a v heq => hassign ⟨op, a, v, heq⟩
    exact hder.proper fun t ht => hlex.exists_stands _ (List.mem_map_of_mem (hrun.subset ht))

end ShapeFault
