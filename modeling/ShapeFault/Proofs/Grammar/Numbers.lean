import ShapeFault.Proofs.Grammar.Pointing
import ShapeFault.Proofs.Tree.Parts

/-!
# Numbers are read twice and alike

A number is read as a token, which decides by what follows its digits whether it can have a point or
an exponent, and later its text is read as a literal, which looks for a point or an exponent in it.
Where a number starts, both come to the same end: the text is taken for a token exactly if it has a
literal (`Front.of_eq_ite_ofNumber?`), an integer if it consists of digits and a float otherwise
(`Stands.number_cases`). `Node.numbers` are the literals of a tree that are numbers, from left to
right, and they are the literals of the tokens of its line (`DerivesLine.numbers_eq`).
-/

namespace ShapeFault

open Token (Kind)

/-! ### The literal of a number -/

theorem Literal.isFloatText_of_isDigit {w : List Char} (h : ∀ c ∈ w, c.isDigit) :
    isFloatText w = false := by
  rw [isFloatText, List.any_eq_false]
  intro c hc
  have hdigit := h c hc
  simp only [Bool.or_eq_true, beq_iff_eq]
  rintro ((rfl | rfl) | rfl) <;> exact absurd hdigit (by decide)

/-- **The literal of a number** is an integer with the value of its digits, or a float if there is
anything but digits. -/
theorem Stands.number_cases {w : String} {rest : List Char} (h : Stands .number w.toList rest) :
    (∀ c ∈ w.toList, c.isDigit) ∧
        Literal.ofNumber? w = some (.int w (Decimal.value w.toList)) ∨
      ¬ (∀ c ∈ w.toList, c.isDigit) ∧ ∃ x, Decimal.float? w.toList = some x ∧
        Literal.ofNumber? w = some (.float w x) := by
  obtain ⟨hform, hfits⟩ := Stands.number_alone_iff.mp h.alone
  by_cases hdigits : ∀ c ∈ w.toList, c.isDigit
  · have hstart := hform.startsNumber []
    rw [List.append_nil] at hstart
    refine Or.inl ⟨hdigits, ?_⟩
    simp only [Literal.ofNumber?, Literal.isFloatText_of_isDigit hdigits, Bool.false_eq_true,
      if_false, Decimal.int64?_eq hstart hdigits (hfits hdigits), Option.map_some]
  · have hfloat : Literal.isFloatText w.toList = true := by
      rwa [← Bool.not_eq_false, h.isFloatText_eq_false_iff]
    obtain ⟨x, hx⟩ := Option.isSome_iff_exists.mp (Decimal.isSome_float? hform)
    exact Or.inr ⟨hdigits, x, hx, by simp only [Literal.ofNumber?, hfloat, if_true, hx,
      Option.map_some]⟩

/-- Digits whose value does not fit in a word are no literal. -/
theorem Literal.ofNumber?_eq_none {w : List Char} (hstart : Lexeme.startsNumber w)
    (hw : ∀ c ∈ w, c.isDigit) (hvalue : Word.half ≤ Decimal.value w) :
    ofNumber? (String.ofList w) = Option.none := by
  simp only [ofNumber?, String.toList_ofList, isFloatText_of_isDigit hw, Bool.false_eq_true,
    if_false, Decimal.int64?_eq_none hstart hw hvalue, Option.map_none]

/-- **Where a number starts** there is a token exactly if its text has a literal. Otherwise it is
passed over as a number that is too large. -/
theorem Front.of_eq_ite_ofNumber? {c : Char} {cs : List Char} {n : Nat}
    (h : Lexeme.startsNumber (c :: cs)) (hn : Lexeme.numberLength (c :: cs) = n) :
    Front.of c cs =
      if (Literal.ofNumber? (String.ofList ((c :: cs).take n))).isSome then .token .number n
      else .largeNumber n := by
  subst hn
  by_cases hlarge : Lexeme.numberLength (c :: cs) = Lexeme.digitCount (c :: cs) ∧
      Word.half ≤ Decimal.value ((c :: cs).take (Lexeme.numberLength (c :: cs)))
  · have hof : Front.of c cs = .largeNumber (Lexeme.numberLength (c :: cs)) := by
      rw [of, if_pos h, if_pos hlarge]
    -- what is taken starts as a number where it stands, and so by itself
    have hstart := @Lexeme.startsNumber_append ((c :: cs).take (Lexeme.numberLength (c :: cs)))
      ((c :: cs).drop (Lexeme.numberLength (c :: cs))) (by rwa [List.take_append_drop])
      (by rw [List.take_append_drop, List.length_take,
        Nat.min_eq_left (Lexeme.numberLength_le _)]) []
    rw [List.append_nil] at hstart
    have hdigits : ∀ d ∈ (c :: cs).take (Lexeme.numberLength (c :: cs)), d.isDigit := by
      rw [hlarge.1]
      exact fun _ => Lexeme.isDigit_of_mem_take
    rw [hof, Literal.ofNumber?_eq_none hstart hdigits hlarge.2]
    rfl
  · have hbegins : Begins c cs .number (Lexeme.numberLength (c :: cs)) := .number h hlarge
    have hstands := hbegins.stands
    rw [← String.toList_ofList (l := (c :: cs).take _)] at hstands
    obtain ⟨l, hl⟩ := hstands.exists_ofNumber?
    rw [Front.of_eq_token_iff.mpr hbegins, hl]
    rfl

/-! ### The numbers of a tree -/

/-- Integers and floats. -/
def Literal.isNumber : Literal → Bool
  | int _ _ | float _ _ => true
  | _ => false

mutual

/-- The literals in a tree that are numbers, from left to right. -/
def Node.numbers : Node → List Literal
  | .name _ => []
  | .literal l => if l.isNumber then [l] else []
  | .unary _ e | .member e _ | .paren e => e.numbers
  | .binary _ a b | .assign _ a b => a.numbers ++ b.numbers
  | .call f as => f.numbers ++ Node.listNumbers as
  | .index a is => a.numbers ++ IndexItem.listNumbers is
  | .list es => Node.listNumbers es

/-- The numbers in each tree of a list. -/
def Node.listNumbers : List Node → List Literal
  | [] => []
  | e :: es => e.numbers ++ Node.listNumbers es

/-- The numbers in a bound of a slice, if there is one. -/
def Node.boundNumbers : Option Node → List Literal
  | none => []
  | some e => e.numbers

/-- The numbers in an item of an index. -/
def IndexItem.numbers : IndexItem → List Literal
  | .expr e => e.numbers
  | .slice a b c _ => Node.boundNumbers a ++ Node.boundNumbers b ++ Node.boundNumbers c
  | .full | .ellipsis => []

/-- The numbers in each item of a list. -/
def IndexItem.listNumbers : List IndexItem → List Literal
  | [] => []
  | i :: is => i.numbers ++ IndexItem.listNumbers is

end

theorem Node.listNumbers_append (es fs : List Node) :
    Node.listNumbers (es ++ fs) = Node.listNumbers es ++ Node.listNumbers fs := by
  induction es with
  | nil => rfl
  | cons e es ih => simp only [List.cons_append, Node.listNumbers, ih, List.append_assoc]

theorem IndexItem.listNumbers_append (is js : List IndexItem) :
    IndexItem.listNumbers (is ++ js) = IndexItem.listNumbers is ++ IndexItem.listNumbers js := by
  induction is with
  | nil => rfl
  | cons i is ih => simp only [List.cons_append, IndexItem.listNumbers, ih, List.append_assoc]

/-- The numbers of a phrase. -/
def Phrase.numbers : Phrase → List Literal
  | expression _ e => e.numbers
  | elements es => Node.listNumbers es
  | bound b => Node.boundNumbers b
  | item i => i.numbers
  | items is => IndexItem.listNumbers is

/-! ### The numbers of a line -/

/-- The literals of the numbers among tokens, absent where a number has none. -/
def Token.numberLiterals (ts : List Token) : List (Option Literal) :=
  (ts.filter (·.kind = .number)).map fun t => Literal.ofNumber? t.text

namespace Token

variable {t : Token} {ts us : List Token}

@[simp] theorem numberLiterals_nil : numberLiterals [] = [] :=
  rfl

@[simp] theorem numberLiterals_append :
    numberLiterals (ts ++ us) = numberLiterals ts ++ numberLiterals us := by
  simp [numberLiterals]

@[simp] theorem numberLiterals_cons_of_ne (h : t.kind ≠ .number) :
    numberLiterals (t :: ts) = numberLiterals ts := by
  simp [numberLiterals, h]

end Token

@[simp] theorem BinaryOp.kind_ne_number (op : BinaryOp) : op.kind ≠ .number := by
  cases op <;> decide

@[simp] theorem UnaryOp.kind_ne_number (op : UnaryOp) : op.kind ≠ .number := by
  cases op <;> decide

@[simp] theorem AssignOp.kind_ne_number (op : AssignOp) : op.kind ≠ .number := by
  cases op <;> decide

/-- A token that is a literal is a number exactly if the literal is. -/
theorem Literal.Written.numbers_eq {t : Token} {l : Literal} (h : l.Written t) :
    Token.numberLiterals [t] = (Node.literal l).numbers.map some := by
  cases h with
  | number hk hl =>
    have hnumber : l.isNumber = true := by
      simp only [ofNumber?] at hl
      split at hl <;> obtain ⟨v, -, rfl⟩ := Option.map_eq_some_iff.mp hl <;> rfl
    simp [Token.numberLiterals, Node.numbers, hk, hl, hnumber]
  | string hk | trueWord hk | falseWord hk | noneWord hk =>
    rw [Token.numberLiterals_cons_of_ne (by rw [hk]; decide)]
    rfl

/-- **The numbers of a phrase are those of its tokens**, by induction on the productions. Apart from
literals, no production has a number of its own. -/
theorem Derives.numbers_eq {ts : List Token} {p : Phrase} (h : Derives ts p) :
    Token.numberLiterals ts = p.numbers.map some := by
  induction h with
  | literal hl => exact hl.numbers_eq
  | noElements | absent => rfl
  | name hk | ellipsis hk | full hk =>
    simp [Phrase.numbers, Node.numbers, IndexItem.numbers, hk]
  | tighter _ ih | oneElement _ ih | present _ ih | entry _ ih | oneItem _ ih =>
    simpa [Phrase.numbers, Node.listNumbers, Node.boundNumbers, IndexItem.numbers,
      IndexItem.listNumbers] using ih
  | unary hk _ ih => simp [Phrase.numbers, Node.numbers, hk, ih]
  | member _ hk hs ih => simp [Phrase.numbers, Node.numbers, hk, hs, ih]
  | paren hk _ hu ih | list hk _ hu ih => simp [Phrase.numbers, Node.numbers, hk, hu, ih]
  | chain _ _ _ hk _ iha ihb | power _ hk _ iha ihb =>
    simp [Phrase.numbers, Node.numbers, hk, iha, ihb]
  | call _ hk _ hu iha ihb | index _ hk _ hu iha ihb =>
    simp [Phrase.numbers, Node.numbers, hk, hu, iha, ihb]
  | moreElements _ _ hk _ iha ihb | moreItems _ hk _ iha ihb =>
    simp [Phrase.numbers, Node.listNumbers_append, Node.listNumbers,
      IndexItem.listNumbers_append, IndexItem.listNumbers, hk, iha, ihb]
  | range _ _ hk _ iha ihb =>
    simp [Phrase.numbers, IndexItem.numbers, Node.boundNumbers, hk, iha, ihb]
  | stepped _ hk _ hu _ iha ihb ihc =>
    simp [Phrase.numbers, IndexItem.numbers, hk, hu, iha, ihb, ihc]

theorem DerivesLine.numbers_eq {ts : List Token} {e : Node} (h : DerivesLine ts e) :
    Token.numberLiterals ts = e.numbers.map some := by
  cases h with
  | expression he => exact he.numbers_eq
  | assign he _ hk hv => simp [Node.numbers, hk, he.numbers_eq, hv.numbers_eq, Phrase.numbers]

/-- **Numbers are read alike** by the reader of tokens and by that of literals. Where a number
starts, there is a token exactly if its text has a literal. A line that has tokens is never refused
for a number. Each number of it has a literal, which is the integer of its digits if it consists of
digits, and a float otherwise, and the numbers of its tree are these literals, from left to right.
And a number that is refused, in the tokens of a line or in the answers to it, is one of digits,
whose value does not fit in a word, and stands in the line at its place. -/
theorem numbers_are_read_alike :
    (∀ c cs, Lexeme.startsNumber (c :: cs) → ∀ n, Lexeme.numberLength (c :: cs) = n →
      Front.of c cs =
        if (Literal.ofNumber? (String.ofList ((c :: cs).take n))).isSome then .token .number n
        else .largeNumber n) ∧
    (∀ line ts, tokenize line = .ok ts →
      (∀ s p, parse line ≠ .error (.lexical (.invalidNumber s p))) ∧
      (∀ t ∈ ts, t.kind = .number → ∃ l, Literal.ofNumber? t.text = some l ∧
        (l = .int t.text (Decimal.value t.text.toList) ↔ ∀ c ∈ t.text.toList, c.isDigit) ∧
        ((∃ x, Decimal.float? t.text.toList = some x ∧ l = .float t.text x) ↔
          ¬ ∀ c ∈ t.text.toList, c.isDigit)) ∧
      ∀ e, parse line = .ok (some e) →
        (ts.filter (·.kind = .number)).map (fun t => Literal.ofNumber? t.text) =
          e.numbers.map some) ∧
    ∀ line s p, (tokenize line = .error (.invalidNumber s p) ∨
        ∃ n, some (.error (.invalidNumber s p)) ∈ (Stream.start line).take n) →
      (∀ c ∈ s.toList, c.isDigit) ∧ Word.half ≤ Decimal.value s.toList ∧
        ∃ pre post, line = pre ++ s ++ post ∧ pre.utf8ByteSize = p := by
  refine ⟨fun c cs hstart n hn => Front.of_eq_ite_ofNumber? hstart hn,
    fun line ts hts => ⟨?_, ?_, ?_⟩, fun line s p h => ?_⟩
  · intro s p h
    rw [parse_eq_lexical_iff, hts] at h
    cases h
  · intro t ht hk
    have hstands := stands_of_tokenize hts ht (by rw [hk]; decide)
    rw [hk] at hstands
    rcases hstands.number_cases with ⟨hdigits, hl⟩ | ⟨hdigits, x, hx, hl⟩
    · refine ⟨_, hl, iff_of_true rfl hdigits, iff_of_false ?_ (· hdigits)⟩
      rintro ⟨x, -, hx⟩
      cases hx
    · exact ⟨_, hl, iff_of_false nofun hdigits, iff_of_true ⟨x, hx, rfl⟩ hdigits⟩
  · intro e he
    obtain ⟨body, stop, hbody, -, -, hline⟩ := parse_eq_ok_some_iff.mp he
    obtain rfl := Except.ok.inj (hts.symm.trans hbody)
    have hend : Token.numberLiterals [Token.ending stop] = [] := rfl
    rw [← hline.numbers_eq, ← Token.numberLiterals, Token.numberLiterals_append, hend,
      List.append_nil]
  · have hpoints : (LexError.invalidNumber s p).PointsInto line := by
      rcases h with h | ⟨n, hn⟩
      · exact pointsInto_of_tokenize h
      · exact Stream.pointsInto (Stream.on_start line) hn
    obtain ⟨pre, rest, hline, hsize, ⟨post, hpost⟩, hdigits, hvalue⟩ := hpoints
    refine ⟨hdigits, hvalue, pre, String.ofList post, ?_, hsize⟩
    rw [hline, String.append_assoc, ← String.ofList_toList (s := rest), ← hpost,
      String.ofList_append, String.ofList_toList]

/-- The point in `4.real` is left to the member, that in `1.e5` is not, and `2 ^ 63` is refused. -/
theorem numbers_of_member_and_large_number :
    (Lexeme.startsNumber "1.e5]".toList ∧ Front.of '1' ".e5]".toList =
      if (Literal.ofNumber? "1.e5").isSome then .token .number 4 else .largeNumber 4) ∧
    (∃ ts l e, tokenize "4.real" = .ok ts ∧ ⟨.number, "4", ⟨0, 1⟩⟩ ∈ ts ∧
      Literal.ofNumber? "4" = some l ∧ l = .int "4" 4 ∧
      parse "4.real" = .ok (some e) ∧ e.numbers.map some = [Literal.ofNumber? "4"]) ∧
    tokenize "é 9223372036854775808" = .error (.invalidNumber "9223372036854775808" 3) ∧
      Word.half ≤ Decimal.value "9223372036854775808".toList ∧
      ∃ pre post, "é 9223372036854775808" = pre ++ "9223372036854775808" ++ post ∧
        pre.utf8ByteSize = 3 := by
  obtain ⟨halike, hread, hrefused⟩ := numbers_are_read_alike
  have htokens : tokenize "4.real" = .ok [⟨.number, "4", ⟨0, 1⟩⟩, ⟨.dot, ".", ⟨1, 2⟩⟩,
      ⟨.name, "real", ⟨2, 6⟩⟩, Token.ending 6] := by
    have hnumber : (Cursor.start "4.real").next =
        (.ok ⟨.number, "4", ⟨0, 1⟩⟩, ⟨1, ".real".toList⟩) := rfl
    have hpoint : (Cursor.mk 1 ".real".toList).next =
        (.ok ⟨.dot, ".", ⟨1, 2⟩⟩, ⟨2, "real".toList⟩) := rfl
    have hname : (Cursor.mk 2 "real".toList).next =
        (.ok ⟨.name, "real", ⟨2, 6⟩⟩, ⟨6, []⟩) := rfl
    have hend : (Cursor.mk 6 []).next = (.ok (Token.ending 6), ⟨6, []⟩) := rfl
    rw [tokenize, Cursor.tokens_of_next_ok hnumber, Cursor.tokens_of_next_ok hpoint,
      Cursor.tokens_of_next_ok hname, Cursor.tokens_of_next_ok hend]
    rfl
  have hparse : parse "4.real" = .ok (some (.member (.literal (.int "4" 4)) "real")) := by
    rw [parse, htokens]
    rfl
  have hlarge : tokenize "é 9223372036854775808" =
      .error (.invalidNumber "9223372036854775808" 3) := by
    have hname : (Cursor.start "é 9223372036854775808").next =
        (.ok ⟨.name, "é", ⟨0, 2⟩⟩, ⟨2, " 9223372036854775808".toList⟩) := rfl
    have hnumber : (Cursor.mk 2 " 9223372036854775808".toList).next =
        (.error (.invalidNumber "9223372036854775808" 3), ⟨22, []⟩) := rfl
    rw [tokenize, Cursor.tokens_of_next_ok hname, Cursor.tokens_of_next_error hnumber]
    rfl
  obtain ⟨-, hliteral, htree⟩ := hread _ _ htokens
  obtain ⟨l, hl, hint, -⟩ := hliteral ⟨.number, "4", ⟨0, 1⟩⟩ (by decide) rfl
  obtain ⟨-, hvalue, hplace⟩ := hrefused _ _ _ (Or.inl hlarge)
  exact ⟨⟨rfl, halike '1' ".e5]".toList rfl 4 rfl⟩,
    ⟨_, l, _, htokens, by decide, hl, hint.mpr (List.all_eq_true.mp (by decide)), hparse,
      (htree _ hparse).symm⟩,
    hlarge, hvalue, hplace⟩

end ShapeFault
