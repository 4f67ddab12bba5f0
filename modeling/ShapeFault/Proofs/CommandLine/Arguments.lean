import Mathlib.Data.List.TakeDrop
import Mathlib.Data.List.TakeWhile
import ShapeFault.CommandLine

/-!
# Arguments that ask for a value

`Asks` tells which arguments ask for the value of a line, without going through them: options with
what belongs to them, and the line behind the options. They are read as a command exactly then
(`ofArguments_eq_ok_iff`). Of several bindings of a name, the last is in effect
(`Command.environment_eq`).
-/

namespace ShapeFault.CommandLine

/-- The arguments that are options and no lines. -/
def options : List String :=
  ["--bind", "-b", "--policy", "-p", "--repr", "--help", "-h"]

/-- Arguments that ask for the value of a line: the bindings in their order, the policy file that is
named last, and the line. -/
inductive Asks : List String → List (String × Value) → Option String → String → Prop where
  | line {line : String} (hline : line ∉ options) : Asks [line] [] none line
  | bind {option name text line : String} {v : Value} {args : List String}
      {bindings : List (String × Value)} {path : Option String}
      (hoption : option = "--bind" ∨ option = "-b") (hname : '=' ∉ name.toList)
      (hvalue : Value.read? text = some v) (hrest : Asks args bindings path line) :
      Asks (option :: (name ++ "=" ++ text) :: args) ((Text.trim name, v) :: bindings) path line
  | policy {option file line : String} {args : List String} {bindings : List (String × Value)}
      {path : Option String} (hoption : option = "--policy" ∨ option = "-p")
      (hrest : Asks args bindings path line) :
      Asks (option :: file :: args) bindings (path.or (some file)) line

/-- A binding is split at its first equals sign. -/
theorem splitBinding?_eq_some_iff {binding name text : String} :
    splitBinding? binding = some (name, text) ↔
      '=' ∉ name.toList ∧ binding = name ++ "=" ++ text := by
  have hjoin : (name ++ "=" ++ text).toList = name.toList ++ '=' :: text.toList := by
    simp [String.toList_append]
  rw [splitBinding?, List.span_eq_takeWhile_dropWhile, ← String.toList_inj, hjoin]
  constructor
  · intro h
    have hname : '=' ∉ binding.toList.takeWhile (· ≠ '=') := fun hmem => by
      simpa using List.mem_takeWhile_imp hmem
    have hparts := binding.toList.takeWhile_append_dropWhile (p := (· ≠ '='))
    have hhead := binding.toList.head?_dropWhile_not (· ≠ '=')
    revert h hparts hhead
    generalize binding.toList.dropWhile (· ≠ '=') = rest
    intro h hparts hhead
    cases rest with
    | nil => cases h
    | cons c cs =>
      cases h
      obtain rfl : c = '=' := by simpa using hhead
      rw [String.toList_ofList, String.toList_ofList]
      exact ⟨hname, hparts.symm⟩
  · rintro ⟨hname, hbinding⟩
    have hne : ∀ c ∈ name.toList, decide (c ≠ '=') = true := by
      intro c hc
      exact decide_eq_true fun heq => hname (heq ▸ hc)
    rw [hbinding, List.takeWhile_append_of_pos hne, List.dropWhile_append_of_pos hne]
    simp

/-- **Arguments that ask for a value are read** as the command with these bindings, those named
later first. -/
theorem Asks.readArguments_eq {args : List String} {bindings : List (String × Value)}
    {path : Option String} {line : String} (h : Asks args bindings path line)
    (bound : List (String × Value)) (policyPath : Option String) :
    readArguments bound policyPath false args =
      .ok ⟨bindings.reverse ++ bound, path.or policyPath, false, line⟩ := by
  induction h generalizing bound policyPath with
  | line hline =>
    simp only [options, List.mem_cons, List.not_mem_nil, or_false, not_or] at hline
    simp [readArguments, hline]
  | @bind option name text line v args bindings path hoption hname hvalue _ ih =>
    have hsplit : splitBinding? (name ++ "=" ++ text) = some (name, text) :=
      splitBinding?_eq_some_iff.mpr ⟨hname, rfl⟩
    rw [readArguments, if_pos hoption, hsplit]
    simp only [hvalue, ih, List.reverse_cons, List.append_assoc, List.singleton_append]
  | @policy option file line args bindings path hoption _ ih =>
    have hbind : ¬(option = "--bind" ∨ option = "-b") := by
      rcases hoption with rfl | rfl <;> decide
    rw [readArguments, if_neg hbind, if_pos hoption]
    simp only [ih, Option.or_assoc, Option.some_or]

/-- What is read as a command for a value are arguments that ask for it. By induction on what is
read: no option takes back that the outline is wanted, so it must not be wanted before. -/
theorem asks_of_readArguments {args : List String} {c : Command} {outline : Bool}
    {bound : List (String × Value)} {policyPath : Option String}
    (h : readArguments bound policyPath outline args = .ok c) (hc : c.outline = false) :
    ∃ bindings path, Asks args bindings path c.line ∧ outline = false ∧
      c = ⟨bindings.reverse ++ bound, path.or policyPath, false, c.line⟩ := by
  fun_induction readArguments bound policyPath outline args with
  | case5 bound policyPath outline option hoption binding args name text hsplit v hvalue ih =>
    obtain ⟨bindings, path, hasks, houtline, heq⟩ := ih h
    obtain ⟨hname, rfl⟩ := splitBinding?_eq_some_iff.mp hsplit
    refine ⟨_, path, .bind hoption hname hvalue hasks, houtline, ?_⟩
    rw [List.reverse_cons, List.append_assoc]
    exact heq
  | case7 bound policyPath outline option _ hoption file args ih =>
    obtain ⟨bindings, path, hasks, houtline, heq⟩ := ih h
    refine ⟨bindings, _, .policy hoption hasks, houtline, ?_⟩
    rw [Option.or_assoc]
    exact heq
  | case8 bound policyPath outline args _ _ ih =>
    obtain ⟨-, -, -, houtline, -⟩ := ih h
    cases houtline
  | case10 bound policyPath outline line hbind hpolicy hrepr hhelp =>
    obtain rfl := Except.ok.inj h
    have hline : line ∉ options := by
      simp only [not_or] at hbind hpolicy hhelp
      simp [options, hbind, hpolicy, hrepr, hhelp]
    exact ⟨[], none, .line hline, hc, congrArg (Command.mk _ _ · _) hc⟩
  | _ => cases h

/-- **The arguments that are read** as a command for a value are those that ask for it. -/
theorem ofArguments_eq_ok_iff {args : List String} {c : Command} :
    Command.ofArguments args = .ok c ∧ c.outline = false ↔
      ∃ bindings, Asks args bindings c.policyPath c.line ∧
        c = ⟨bindings.reverse, c.policyPath, false, c.line⟩ := by
  constructor
  · rintro ⟨h, hc⟩
    obtain ⟨bindings, path, hasks, -, heq⟩ := asks_of_readArguments h hc
    rw [List.append_nil, Option.or_none] at heq
    rw [heq]
    exact ⟨bindings, hasks, rfl⟩
  · rintro ⟨bindings, hasks, heq⟩
    have hread := hasks.readArguments_eq [] none
    rw [List.append_nil, Option.or_none] at hread
    exact ⟨hread.trans (congrArg _ heq.symm), congrArg Command.outline heq⟩

/-- The names that are bound by bindings, of which the last one of a name is in effect, and those
that are bound from the start. -/
def environmentOf (bindings : List (String × Value)) : Environment := fun id =>
  (bindings.reverse.lookup id).or (Environment.prelude id)

/-- **The last binding of a name is in effect.** -/
theorem Command.environment_eq (bindings : List (String × Value)) (path : Option String)
    (outline : Bool) (line : String) :
    (Command.mk bindings.reverse path outline line).environment = environmentOf bindings := by
  funext id
  rw [environment, environmentOf]
  induction bindings.reverse with
  | nil => rfl
  | cons b bs ih =>
    rw [List.foldr_cons, Environment.bind, ih, List.lookup_cons]
    by_cases h : id = b.1
    · rw [if_pos h, beq_iff_eq.mpr h]
      rfl
    · rw [if_neg h, beq_eq_false_iff_ne.mpr h]

end ShapeFault.CommandLine
