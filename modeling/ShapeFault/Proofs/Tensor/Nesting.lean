import ShapeFault.Tensor.Nesting

/-!
# Rectangular values

A value is rectangular if all lists at one depth of it are of one length and what stands in the
innermost lists is of one shape. The shape of an array that is made of a value is found exactly when
the value is rectangular (`Value.arrayShape_eq_ok_iff`), at whatever depth it stands.
-/

namespace ShapeFault.Value

/-- A number, a tensor, or a list whose members are all of one shape. A list without members is
taken for a list of numbers. -/
inductive HasShape : Value → Shape → Prop where
  | tensor (s : Shape) : HasShape (.tensor s) s
  | int (n : Int) : HasShape (.int n) []
  | float (x : Float) : HasShape (.float x) []
  | bool (b : Bool) : HasShape (.bool b) []
  | list {vs : List Value} {s : Shape} (members : ∀ v ∈ vs, HasShape v s)
      (empty : vs = [] → s = []) : HasShape (.list vs) (vs.length :: s)

theorem nestedShape_list_eq_ok_iff {depth : Nat} {vs : List Value} {s : Shape} :
    nestedShape depth (.list vs) = .ok s ↔
      ∃ t, memberShape (depth + 1) Option.none vs = .ok t ∧ s = vs.length :: t := by
  rw [nestedShape]
  cases memberShape (depth + 1) Option.none vs with
  | error e => constructor <;> nofun
  | ok t =>
    constructor
    · rintro ⟨⟩
      exact ⟨t, rfl, rfl⟩
    · rintro ⟨t, ⟨⟩, rfl⟩
      rfl

theorem memberShape_cons_eq_ok_iff {depth : Nat} {expected : Option Shape} {v : Value}
    {vs : List Value} {s : Shape} :
    memberShape depth expected (v :: vs) = .ok s ↔
      ∃ t, nestedShape depth v = .ok t ∧ (∀ e ∈ expected, t = e) ∧
        memberShape depth (some t) vs = .ok s := by
  rw [memberShape]
  cases nestedShape depth v with
  | error e => constructor <;> nofun
  | ok t =>
    cases expected with
    | none =>
      change memberShape depth (some t) vs = .ok s ↔ _
      simp
    | some e =>
      change (if t = e then memberShape depth (some e) vs else .error (.inhomogeneous depth)) =
        .ok s ↔ _
      by_cases h : t = e
      · simp [h]
      · simp [h]

mutual

/-- The shape of a value is found exactly if the value is rectangular. -/
theorem nestedShape_eq_ok_iff (depth : Nat) :
    (v : Value) → (s : Shape) → (nestedShape depth v = .ok s ↔ v.HasShape s)
  | .tensor t, s => by
    rw [nestedShape, Except.ok.injEq]
    constructor
    · rintro rfl
      exact .tensor t
    · rintro ⟨⟩
      rfl
  | .list vs, s => by
    rw [nestedShape_list_eq_ok_iff]
    constructor
    · rintro ⟨t, ht, rfl⟩
      obtain ⟨members, -, empty⟩ := (memberShape_eq_ok_iff (depth + 1) Option.none vs t).mp ht
      exact .list members fun h => empty h rfl
    · rintro (_ | _ | _ | _ | ⟨members, empty⟩)
      exact ⟨_, (memberShape_eq_ok_iff (depth + 1) Option.none vs _).mpr
        ⟨members, nofun, fun h _ => empty h⟩, rfl⟩
  | .int _, s | .float _, s | .bool _, s => by
    rw [nestedShape, Except.ok.injEq]
    constructor
    · rintro rfl
      constructor
    · rintro ⟨⟩
      rfl
  | .str _, s | .none, s | .library _, s | .object _, s | .function _, s | .method _ _, s => by
    rw [nestedShape]
    constructor <;> nofun

/-- Members have a common shape exactly if each of them has it, and those before them. -/
theorem memberShape_eq_ok_iff (depth : Nat) (expected : Option Shape) :
    (vs : List Value) → (s : Shape) → (memberShape depth expected vs = .ok s ↔
      (∀ v ∈ vs, v.HasShape s) ∧ (∀ e ∈ expected, e = s) ∧
        (vs = [] → expected = Option.none → s = []))
  | [], s => by
    rw [memberShape, Except.ok.injEq]
    cases expected with
    | none => simp [eq_comm]
    | some e => simp
  | v :: vs, s => by
    rw [memberShape_cons_eq_ok_iff, List.forall_mem_cons]
    constructor
    · rintro ⟨t, hv, hexpected, hvs⟩
      -- the shape of the first member is expected of all others
      obtain ⟨members, ht, -⟩ := (memberShape_eq_ok_iff depth (some t) vs s).mp hvs
      obtain rfl := ht t rfl
      exact ⟨⟨(nestedShape_eq_ok_iff depth v t).mp hv, members⟩,
        fun e he => (hexpected e he).symm, nofun⟩
    · rintro ⟨⟨hv, members⟩, hexpected, -⟩
      refine ⟨s, (nestedShape_eq_ok_iff depth v s).mpr hv, fun e he => (hexpected e he).symm, ?_⟩
      exact (memberShape_eq_ok_iff depth (some s) vs s).mpr ⟨members, by simp, nofun⟩

end

theorem arrayShape_eq_ok_iff {v : Value} {s : Shape} : v.arrayShape = .ok s ↔ v.HasShape s :=
  nestedShape_eq_ok_iff 0 v s

end ShapeFault.Value
