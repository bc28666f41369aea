import HostBridge.Conversion.Shape

/-! # When a value can be read, and what is said when it cannot

Reading goes through a value depth first and from left to right, a list before its elements, and asks
for a kind of value at every place. It fails at the first place that holds another kind, and names what
was asked for and what was found there.
-/
namespace HostBridge.Shape

theorem read_option (of : Shape) (v : Value) :
    (option of).read v =
      if v.isNone then .ok (none : Option of.Host) else (of.read v).map some := by
  rw [read]
  cases v.isNone with
  | true => rfl
  | false => cases of.read v <;> rfl

/-- The value has the shape. Truth values count as integers, and integers as numbers. -/
inductive Fits : Shape → Value → Prop
  | object (v : Value) : Fits object v
  | bool (b : Bool) (host : HostType) : Fits bool (.mk (.bool b) host)
  | int (i : Int64) (host : HostType) : Fits int (.mk (.int i) host)
  | intOfBool (b : Bool) (host : HostType) : Fits int (.mk (.bool b) host)
  | float (x : Binary64) (host : HostType) : Fits float (.mk (.float x) host)
  | floatOfInt (i : Int64) (host : HostType) : Fits float (.mk (.int i) host)
  | str (t : String) (host : HostType) : Fits str (.mk (.str t) host)
  | list {of : Shape} {items : List Value} {host : HostType} (h : ∀ v ∈ items, Fits of v) :
      Fits (list of) (.mk (.list items) host)
  | missing (of : Shape) (host : HostType) : Fits (option of) (.mk .none host)
  | present {of : Shape} {v : Value} (h : Fits of v) : Fits (option of) v

/-! ## Demands -/

/-- What is asked for at one place of a value, and what is found there. -/
structure Demand where
  asked : Shape
  found : Value

namespace Demand

/-- The kind of value that is found is the one that is asked for, whatever is inside it. -/
def isMet (d : Demand) : Bool := match d.asked, d.found.payload with
  | .object, _ | .bool, .bool _ | .int, .int _ | .int, .bool _ | .float, .float _ | .float, .int _
  | .str, .str _ | .list _, .list _ => true
  | _, _ => false

def complaint? (d : Demand) : Option ReadError :=
  if d.isMet then none else some (.mismatch d.asked.name d.found.typeName)

theorem complaint?_eq_none {d : Demand} : d.complaint? = none ↔ d.isMet = true := by
  simp [complaint?]

theorem complaint?_eq_some {d : Demand} {e : ReadError} :
    d.complaint? = some e ↔ d.isMet = false ∧ e = .mismatch d.asked.name d.found.typeName := by
  cases hd : d.isMet <;> simp [complaint?, hd, eq_comm]

end Demand

/-- The places of a value in the order of reading. What may be missing is asked for as what is wanted,
and if it is missing nothing is asked for. -/
def demands : Shape → Value → List Demand
  | object, v => [⟨object, v⟩]
  | bool, v => [⟨bool, v⟩]
  | int, v => [⟨int, v⟩]
  | float, v => [⟨float, v⟩]
  | str, v => [⟨str, v⟩]
  | list of, v => ⟨list of, v⟩ :: (v.asList.getD []).flatMap of.demands
  | option of, v => if v.isNone then [] else of.demands v

theorem asked_ne_option {s : Shape} {v : Value} {d : Demand} (hd : d ∈ s.demands v) (of : Shape) :
    d.asked ≠ option of := by
  induction s generalizing v with
  | object | bool | int | float | str =>
    cases List.mem_singleton.mp hd
    exact nofun
  | list inner ih =>
    rcases List.mem_cons.mp hd with rfl | hd
    · exact nofun
    · obtain ⟨item, -, hd⟩ := List.mem_flatMap.mp hd
      exact ih hd
  | option inner ih =>
    rw [demands] at hd
    split at hd
    · cases hd
    · exact ih hd

/-- A value has a shape if and only if every demand is met. -/
theorem fits_iff {s : Shape} {v : Value} : s.Fits v ↔ ∀ d ∈ s.demands v, d.isMet = true := by
  induction s generalizing v with
  | object => exact iff_of_true (.object v) (List.forall_mem_singleton.mpr rfl)
  | bool | int | float | str =>
    rw [demands, List.forall_mem_singleton]
    rcases v with ⟨p, host⟩
    constructor
    · intro h
      cases h <;> rfl
    · intro h
      cases p <;> cases h <;> constructor
  | list of ih =>
    rw [demands, List.forall_mem_cons, List.forall_mem_flatMap]
    rcases v with ⟨p, host⟩
    constructor
    · intro h
      cases h with
      | list h => exact ⟨rfl, fun v hv => ih.mp (h v hv)⟩
    · rintro ⟨hlist, hitems⟩
      cases p with
      | list items => exact .list fun v hv => ih.mpr (hitems v hv)
      | none | bool | int | float | str | dict | callable | object => cases hlist
  | option of ih =>
    rw [demands]
    cases hv : v.isNone with
    | true =>
      rcases v with ⟨p, host⟩
      cases p with
      | none => exact iff_of_true (.missing of host) nofun
      | bool | int | float | str | list | dict | callable | object => cases hv
    | false =>
      rw [if_neg Bool.false_ne_true, ← ih]
      constructor
      · intro h
        cases h with
        | missing => cases hv
        | present h => exact h
      · exact .present

/-! ## Failures -/

def failure? {α : Type} : Except ReadError α → Option ReadError
  | .ok _ => none
  | .error e => some e

theorem failure?_eq_none {α : Type} {result : Except ReadError α} :
    failure? result = none ↔ ∃ a, result = .ok a := by
  cases result <;> simp [failure?]

theorem failure?_map {α β : Type} (f : α → β) (result : Except ReadError α) :
    failure? (result.map f) = failure? result := by
  cases result <;> rfl

theorem failure?_readEach {α : Type} {read : Value → Except ReadError α}
    {demands : Value → List Demand}
    (hread : ∀ v, failure? (read v) = (demands v).findSome? Demand.complaint?)
    (items : List Value) :
    failure? (readEach read items) = (items.flatMap demands).findSome? Demand.complaint? := by
  induction items with
  | nil => rfl
  | cons v rest ih =>
    rw [List.flatMap_cons, List.findSome?_append, ← hread, ← ih, readEach]
    cases read v with
    | error e => rfl
    | ok a => cases readEach read rest <;> rfl

/-- Reading fails with the complaint about the first demand that is not met. -/
theorem failure?_read (s : Shape) (v : Value) :
    failure? (s.read v) = (s.demands v).findSome? Demand.complaint? := by
  induction s generalizing v with
  | object => rfl
  | bool | int | float | str =>
    rcases v with ⟨p, host⟩
    cases p <;> rfl
  | list of ih =>
    rcases v with ⟨p, host⟩
    cases p with
    | list items => exact failure?_readEach ih items
    | none | bool | int | float | str | dict | callable | object => rfl
  | option of ih =>
    rw [read_option, demands]
    cases v.isNone with
    | true => rfl
    | false => exact (failure?_map some (of.read v)).trans (ih v)

theorem read_eq_ok_iff {s : Shape} {v : Value} : (∃ a, s.read v = .ok a) ↔ s.Fits v := by
  rw [← failure?_eq_none, failure?_read, List.findSome?_eq_none_iff, fits_iff]
  simp only [Demand.complaint?_eq_none]

theorem exists_first_unmet {s : Shape} {v : Value} (hv : ¬ s.Fits v) :
    ∃ before d after, s.demands v = before ++ d :: after ∧ (∀ b ∈ before, b.isMet = true) ∧
      d.isMet = false ∧ s.read v = .error (.mismatch d.asked.name d.found.typeName) := by
  cases hread : s.read v with
  | ok a => exact absurd (read_eq_ok_iff.mp ⟨a, hread⟩) hv
  | error e =>
    have hfirst := failure?_read s v
    rw [hread] at hfirst
    obtain ⟨before, d, after, hdemands, hd, hbefore⟩ := List.findSome?_eq_some_iff.mp hfirst.symm
    obtain ⟨hunmet, rfl⟩ := Demand.complaint?_eq_some.mp hd
    exact ⟨before, d, after, hdemands, fun b hb => Demand.complaint?_eq_none.mp (hbefore b hb),
      hunmet, rfl⟩

/-- A value can be read if and only if it has the shape. Otherwise a type error names what was asked
for, never an option, and what was found at the first place where these do not agree. An argument is
read like any value, and one that is missing is named by its index and the number of arguments. -/
theorem reading_fails_at_first_mismatch (s : Shape) (v : Value) (args : List Value) (index : Nat) :
    ((∃ a, s.read v = .ok a) ↔ s.Fits v) ∧
    (¬ s.Fits v → ∃ before d after, s.demands v = before ++ d :: after ∧
      (∀ b ∈ before, b.isMet = true) ∧ d.isMet = false ∧ (∀ of, d.asked ≠ option of) ∧
      ∃ e, s.read v = .error e ∧ e.exception =
        .raised .typeError ("expected " ++ d.asked.name ++ ", got " ++ d.found.typeName)) ∧
    (∀ h : index < args.length, s.argument args index = s.read args[index]) ∧
    (args.length ≤ index → ∃ e, s.argument args index = .error e ∧ e.exception =
      .raised .typeError ("missing required positional argument " ++ toString index ++
        " (got " ++ toString args.length ++ ")")) := by
  refine ⟨read_eq_ok_iff, ?_, ?_, ?_⟩
  · intro hv
    obtain ⟨before, d, after, hdemands, hbefore, hd, hread⟩ := exists_first_unmet hv
    have hmem : d ∈ s.demands v := by
      rw [hdemands]
      exact List.mem_append_right _ List.mem_cons_self
    exact ⟨before, d, after, hdemands, hbefore, hd, asked_ne_option hmem, _, hread, rfl⟩
  · intro h
    rw [argument, List.getElem?_eq_getElem h]
  · intro h
    rw [argument, List.getElem?_eq_none h]
    exact ⟨_, rfl, rfl⟩

/-! A list of optional lists of whole numbers with a text at one place and a list at a later one. -/

def mixedRows : Value :=
  .ofList [.none, .ofList [.ofInt 1, .ofBool true], .ofList [.ofString "x"], .ofInt 2]

theorem reading_fails_at_first_mismatch_nested :
    let rows := list (option (list int))
    ¬ rows.Fits mixedRows ∧
    (∃ d ∈ rows.demands mixedRows, d.isMet = false ∧ ∃ e, rows.read mixedRows = .error e ∧
      e.exception = .typeError ("expected " ++ d.asked.name ++ ", got " ++ d.found.typeName) ∧
      e.exception.text = "TypeError: expected int, got str") ∧
    rows.argument [mixedRows] 0 = rows.read mixedRows ∧
    ∃ e, rows.argument [mixedRows] 1 = .error e ∧
      e.exception.text = "TypeError: missing required positional argument 1 (got 1)" := by
  intro rows
  obtain ⟨hfits, hfails, hargument, -⟩ :=
    reading_fails_at_first_mismatch rows mixedRows [mixedRows] 0
  obtain ⟨-, -, -, hmissing⟩ := reading_fails_at_first_mismatch rows mixedRows [mixedRows] 1
  have hread : rows.read mixedRows = .error (.mismatch "int" "str") := rfl
  have hunfit : ¬ rows.Fits mixedRows := by
    rw [← hfits, hread]
    exact nofun
  refine ⟨hunfit, ?_, hargument Nat.zero_lt_one, ?_⟩
  · obtain ⟨before, d, after, hdemands, -, hd, -, e, he, hmessage⟩ := hfails hunfit
    refine ⟨d, ?_, hd, e, he, hmessage, ?_⟩
    · rw [hdemands]
      exact List.mem_append_right _ List.mem_cons_self
    · cases hread.symm.trans he
      decide
  · obtain ⟨e, he, hmessage⟩ := hmissing Nat.le.refl
    exact ⟨e, he, by rw [hmessage]; decide⟩

end HostBridge.Shape
