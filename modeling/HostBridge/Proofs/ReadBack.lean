import HostBridge.Proofs.Parts
import HostBridge.Proofs.Reading

/-! # Reading what was written, and writing what was read

A host value that was written can always be read back. What comes back differs from it only where an
option holds something that is written as None: then the option comes back as missing. What was read
from a value holds no such option, so it comes back as it is.
-/
namespace HostBridge.Shape

/-! ## What comes back -/

/-- What comes back of a host value that was written. -/
def kept : (s : Shape) → s.Host → s.Host
  | object, v => v
  | bool, b => b
  | int, i => i
  | float, x => x
  | str, t => t
  | list of, items => items.map of.kept
  | option _, none => none
  | option of, some a => if (of.write a).isNone then none else some (of.kept a)

theorem kept_some (of : Shape) (a : of.Host) :
    (option of).kept (some a) =
      if (of.write a).isNone then (none : Option of.Host) else some (of.kept a) := rfl

theorem readEach_map {α : Type} {read : Value → Except ReadError α} {write : α → Value} {back : α → α}
    (h : ∀ a, read (write a) = .ok (back a)) (items : List α) :
    readEach read (items.map write) = .ok (items.map back) := by
  induction items with
  | nil => rfl
  | cons a rest ih => rw [List.map_cons, readEach, h, ih, List.map_cons]

theorem read_write (s : Shape) (a : s.Host) : s.read (s.write a) = .ok (s.kept a) := by
  induction s with
  | object | bool | int | float | str => rfl
  | list of ih => exact readEach_map ih a
  | option of ih =>
    cases a with
    | none => rfl
    | some a =>
      rw [write, read_option, ih, kept_some]
      cases (of.write a).isNone <;> rfl

/-! ## Shapes of which everything comes back -/

/-- The shape and the shapes that it is made of. -/
def parts : Shape → List Shape
  | list of => list of :: of.parts
  | option of => option of :: of.parts
  | object => [object]
  | bool => [bool]
  | int => [int]
  | float => [float]
  | str => [str]

theorem exists_isNone_write_iff (s : Shape) :
    (∃ a, (s.write a).isNone = true) ↔ s = object ∨ ∃ of, s = option of := by
  cases s with
  | object => exact iff_of_true ⟨Value.none, rfl⟩ (.inl rfl)
  | option of => exact iff_of_true ⟨none, rfl⟩ (.inr ⟨of, rfl⟩)
  | bool | int | float | str | list =>
    constructor
    · rintro ⟨a, ha⟩
      cases ha
    · rintro (h | ⟨of, h⟩) <;> cases h

theorem kept_list_eq_self_iff (of : Shape) :
    (∀ a, (list of).kept a = a) ↔ ∀ a, of.kept a = a := by
  constructor
  · intro h a
    exact List.singleton_inj.mp (h [a])
  · intro h items
    exact (List.map_congr_left fun a _ => h a).trans (List.map_id _)

theorem kept_option_eq_self_iff (of : Shape) :
    (∀ a, (option of).kept a = a) ↔
      (¬ ∃ a, (of.write a).isNone = true) ∧ ∀ a, of.kept a = a := by
  constructor
  · intro h
    have hpresent : ∀ a, (of.write a).isNone = false ∧ of.kept a = a := by
      intro a
      have ha := h (some a)
      rw [kept_some] at ha
      cases hnone : (of.write a).isNone with
      | true => rw [hnone] at ha; cases ha
      | false => rw [hnone] at ha; exact ⟨rfl, Option.some.inj ha⟩
    refine ⟨?_, fun a => (hpresent a).2⟩
    rintro ⟨a, ha⟩
    exact Bool.false_ne_true ((hpresent a).1.symm.trans ha)
  · rintro ⟨hnone, hof⟩ a
    cases a with
    | none => rfl
    | some a =>
      have ha : (of.write a).isNone = false := Bool.eq_false_iff.mpr fun h => hnone ⟨a, h⟩
      rw [kept_some, ha]
      exact congrArg some (hof a)

theorem kept_eq_self_iff (s : Shape) :
    (∀ a, s.kept a = a) ↔ ∀ t ∈ s.parts, t ≠ option object ∧ ∀ of, t ≠ option (option of) := by
  induction s with
  | object | bool | int | float | str =>
    refine iff_of_true (fun _ => rfl) fun t ht => ?_
    cases List.mem_singleton.mp ht
    exact ⟨nofun, nofun⟩
  | list of ih =>
    rw [kept_list_eq_self_iff, ih, parts, List.forall_mem_cons]
    exact (and_iff_right ⟨nofun, nofun⟩).symm
  | option of ih =>
    rw [kept_option_eq_self_iff, ih, parts, List.forall_mem_cons, exists_isNone_write_iff]
    simp

/-- Everything that is written in a shape is read back as it was if and only if no option in the shape
stands directly around an option or around any value. -/
theorem reading_undoes_writing (s : Shape) :
    (∀ a : s.Host, s.read (s.write a) = .ok a) ↔
      ∀ t ∈ s.parts, t ≠ option object ∧ ∀ of, t ≠ option (option of) := by
  simp only [read_write, Except.ok.injEq, kept_eq_self_iff]

/-- A missing value inside of an option comes back as an option that is missing. -/
example : (option (option int)).read ((option (option int)).write (some none)) = .ok none := rfl

/-! ## What was read from a value -/

/-- What was read comes back as it is, and None is written for it if and only if it was read from
None. -/
theorem kept_of_read {s : Shape} {v : Value} {a : s.Host} (h : s.read v = .ok a) :
    s.kept a = a ∧ (s.write a).isNone = v.isNone := by
  -- Both together: an option that is not missing comes back if None is not written for what it holds.
  induction s generalizing v with
  | object =>
    cases h
    exact ⟨rfl, rfl⟩
  | bool | int | float | str =>
    rcases v with ⟨p, host⟩
    cases p <;> cases h <;> exact ⟨rfl, rfl⟩
  | list of ih =>
    rcases v with ⟨p, host⟩
    cases p with
    | list items =>
      refine ⟨(List.map_congr_left fun b hb => ?_).trans (List.map_id _), rfl⟩
      obtain ⟨u, -, hread⟩ := mem_of_readEach h hb
      exact (ih hread).1
    | none | bool | int | float | str | dict | callable | object => cases h
  | option of ih =>
    rw [read_option] at h
    cases hv : v.isNone with
    | true =>
      rw [hv] at h
      cases h
      exact ⟨rfl, rfl⟩
    | false =>
      rw [hv] at h
      cases hread : of.read v with
      | error e =>
        rw [hread] at h
        cases h
      | ok b =>
        rw [hread] at h
        cases h
        obtain ⟨hb, hnone⟩ := ih hread
        rw [hv] at hnone
        exact ⟨by rw [kept_some, hnone, hb]; rfl, hnone⟩

theorem convert_of_read {s : Shape} {v : Value} {a : s.Host} (h : s.read v = .ok a) :
    s.convert v = .ok (s.write a) := by
  rw [convert, h, Except.map]

/-- If nothing is taken as it is, what is written is made of nothing but what was read. -/
theorem derived_write_of_not_mem {s : Shape} (hs : object ∉ s.parts) (a : s.Host) :
    Value.Derived False ∅ (s.write a) := by
  induction s with
  | object => exact absurd List.mem_cons_self hs
  | bool | int | float | str => exact .scalar rfl
  | list of ih =>
    refine .list fun v hv => ?_
    obtain ⟨b, -, rfl⟩ := List.mem_map.mp hv
    exact ih (fun h => hs (List.mem_cons_of_mem _ h)) b
  | option of ih =>
    cases a with
    | none => exact .scalar rfl
    | some b => exact ih (fun h => hs (List.mem_cons_of_mem _ h)) b

/-- What is written for anything but a value has the host types that belong to its payloads. -/
theorem labelled_write {s : Shape} (hs : object ∉ s.parts) (a : s.Host) :
    (s.write a).Entirely fun u => u.host = u.payload.hostType := by
  refine (derived_write_of_not_mem hs a).entirely ⟨?_, ?_, False.elim⟩ nofun
  · intro p _
    rfl
  · intro v c _ _
    rfl

/-- What was read from a value is read again from what is written for it, which is None if and only if
the value is. So converting a second time changes nothing, though the first time makes an Int of a Bool
and a Float of an Int, and gives every value the host type that belongs to its payload, unless values
are taken as they are. -/
theorem conversion_settles :
    (∀ (s : Shape) (v : Value) (a : s.Host), s.read v = .ok a →
      s.read (s.write a) = .ok a ∧ ((s.write a).isNone = true ↔ v.isNone = true) ∧
      s.convert v = .ok (s.write a) ∧ s.convert (s.write a) = .ok (s.write a) ∧
      (object ∉ s.parts → (s.write a).Entirely fun u => u.host = u.payload.hostType)) ∧
    (∀ b host, int.convert (.mk (.bool b) host) = .ok (.ofInt (if b then 1 else 0))) ∧
    ∀ i host, float.convert (.mk (.int i) host) = .ok (.ofFloat (Binary64.ofInt i.toInt)) := by
  refine ⟨?_, fun _ _ => rfl, fun _ _ => rfl⟩
  intro s v a h
  obtain ⟨hkept, hnone⟩ := kept_of_read h
  have hagain : s.read (s.write a) = .ok a := by rw [read_write, hkept]
  exact ⟨hagain, by rw [hnone], convert_of_read h, convert_of_read hagain,
    fun hs => labelled_write hs a⟩

/-! Optional rows of optional numbers, with an Int where a Float is wanted and other host types. -/

def looseRow : Value := .mk (.list [.mk (.int 3) .unit, .mk .none .bool]) .unit

theorem conversion_settles_loose :
    let rows := option (list (option float))
    let row := Value.ofList [.ofFloat ⟨0x4008000000000000⟩, .none]
    (object ∉ rows.parts ∧ rows.read looseRow = .ok (some [some ⟨0x4008000000000000⟩, none])) ∧
    rows.read row = .ok (some [some ⟨0x4008000000000000⟩, none]) ∧
    (row.isNone = true ↔ looseRow.isNone = true) ∧
    rows.convert looseRow = .ok row ∧ rows.convert row = .ok row ∧
    row.Entirely fun u => u.host = u.payload.hostType := by
  intro rows row
  have hobject : object ∉ rows.parts := by decide
  have hread : rows.read looseRow = .ok (some [some ⟨0x4008000000000000⟩, none]) := rfl
  obtain ⟨hagain, hnone, hfirst, hsecond, hlabels⟩ := conversion_settles.1 rows looseRow _ hread
  exact ⟨⟨hobject, hread⟩, hagain, hnone, hfirst, hsecond, hlabels hobject⟩

end HostBridge.Shape
