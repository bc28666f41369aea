import HostBridge.Proofs.Equality
import HostBridge.Proofs.ReadBack
import HostBridge.Proofs.WholeNumbers

/-! # Equal values are read alike

Two equal values can differ in that one has an Int where the other has a Float. A shape that does not
ask for whole numbers cannot tell them apart: from equal values it reads equal host values, for which
equal values are written.
-/
namespace HostBridge

/-! ## Rounded numbers -/

namespace Binary64

/-- A magnitude up to that of infinity has fraction zero if it has the exponent of infinity. -/
theorem isNaN_ofMagnitude (negative : Bool) {m : Nat} (hm : m ≤ infinityMagnitude) :
    (ofMagnitude negative m).isNaN = false := by
  have hlt : m < signWeight := Nat.lt_of_le_of_lt hm (by decide)
  simp only [isNaN, exponentField, fraction, toNat_ofMagnitude hlt, decide_eq_false_iff_not]
  simp only [infinityMagnitude, signWeight, exponentWeight] at *
  split <;> omega

theorem isNaN_ofInt (i : Int) : (ofInt i).isNaN = false := by
  unfold ofInt nearest
  split
  · exact isNaN_ofMagnitude _ (Nat.zero_le _)
  · exact isNaN_ofMagnitude _ (Nat.min_le_right _ _)

end Binary64

namespace Shape

/-! ## Equality of host values -/

/-- Host values are equal as the host compares them: numbers and dynamic values by their own equality,
lists element by element. -/
def HostEq : (s : Shape) → s.Host → s.Host → Prop
  | object, v, w => v.eq w = true
  | bool, a, b => a = b
  | int, i, j => i = j
  | float, x, y => x.eq y = true
  | str, t, u => t = u
  | list of, items, others => List.Forall₂ of.HostEq items others
  | option of, a, b => Option.Rel of.HostEq a b

theorem eq_write {s : Shape} {a b : s.Host} (h : s.HostEq a b) :
    (s.write a).eq (s.write b) = true := by
  induction s with
  | object => exact h
  | bool | int | str =>
    cases h
    exact Value.eq_self_iff.mpr ⟨rfl, fun u hu => absurd hu (Value.not_within_of_isScalar rfl)⟩
  | float => exact Value.eq_iff.mpr (.float h)
  | list of ih =>
    refine Value.eq_iff.mpr (.list ?_)
    exact List.forall₂_map_left_iff.mpr (List.forall₂_map_right_iff.mpr (h.imp fun _ _ => ih))
  | option of ih =>
    cases h with
    | none => rfl
    | some h => exact ih h

/-! ## Readings -/

/-- Both end in failure, or both in success with results that are related. -/
inductive SameEnd {α : Type} (R : α → α → Prop) : Except ReadError α → Except ReadError α → Prop
  | error (e f : ReadError) : SameEnd R (.error e) (.error f)
  | ok {a b : α} (h : R a b) : SameEnd R (.ok a) (.ok b)

theorem SameEnd.map {α β : Type} {R : α → α → Prop} {S : β → β → Prop} {f : α → β}
    (hf : ∀ a b, R a b → S (f a) (f b)) {x y : Except ReadError α} (h : SameEnd R x y) :
    SameEnd S (x.map f) (y.map f) := by
  cases h with
  | error e f => exact .error e f
  | ok h => exact .ok (hf _ _ h)

theorem sameEnd_readEach {α : Type} {R : α → α → Prop} {read : Value → Except ReadError α}
    (hread : ∀ v w : Value, v.eq w = true → SameEnd R (read v) (read w)) {xs ys : List Value}
    (h : List.Forall₂ (fun x y => x.eq y = true) xs ys) :
    SameEnd (List.Forall₂ R) (readEach read xs) (readEach read ys) := by
  induction h with
  | nil => exact .ok .nil
  | @cons x y xs ys hxy _ ih =>
    rw [readEach, readEach]
    have hfirst := hread x y hxy
    generalize read x = a at hfirst
    generalize read y = b at hfirst
    cases hfirst with
    | error e f => exact .error e f
    | ok hab =>
      generalize readEach read xs = as at ih
      generalize readEach read ys = bs at ih
      cases ih with
      | error e f => exact .error e f
      | ok hrest => exact .ok (.cons hab hrest)

theorem isNone_eq_of_eq {v w : Value} (h : v.eq w = true) : v.isNone = w.isNone := by
  rcases v with ⟨p, host⟩
  rcases w with ⟨q, host'⟩
  cases Value.eq_iff.mp h <;> rfl

theorem sameEnd_read {s : Shape} (hs : int ∉ s.parts) {v w : Value} (h : v.eq w = true) :
    SameEnd s.HostEq (s.read v) (s.read w) := by
  induction s generalizing v w with
  | object => exact .ok h
  | int => exact absurd List.mem_cons_self hs
  | bool =>
    rcases v with ⟨p, host⟩
    rcases w with ⟨q, host'⟩
    cases Value.eq_iff.mp h with
    | bool b => exact .ok rfl
    | _ => exact .error _ _
  | float =>
    rcases v with ⟨p, host⟩
    rcases w with ⟨q, host'⟩
    cases Value.eq_iff.mp h with
    | float hxy => exact .ok hxy
    | intFloat hiy => exact .ok hiy
    | floatInt hjx => exact .ok (Binary64.eq_symm hjx)
    | int i =>
      have hself : (Binary64.ofInt i.toInt).eq (Binary64.ofInt i.toInt) = true := by
        rw [Binary64.eq_self, Binary64.isNaN_ofInt]
        rfl
      exact .ok hself
    | _ => exact .error _ _
  | str =>
    rcases v with ⟨p, host⟩
    rcases w with ⟨q, host'⟩
    cases Value.eq_iff.mp h with
    | str t => exact .ok rfl
    | _ => exact .error _ _
  | list of ih =>
    have hof : int ∉ of.parts := fun hmem => hs (List.mem_cons_of_mem _ hmem)
    rcases v with ⟨p, host⟩
    rcases w with ⟨q, host'⟩
    cases Value.eq_iff.mp h with
    | list hxs => exact sameEnd_readEach (fun x y => ih hof) hxs
    | _ => exact .error _ _
  | option of ih =>
    have hof : int ∉ of.parts := fun hmem => hs (List.mem_cons_of_mem _ hmem)
    rw [read_option, read_option, isNone_eq_of_eq h]
    cases w.isNone with
    | true => exact .ok .none
    | false => exact (ih hof h).map fun _ _ => .some

/-- A shape that asks for no whole number reads equal host values from equal values, or nothing from
either, and converts them to equal values. -/
theorem equal_values_convert_alike {s : Shape} (hs : int ∉ s.parts) {v w : Value}
    (h : v.eq w = true) :
    SameEnd s.HostEq (s.read v) (s.read w) ∧
      SameEnd (fun x y => x.eq y = true) (s.convert v) (s.convert w) := by
  have hread := sameEnd_read hs h
  exact ⟨hread, hread.map fun _ _ => eq_write⟩

/-! Equal lists with Ints and Floats in different places and zeros of different signs. -/

def wholeFirst : Value :=
  .ofList [.ofInt 3, .none, .ofFloat ⟨0x8000000000000000⟩, .ofInt 9007199254740993]

def wholeLast : Value :=
  .ofList [.ofFloat ⟨0x4008000000000000⟩, .none, .ofInt 0, .ofFloat ⟨0x4340000000000000⟩]

theorem equal_values_convert_alike_mixed :
    int ∉ (list (option float)).parts ∧ wholeFirst.eq wholeLast = true ∧
    SameEnd (list (option float)).HostEq ((list (option float)).read wholeFirst)
      ((list (option float)).read wholeLast) ∧
    ∃ x y, (list (option float)).convert wholeFirst = .ok x ∧
      (list (option float)).convert wholeLast = .ok y ∧ x.eq y = true := by
  have hparts : int ∉ (list (option float)).parts := by decide
  have heq : wholeFirst.eq wholeLast = true := by decide
  obtain ⟨hread, hconvert⟩ := equal_values_convert_alike hparts heq
  refine ⟨hparts, heq, hread, _, _, rfl, rfl, ?_⟩
  cases hconvert with
  | ok h => exact h

/-- A shape that asks for a whole number tells an Int from the Float that it is equal to. -/
example : Value.eq (.ofInt 1) (.ofFloat ⟨0x3ff0000000000000⟩) = true ∧
    int.convert (.ofInt 1) = .ok (.ofInt 1) ∧
    int.convert (.ofFloat ⟨0x3ff0000000000000⟩) = .error (.mismatch "int" "float") :=
  ⟨rfl, rfl, rfl⟩

end Shape

end HostBridge
