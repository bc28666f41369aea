import HostBridge.Proofs.SortedEntries
import HostBridge.Value.Equality

/-! # What equality of values is

Equal payloads are equal in one of a few ways, told apart by their outermost layer. Everything else
about equality follows from these and from an induction over the parts of values.
-/
namespace HostBridge

/-! ## Binary64 numbers -/

namespace Binary64

theorem eq_iff {x y : Binary64} :
    x.eq y = true ↔
      x.isNaN = false ∧ y.isNaN = false ∧ (x = y ∨ (x.isZero = true ∧ y.isZero = true)) := by
  simp [eq, and_assoc]

theorem eq_symm {x y : Binary64} (h : x.eq y = true) : y.eq x = true := by
  obtain ⟨hx, hy, hxy⟩ := eq_iff.mp h
  exact eq_iff.mpr ⟨hy, hx, hxy.imp Eq.symm And.symm⟩

theorem eq_trans {x y z : Binary64} (hxy : x.eq y = true) (hyz : y.eq z = true) :
    x.eq z = true := by
  obtain ⟨hx, -, hxy⟩ := eq_iff.mp hxy
  obtain ⟨-, hz, hyz⟩ := eq_iff.mp hyz
  refine eq_iff.mpr ⟨hx, hz, ?_⟩
  rcases hxy with rfl | ⟨hxzero, hyzero⟩
  · exact hyz
  · rcases hyz with rfl | ⟨-, hzzero⟩
    · exact .inr ⟨hxzero, hyzero⟩
    · exact .inr ⟨hxzero, hzzero⟩

theorem eq_self (x : Binary64) : x.eq x = !x.isNaN := by
  cases hx : x.isNaN <;> simp [eq, hx]

end Binary64

/-! ## The ways to be equal -/

theorem equalItems_iff {xs ys : List Value} :
    equalItems xs ys = true ↔ List.Forall₂ (fun x y => x.eq y = true) xs ys := by
  induction xs generalizing ys with
  | nil => cases ys <;> simp [equalItems]
  | cons x xs ih => cases ys <;> simp [equalItems, ih]

theorem equalEntries_iff {xs ys : List (String × Value)} :
    equalEntries xs ys = true ↔
      List.Forall₂ (fun e f => e.1 = f.1 ∧ e.2.eq f.2 = true) xs ys := by
  induction xs generalizing ys with
  | nil => cases ys <;> simp [equalEntries]
  | cons x xs ih =>
    rcases x with ⟨k, v⟩
    cases ys with
    | nil => simp [equalEntries]
    | cons y ys => simp [equalEntries, equalEntry, ih]

inductive Payload.Matches : Payload → Payload → Prop
  | none : Matches .none .none
  | bool (b : Bool) : Matches (.bool b) (.bool b)
  | int (i : Int64) : Matches (.int i) (.int i)
  | float {x y : Binary64} (h : x.eq y = true) : Matches (.float x) (.float y)
  | intFloat {i : Int64} {y : Binary64} (h : (Binary64.ofInt i.toInt).eq y = true) :
      Matches (.int i) (.float y)
  | floatInt {x : Binary64} {j : Int64} (h : (Binary64.ofInt j.toInt).eq x = true) :
      Matches (.float x) (.int j)
  | str (s : String) : Matches (.str s) (.str s)
  | list {xs ys : List Value} (h : List.Forall₂ (fun x y => x.eq y = true) xs ys) :
      Matches (.list xs) (.list ys)
  | dict {xs ys : List (String × Value)}
      (h : List.Forall₂ (fun e f => e.1 = f.1 ∧ e.2.eq f.2 = true) xs ys) :
      Matches (.dict xs) (.dict ys)
  | native (handle : Handle) (m n : Method) :
      Matches (.callable (.native handle m)) (.callable (.native handle n))
  | bound {r s : Value} {f g : Callable} (hr : r.eq s = true) (hf : f.sameTarget g = true) :
      Matches (.callable (.bound r f)) (.callable (.bound s g))
  | closure (handle : Handle) (name name' : String) (body body' : BodyId) :
      Matches (.callable (.closure handle name body)) (.callable (.closure handle name' body'))
  | object (handle : Handle) (made made' : HostType) :
      Matches (.object handle made) (.object handle made')

theorem Callable.sameTarget_iff {a b : Callable} :
    a.sameTarget b = true ↔ (Payload.callable a).Matches (.callable b) := by
  constructor
  · intro h
    cases a <;> cases b <;>
      simp only [sameTarget, Bool.false_eq_true, beq_iff_eq, Bool.and_eq_true] at h
    · subst h
      exact .native _ _ _
    · exact .bound h.1 h.2
    · subst h
      exact .closure _ _ _ _ _
  · intro h
    cases h with
    | bound hr hf => simp only [sameTarget, hr, hf, Bool.and_self]
    | native | closure => simp only [sameTarget, beq_self_eq_true]

theorem Payload.eq_iff {p q : Payload} : p.eq q = true ↔ p.Matches q := by
  constructor
  · intro h
    cases p <;> cases q <;> simp only [Payload.eq, Bool.false_eq_true, beq_iff_eq] at h
    all_goals try subst h
    · exact .none
    · exact .bool _
    · exact .int _
    · exact .intFloat h
    · exact .floatInt h
    · exact .float h
    · exact .str _
    · exact .list (equalItems_iff.mp h)
    · exact .dict (equalEntries_iff.mp h)
    · exact Callable.sameTarget_iff.mp h
    · exact .object _ _ _
  · intro h
    cases h with
    | list h => exact equalItems_iff.mpr h
    | dict h => exact equalEntries_iff.mpr h
    | float h | intFloat h | floatInt h => exact h
    | bound hr hf => exact Callable.sameTarget_iff.mpr (.bound hr hf)
    | none => rfl
    | bool | int | str | native | closure | object =>
      simp only [Payload.eq, Callable.sameTarget, beq_self_eq_true]

theorem Value.eq_iff {v w : Value} : v.eq w = true ↔ v.payload.Matches w.payload := by
  rcases v with ⟨p, host⟩
  rcases w with ⟨q, host'⟩
  exact Payload.eq_iff

theorem Value.eq_ofCallable (f g : Callable) : (ofCallable f).eq (ofCallable g) = f.sameTarget g := by
  simp only [ofCallable, Value.eq, Payload.eq]

/-! ## Symmetry -/

theorem Value.eq_symm {v w : Value} (h : v.eq w = true) : w.eq v = true := by
  induction v using Value.induction generalizing w with
  | step v ih =>
    rcases v with ⟨p, host⟩
    rcases w with ⟨q, host'⟩
    have hm : p.Matches q := Value.eq_iff.mp h
    refine Value.eq_iff.mpr ?_
    change q.Matches p
    cases hm with
    | none => exact .none
    | bool b => exact .bool b
    | int i => exact .int i
    | float hxy => exact .float (Binary64.eq_symm hxy)
    | intFloat hiy => exact .floatInt hiy
    | floatInt hxj => exact .intFloat hxj
    | str s => exact .str s
    | list hxs =>
      have hboth := (List.forall₂_and_left _ _).mpr ⟨fun x hx => @ih x (.item hx), hxs⟩
      exact .list (List.Forall₂.flip (hboth.imp fun x y hxy => hxy.1 hxy.2))
    | dict hes =>
      have hboth := (List.forall₂_and_left _ _).mpr ⟨fun e he => @ih e.2 (.entry he), hes⟩
      exact .dict (List.Forall₂.flip (hboth.imp fun e f hef => ⟨hef.2.1.symm, hef.1 hef.2.2⟩))
    | native handle m n => exact .native handle n m
    | bound hr hf =>
      rw [← Value.eq_ofCallable] at hf
      have hf' := ih _ .function hf
      rw [Value.eq_ofCallable] at hf'
      exact .bound (ih _ .receiver hr) hf'
    | closure handle name name' body body' => exact .closure handle name' name body' body
    | object handle made made' => exact .object handle made' made

theorem Value.eq_comm (v w : Value) : v.eq w = w.eq v :=
  Bool.eq_iff_iff.mpr ⟨Value.eq_symm, Value.eq_symm⟩

/-! ## Reflexivity -/

/-- The value is a NaN. -/
def Value.isNaN (v : Value) : Bool := match v.payload with
  | .float x => x.isNaN
  | _ => false

theorem Value.eq_self_iff {v : Value} :
    v.eq v = true ↔ v.isNaN = false ∧ ∀ u : Value, u.Within v → u.eq u = true := by
  rcases v with ⟨p, host⟩
  rw [Value.eq_iff]
  change p.Matches p ↔ _
  constructor
  · intro h
    cases h with
    | float hx =>
      rw [Binary64.eq_self, Bool.not_eq_true'] at hx
      exact ⟨hx, fun u hu => absurd hu (not_within_of_isScalar rfl)⟩
    | none | bool | int | str =>
      exact ⟨rfl, fun u hu => absurd hu (not_within_of_isScalar rfl)⟩
    | native | closure | object =>
      exact ⟨rfl, fun u hu => absurd hu (not_within_of_handle? rfl)⟩
    | list hxs =>
      refine ⟨rfl, fun u hu => ?_⟩
      cases hu with
      | item hx => exact List.forall₂_same.mp hxs u hx
    | dict hes =>
      refine ⟨rfl, fun u hu => ?_⟩
      cases hu with
      | entry he => exact (List.forall₂_same.mp hes _ he).2
    | bound hr hf =>
      refine ⟨rfl, fun u hu => ?_⟩
      cases hu with
      | receiver => exact hr
      | function => rwa [Value.eq_ofCallable]
  · rintro ⟨hnan, hin⟩
    cases p with
    | none => exact .none
    | bool b => exact .bool b
    | int i => exact .int i
    | float x =>
      have hx : x.isNaN = false := hnan
      exact .float (by rw [Binary64.eq_self, hx]; rfl)
    | str s => exact .str s
    | list xs => exact .list (List.forall₂_same.mpr fun x hx => hin x (.item hx))
    | dict es => exact .dict (List.forall₂_same.mpr fun e he => ⟨rfl, hin e.2 (.entry he)⟩)
    | callable c =>
      cases c with
      | native handle m => exact .native handle m m
      | bound r f =>
        have hf := hin (ofCallable f) .function
        rw [Value.eq_ofCallable] at hf
        exact .bound (hin r .receiver) hf
      | closure handle name body => exact .closure handle name name body body
    | object handle made => exact .object handle made made

theorem Value.eq_self_iff_entirely {v : Value} :
    v.eq v = true ↔ v.Entirely fun u => u.isNaN = false := by
  induction v using Value.induction with
  | step v ih =>
    rw [Value.eq_self_iff, Value.entirely_iff]
    constructor
    · rintro ⟨hv, hin⟩
      exact ⟨hv, fun u hu => (ih u hu).mp (hin u hu)⟩
    · rintro ⟨hv, hin⟩
      exact ⟨hv, fun u hu => (ih u hu).mpr (hin u hu)⟩

/-! ## Dicts -/

namespace Value
variable {xs ys : List (String × Value)}

/-- Entries in the same order are equal in pairs if and only if what they hold for each key is. -/
theorem forall₂_entries_iff (hxs : Ascending xs) (hys : Ascending ys) :
    List.Forall₂ (fun e f => e.1 = f.1 ∧ e.2.eq f.2 = true) xs ys ↔
      xs.map Prod.fst = ys.map Prod.fst ∧
        ∀ key v w, xs.lookup key = some v → ys.lookup key = some w → v.eq w = true := by
  induction xs generalizing ys with
  | nil => cases ys <;> simp
  | cons x xs ih =>
    cases ys with
    | nil => simp
    | cons y ys =>
      rw [List.forall₂_cons, ih hxs.tail hys.tail, List.map_cons, List.map_cons, List.cons.injEq]
      constructor
      · rintro ⟨⟨hkey, hxy⟩, hkeys, hrest⟩
        refine ⟨⟨hkey, hkeys⟩, ?_⟩
        intro key v w hv hw
        rw [lookup_cons_ite] at hv hw
        rw [← hkey] at hw
        by_cases hk : key = x.1
        · rw [if_pos hk] at hv hw
          cases hv
          cases hw
          exact hxy
        · rw [if_neg hk] at hv hw
          exact hrest key v w hv hw
      · rintro ⟨⟨hkey, hkeys⟩, hall⟩
        have hhead := hall x.1 x.2 y.2
        rw [lookup_cons_ite, lookup_cons_ite, if_pos rfl, if_pos hkey] at hhead
        refine ⟨⟨hkey, hhead rfl rfl⟩, hkeys, ?_⟩
        intro key v w hv hw
        -- A key of the rest is not the first key, which is smaller than all of them.
        have hmem : key ∈ xs.map Prod.fst := mem_keys_iff_lookup.mpr (by rw [hv]; rfl)
        obtain ⟨e, he, rfl⟩ := List.mem_map.mp hmem
        have hne : e.1 ≠ x.1 := fun h => String.lt_irrefl _ (h ▸ hxs.lt_of_mem he)
        refine hall e.1 v w ?_ ?_
        · rwa [lookup_cons_ite, if_neg hne]
        · rwa [lookup_cons_ite, if_neg (hkey ▸ hne)]

theorem eq_dict_iff (xs ys : List (String × Value)) (host host' : HostType) :
    (mk (.dict (sortEntries xs)) host).eq (mk (.dict (sortEntries ys)) host') = true ↔
      (∀ key, key ∈ xs.map Prod.fst ↔ key ∈ ys.map Prod.fst) ∧
        ∀ key v w, latest xs key = some v → latest ys key = some w → v.eq w = true := by
  have hxs := ascending_sortEntries xs
  have hys := ascending_sortEntries ys
  have hkeys : (sortEntries xs).map Prod.fst = (sortEntries ys).map Prod.fst ↔
      ∀ key, key ∈ xs.map Prod.fst ↔ key ∈ ys.map Prod.fst := by
    constructor
    · intro h key
      rw [← mem_keys_sortEntries, h, mem_keys_sortEntries]
    · intro h
      refine hxs.keys_eq hys fun key => ?_
      rw [mem_keys_sortEntries, mem_keys_sortEntries, h key]
  simp only [Value.eq, Payload.eq, equalEntries_iff, forall₂_entries_iff hxs hys, hkeys,
    lookup_sortEntries]

end Value

/-- Equality is symmetric. A value equals itself if and only if there is no NaN in it, at any depth,
whatever it is compared by. Two dicts are equal if and only if they have the same keys and equal
values for each of them, in whatever order their entries were given. -/
theorem equality_laws :
    (∀ v w : Value, v.eq w = w.eq v) ∧
    (∀ v : Value, v.eq v = true ↔
      ∀ u : Value, u.PartOf v → ∀ x, u.payload = .float x → x.isNaN = false) ∧
    ∀ (xs ys : List (String × Value)) (host host' : HostType),
      (Value.mk (.dict (Value.sortEntries xs)) host).eq
          (.mk (.dict (Value.sortEntries ys)) host') = true ↔
        (∀ key, key ∈ xs.map Prod.fst ↔ key ∈ ys.map Prod.fst) ∧
          ∀ key v w, Value.latest xs key = some v → Value.latest ys key = some w →
            v.eq w = true := by
  refine ⟨Value.eq_comm, fun v => ?_, Value.eq_dict_iff⟩
  rw [Value.eq_self_iff_entirely]
  have hnan : ∀ u : Value, u.isNaN = false ↔ ∀ x, u.payload = .float x → x.isNaN = false := by
    intro u
    unfold Value.isNaN
    cases u.payload <;> simp
  simp only [Value.Entirely, hnan]

end HostBridge
