import HostBridge.Proofs.Equality
import HostBridge.Proofs.WholeNumbers

/-! # Values that are equal to a third value

An Int is rounded before it is compared with a Float, so two different Ints can both be equal to one
Float. Values that are equal to a third one are equal to each other if and only if their Ints are the
same place by place.
-/
namespace HostBridge

namespace Value

/-! ## Places -/

/-- `s` and `t` stand at the same place of `v` and `w`. -/
inductive Facing (s t : Value) : Value → Value → Prop
  | here : Facing s t s t
  | item {x y : Value} {xs ys : List Value} {host host' : HostType} (hmem : (x, y) ∈ xs.zip ys)
      (h : Facing s t x y) : Facing s t (mk (.list xs) host) (mk (.list ys) host')
  | entry {e f : String × Value} {xs ys : List (String × Value)} {host host' : HostType}
      (hmem : (e, f) ∈ xs.zip ys) (h : Facing s t e.2 f.2) :
      Facing s t (mk (.dict xs) host) (mk (.dict ys) host')
  | receiver {v w : Value} {f g : Callable} {host host' : HostType} (h : Facing s t v w) :
      Facing s t (mk (.callable (.bound v f)) host) (mk (.callable (.bound w g)) host')
  | function {v w : Value} {f g : Callable} {host host' : HostType}
      (h : Facing s t (ofCallable f) (ofCallable g)) :
      Facing s t (mk (.callable (.bound v f)) host) (mk (.callable (.bound w g)) host')

/-- Where both values have an Int, it is the same one. -/
def SameInts (v w : Value) : Prop :=
  ∀ s t, Facing s t v w → ∀ i j, s.payload = .int i → t.payload = .int j → i = j

variable {s t u v w : Value}

theorem Facing.partOf (h : Facing s t v w) : s.PartOf v ∧ t.PartOf w := by
  induction h with
  | here => exact ⟨.refl, .refl⟩
  | item hmem _ ih =>
    obtain ⟨hx, hy⟩ := List.of_mem_zip hmem
    exact ⟨ih.1.tail (.item hx), ih.2.tail (.item hy)⟩
  | entry hmem _ ih =>
    obtain ⟨he, hf⟩ := List.of_mem_zip hmem
    exact ⟨ih.1.tail (.entry he), ih.2.tail (.entry hf)⟩
  | receiver _ ih => exact ⟨ih.1.tail .receiver, ih.2.tail .receiver⟩
  | function _ ih => exact ⟨ih.1.tail .function, ih.2.tail .function⟩

/-- Equal values are equal place by place. -/
theorem Facing.eq (h : Facing s t v w) (hvw : v.eq w = true) : s.eq t = true := by
  induction h with
  | here => exact hvw
  | item hmem _ ih =>
    cases Value.eq_iff.mp hvw with
    | list hxs => exact ih (List.forall₂_zip hxs hmem)
  | entry hmem _ ih =>
    cases Value.eq_iff.mp hvw with
    | dict hes => exact ih (List.forall₂_zip hes hmem).2
  | receiver _ ih =>
    cases Value.eq_iff.mp hvw with
    | bound hr hf => exact ih hr
  | function _ ih =>
    cases Value.eq_iff.mp hvw with
    | bound hr hf => exact ih (by rwa [Value.eq_ofCallable])

theorem sameInts_of_eq (hvw : v.eq w = true) : SameInts v w := by
  intro s t hst i j hi hj
  have hm := Value.eq_iff.mp (hst.eq hvw)
  rw [hi, hj] at hm
  cases hm
  rfl

end Value

/-! ## Through the third value -/

/-- Lists that are related to one list are related to each other. -/
theorem forall₂_through {α β γ : Type} {R : α → β → Prop} {S : β → γ → Prop} {T : α → γ → Prop}
    {xs : List α} {ys : List β} {zs : List γ} (hxy : List.Forall₂ R xs ys)
    (hyz : List.Forall₂ S ys zs)
    (h : ∀ x y z, (x, z) ∈ xs.zip zs → R x y → S y z → T x z) : List.Forall₂ T xs zs := by
  induction hxy generalizing zs with
  | nil =>
    cases hyz
    exact .nil
  | cons hx _ ih =>
    cases hyz with
    | cons hy hys =>
      refine .cons (h _ _ _ List.mem_cons_self hx hy) (ih hys ?_)
      intro x y z hmem
      exact h x y z (List.mem_cons_of_mem _ hmem)

namespace Value
variable {s t u v w : Value}

/-- The third value has, at every place, a value that is equal to both. -/
theorem Facing.through (h : Facing s t v w) (hvu : v.eq u = true) (huw : u.eq w = true) :
    ∃ r : Value, s.eq r = true ∧ r.eq t = true := by
  induction h generalizing u with
  | here => exact ⟨u, hvu, huw⟩
  | item hmem _ ih =>
    rcases u with ⟨p, host⟩
    cases Value.eq_iff.mp hvu with
    | list hxs =>
      cases Value.eq_iff.mp huw with
      | list hys =>
        have hall := forall₂_through hxs hys fun x y z _ hxy hyz =>
          show ∃ r : Value, x.eq r = true ∧ r.eq z = true from ⟨y, hxy, hyz⟩
        obtain ⟨r, hxr, hry⟩ := List.forall₂_zip hall hmem
        exact ih hxr hry
  | entry hmem _ ih =>
    rcases u with ⟨p, host⟩
    cases Value.eq_iff.mp hvu with
    | dict hxs =>
      cases Value.eq_iff.mp huw with
      | dict hys =>
        have hall := forall₂_through hxs hys fun e f g _ hef hfg =>
          show ∃ r : Value, e.2.eq r = true ∧ r.eq g.2 = true from ⟨f.2, hef.2, hfg.2⟩
        obtain ⟨r, hxr, hry⟩ := List.forall₂_zip hall hmem
        exact ih hxr hry
  | receiver _ ih =>
    rcases u with ⟨p, host⟩
    cases Value.eq_iff.mp hvu with
    | bound hr hf =>
      cases Value.eq_iff.mp huw with
      | bound hr' hf' => exact ih hr hr'
  | function _ ih =>
    rcases u with ⟨p, host⟩
    cases Value.eq_iff.mp hvu with
    | bound hr hf =>
      cases Value.eq_iff.mp huw with
      | bound hr' hf' =>
        rw [← Value.eq_ofCallable] at hf hf'
        exact ih hf hf'

theorem eq_of_sameInts (hvu : v.eq u = true) (huw : u.eq w = true) (hints : SameInts v w) :
    v.eq w = true := by
  induction v using Value.induction generalizing u w with
  | step v ih =>
    rcases v with ⟨p, hostv⟩
    rcases u with ⟨q, hostu⟩
    rcases w with ⟨r, hostw⟩
    have hpq : p.Matches q := Value.eq_iff.mp hvu
    have hqr : q.Matches r := Value.eq_iff.mp huw
    refine Value.eq_iff.mpr ?_
    change p.Matches r
    -- Only two Ints with a Float between them need the assumption about Ints.
    cases hpq with
    | none => exact hqr
    | bool => exact hqr
    | int => exact hqr
    | str => exact hqr
    | float hxy =>
      cases hqr with
      | float hyz => exact .float (Binary64.eq_trans hxy hyz)
      | floatInt hjy => exact .floatInt (Binary64.eq_trans hjy (Binary64.eq_symm hxy))
    | intFloat hiy =>
      cases hqr with
      | float hyz => exact .intFloat (Binary64.eq_trans hiy hyz)
      | @floatInt _ j hjy =>
        rw [hints _ _ .here _ _ rfl rfl]
        exact .int j
    | floatInt hjx =>
      cases hqr with
      | int => exact .floatInt hjx
      | intFloat hjz => exact .float (Binary64.eq_trans (Binary64.eq_symm hjx) hjz)
    | list hxs =>
      cases hqr with
      | list hys =>
        refine .list (forall₂_through hxs hys fun x y z hmem hxy hyz => ?_)
        exact ih x (.item (List.of_mem_zip hmem).1) hxy hyz
          fun s t hst => hints s t (.item hmem hst)
    | dict hxs =>
      cases hqr with
      | dict hys =>
        refine .dict (forall₂_through hxs hys fun e f g hmem hef hfg => ?_)
        exact ⟨hef.1.trans hfg.1, ih e.2 (.entry (List.of_mem_zip hmem).1) hef.2 hfg.2
          fun s t hst => hints s t (.entry hmem hst)⟩
    | native handle m n =>
      cases hqr with
      | native => exact .native handle m _
    | bound hr hf =>
      cases hqr with
      | bound hr' hf' =>
        rw [← Value.eq_ofCallable] at hf hf'
        have hreceiver := ih _ .receiver hr hr' fun s t hst => hints s t (.receiver hst)
        have hfunction := ih _ .function hf hf' fun s t hst => hints s t (.function hst)
        rw [Value.eq_ofCallable] at hfunction
        exact .bound hreceiver hfunction
    | closure =>
      cases hqr with
      | closure => exact .closure _ _ _ _ _
    | object =>
      cases hqr with
      | object => exact .object _ _ _

/-- No Int in the value is rounded when it is compared with a Float. -/
def ExactInts (v : Value) : Prop :=
  v.Entirely fun t => ∀ i, t.payload = .int i → i.toInt.natAbs ≤ Binary64.exactLimit

theorem sameInts_of_exactInts (hvu : v.eq u = true) (huw : u.eq w = true) (hv : ExactInts v)
    (hw : ExactInts w) : SameInts v w := by
  intro s t hst i j hi hj
  obtain ⟨hsv, htw⟩ := hst.partOf
  obtain ⟨r, hsr, hrt⟩ := hst.through hvu huw
  have hir := Value.eq_iff.mp hsr
  have hrj := Value.eq_iff.mp hrt
  rw [hi] at hir
  rw [hj] at hrj
  generalize r.payload = q at hir hrj
  cases hir with
  | int =>
    cases hrj
    rfl
  | intFloat hiy =>
    cases hrj with
    | floatInt hjy =>
      have hij := Binary64.eq_trans hiy (Binary64.eq_symm hjy)
      exact Int64.toInt_inj.mp (Binary64.ofInt_injective (hv s hsv i hi) (hw t htw j hj) hij)

end Value

/-- Two values that are equal to a third value are equal to each other if and only if their Ints are
the same place by place; and they are whenever no Int in them is beyond the limit of 2 ^ 53. -/
theorem equality_chains {v u w : Value} (hvu : v.eq u = true) (huw : u.eq w = true) :
    (v.eq w = true ↔ v.SameInts w) ∧ (v.ExactInts → w.ExactInts → v.eq w = true) := by
  refine ⟨⟨Value.sameInts_of_eq, Value.eq_of_sameInts hvu huw⟩, fun hv hw => ?_⟩
  exact Value.eq_of_sameInts hvu huw (Value.sameInts_of_exactInts hvu huw hv hw)

theorem equality_chains_mixed :
    let ints : Value := .mk (.list [.mk (.int 3) .int, .mk (.float ⟨0⟩) .float]) .list
    let floats : Value :=
      .mk (.list [.mk (.float ⟨0x4008000000000000⟩) .float, .mk (.int 0) .int]) .list
    let others : Value :=
      .mk (.list [.mk (.int 3) .int, .mk (.float ⟨0x8000000000000000⟩) .float]) .list
    ints.eq floats = true ∧ floats.eq others = true ∧ ints.eq others = true ∧
      ints.SameInts others := by
  intro ints floats others
  have hleft : ints.eq floats = true := by decide
  have hright : floats.eq others = true := by decide
  have hexact : ∀ x : Binary64,
      Value.ExactInts (.mk (.list [.mk (.int 3) .int, .mk (.float x) .float]) .list) := by
    intro x
    refine Value.entirely_iff.mpr ⟨fun i hi => (nomatch hi), fun u hu => ?_⟩
    cases hu with
    | item hu =>
      have hscalar : ∀ t : Value, ¬ t.Within u := by
        intro t
        rcases List.mem_pair.mp hu with rfl | rfl <;> exact Value.not_within_of_isScalar rfl
      refine Value.entirely_iff.mpr ⟨fun i hi => ?_, fun t ht => absurd ht (hscalar t)⟩
      rcases List.mem_pair.mp hu with rfl | rfl
      · cases hi
        decide
      · cases hi
  obtain ⟨hiff, hsmall⟩ := equality_chains hleft hright
  have heq := hsmall (hexact _) (hexact _)
  exact ⟨hleft, hright, heq, hiff.mp heq⟩

/-- The first Int beyond the limit is not equal to the one before, though both are equal to the same
Float. -/
theorem equality_is_not_transitive :
    let beyond : Value := .mk (.int 9007199254740993) .int
    let float : Value := .mk (.float ⟨0x4340000000000000⟩) .float
    let limit : Value := .mk (.int 9007199254740992) .int
    beyond.eq float = true ∧ float.eq limit = true ∧ beyond.eq limit = false := by
  decide

end HostBridge
