import HostBridge.Conversion.Shape
import HostBridge.Value.Keywords
import Mathlib.Data.List.Induction
import Mathlib.Data.Set.Basic
import Mathlib.Logic.Relation

/-! # Parts of values, and what can be made of values

A list has its elements as parts, a dict its values, a bound method its receiver and its function.
Code that holds some values gets at their parts, and builds lists, dicts and bound methods of them.
That is all it can do: natives, closures and host objects are made by the runtime alone, and come to
code only as values. The rules below are what the privacy of handles leaves to a body.
-/
namespace HostBridge

/-- The host type that belongs to a payload. -/
def Payload.hostType : Payload → HostType
  | none => .unit
  | bool _ => .bool
  | int _ => .int
  | float _ => .float
  | str _ => .string
  | list _ => .list
  | dict _ => .dict
  | callable c => c.hostType
  | object _ made => made

/-- The payloads that carry no other value and no handle. -/
def Payload.isScalar : Payload → Bool
  | none | bool _ | int _ | float _ | str _ => true
  | list _ | dict _ | callable _ | object _ _ => false

/-- The handle of what the runtime made. A bound method has none of its own. -/
def Payload.handle? : Payload → Option Handle
  | callable (.native handle _) | callable (.closure handle _ _) | object handle _ => some handle
  | none | bool _ | int _ | float _ | str _ | list _ | dict _ | callable (.bound _ _) => Option.none

def Keywords.values (kwargs : Keywords) : List Value := kwargs.entries.map Prod.snd

namespace Value

/-! ## Parts -/

/-- One value lies in another without anything in between. A function counts as the value that
wraps it. -/
inductive Within : Value → Value → Prop
  | item {v : Value} {items : List Value} {type : HostType} (hv : v ∈ items) :
      Within v (mk (.list items) type)
  | entry {e : String × Value} {entries : List (String × Value)} {type : HostType}
      (he : e ∈ entries) : Within e.2 (mk (.dict entries) type)
  | receiver {v : Value} {f : Callable} {type : HostType} :
      Within v (mk (.callable (.bound v f)) type)
  | function {v : Value} {f : Callable} {type : HostType} :
      Within (ofCallable f) (mk (.callable (.bound v f)) type)

/-- A value and what lies in it, at any depth. -/
def PartOf : Value → Value → Prop := Relation.ReflTransGen Within

theorem within_iff_of_payload_eq {u v w : Value} (h : v.payload = w.payload) :
    u.Within v ↔ u.Within w := by
  rcases v with ⟨p, a⟩
  rcases w with ⟨q, b⟩
  cases h
  constructor <;> intro hu <;> cases hu <;> constructor <;> assumption

theorem within_relabel {u v : Value} {type : HostType} : u.Within (v.relabel type) ↔ u.Within v :=
  within_iff_of_payload_eq rfl

theorem within_ofCallable {u v : Value} {c : Callable} (hc : v.payload = .callable c) :
    u.Within (ofCallable c) ↔ u.Within v :=
  within_iff_of_payload_eq hc.symm

theorem not_within_of_isScalar {u : Value} {p : Payload} {type : HostType}
    (hp : p.isScalar = true) : ¬ u.Within (mk p type) := by
  intro hu
  cases hu <;> cases hp

theorem not_within_of_handle? {u v : Value} (hv : v.payload.handle?.isSome = true) :
    ¬ u.Within v := by
  intro hu
  cases hu <;> cases hv

theorem sizeOf_payload_lt (v : Value) : sizeOf v.payload < sizeOf v := by
  rcases v with ⟨p, type⟩
  simp only [payload, mk.sizeOf_spec]
  omega

theorem Within.sizeOf_payload_lt {u v : Value} (h : u.Within v) :
    sizeOf u.payload < sizeOf v.payload := by
  cases h with
  | @item _ items type hv =>
    have hu := u.sizeOf_payload_lt
    have hmem := List.sizeOf_lt_of_mem hv
    have hlist : sizeOf (mk (.list items) type).payload = 1 + sizeOf items :=
      Payload.list.sizeOf_spec items
    omega
  | @entry e entries type he =>
    have hu := e.2.sizeOf_payload_lt
    have hmem := List.sizeOf_lt_of_mem he
    have hpair : sizeOf e = 1 + sizeOf e.1 + sizeOf e.2 := rfl
    have hdict : sizeOf (mk (.dict entries) type).payload = 1 + sizeOf entries :=
      Payload.dict.sizeOf_spec entries
    omega
  | @receiver _ f type =>
    have hu := u.sizeOf_payload_lt
    have hbound : sizeOf (mk (.callable (.bound u f)) type).payload =
        1 + (1 + sizeOf u + sizeOf f) := rfl
    omega
  | @function v f type =>
    have hfunction : sizeOf (ofCallable f).payload = 1 + sizeOf f := rfl
    have hbound : sizeOf (mk (.callable (.bound v f)) type).payload =
        1 + (1 + sizeOf v + sizeOf f) := rfl
    omega

/-- What holds of a value whenever it holds of what lies in it holds of every value. -/
@[elab_as_elim]
theorem induction {P : Value → Prop} (step : ∀ v, (∀ u : Value, u.Within v → P u) → P v)
    (v : Value) : P v :=
  (InvImage.wf (fun u : Value => sizeOf u.payload) Nat.lt_wfRel.wf).induction v fun v ih =>
    step v fun u hu => ih u hu.sizeOf_payload_lt

/-- A property of all parts of a value. -/
def Entirely (P : Value → Prop) (v : Value) : Prop := ∀ u, u.PartOf v → P u

theorem entirely_iff {P : Value → Prop} {v : Value} :
    v.Entirely P ↔ P v ∧ ∀ u : Value, u.Within v → u.Entirely P := by
  constructor
  · intro h
    exact ⟨h v .refl, fun u hu t ht => h t (Relation.ReflTransGen.tail ht hu)⟩
  · rintro ⟨hv, hin⟩ t ht
    rcases Relation.ReflTransGen.cases_tail ht with rfl | ⟨u, htu, huv⟩
    · exact hv
    · exact hin u huv t htu

theorem Entirely.imp {P Q : Value → Prop} (hPQ : ∀ u, P u → Q u) {v : Value}
    (h : v.Entirely P) : v.Entirely Q := fun u hu => hPQ u (h u hu)

/-! ## Entries of a dict -/

theorem mem_insertEntry {key : String} {value : Value} {e : String × Value}
    {entries : List (String × Value)} (he : e ∈ insertEntry key value entries) :
    e = (key, value) ∨ e ∈ entries := by
  induction entries with
  | nil => simpa [insertEntry] using he
  | cons first rest ih =>
    unfold insertEntry at he
    split at he
    · simpa using he
    split at he
    · rcases List.mem_cons.mp he with he | he
      · exact .inl he
      · exact .inr (List.mem_cons_of_mem _ he)
    · rcases List.mem_cons.mp he with rfl | he
      · exact .inr List.mem_cons_self
      · exact (ih he).imp_right (List.mem_cons_of_mem _)

theorem mem_sortEntries {e : String × Value} {entries : List (String × Value)}
    (he : e ∈ sortEntries entries) : e ∈ entries := by
  induction entries using List.reverseRecOn with
  | nil => cases he
  | append_singleton rest last ih =>
    rw [sortEntries, List.foldl_append, List.foldl_cons, List.foldl_nil] at he
    rcases mem_insertEntry he with rfl | he
    · exact List.mem_append_right _ List.mem_cons_self
    · exact List.mem_append_left _ (ih he)

/-! ## What can be made of values -/

/-- The values that code can make of those that it holds. Whether it may also choose host types by
hand is left open. -/
inductive Derived (free : Prop) (held : Set Value) : Value → Prop
  | held {v : Value} (hv : v ∈ held) : Derived free held v
  | part {u v : Value} (hv : Derived free held v) (hu : u.Within v) : Derived free held u
  | scalar {p : Payload} (hp : p.isScalar = true) : Derived free held (mk p p.hostType)
  | list {items : List Value} (hitems : ∀ v ∈ items, Derived free held v) :
      Derived free held (ofList items)
  | dict {entries : List (String × Value)} (hentries : ∀ e ∈ entries, Derived free held e.2) :
      Derived free held (ofEntries entries)
  | callable {v : Value} {c : Callable} (hv : Derived free held v) (hc : v.payload = .callable c) :
      Derived free held (ofCallable c)
  | bound {v : Value} {f : Callable} (hv : Derived free held v)
      (hf : Derived free held (ofCallable f)) : Derived free held (ofCallable (.bound v f))
  | relabel {v : Value} {type : HostType} (hfree : free) (hv : Derived free held v) :
      Derived free held (v.relabel type)

namespace Derived
variable {free : Prop} {held held' : Set Value} {v : Value}

theorem trans (hv : Derived free held v) (h : ∀ u ∈ held, Derived free held' u) :
    Derived free held' v := by
  induction hv with
  | held hv => exact h _ hv
  | part _ hu ih => exact .part ih hu
  | scalar hp => exact .scalar hp
  | list _ ih => exact .list ih
  | dict _ ih => exact .dict ih
  | callable _ hc ih => exact .callable ih hc
  | bound _ _ ihv ihf => exact .bound ihv ihf
  | relabel hfree _ ih => exact .relabel hfree ih

theorem mono (hsub : held ⊆ held') (hv : Derived free held v) : Derived free held' v :=
  hv.trans fun _ hu => .held (hsub hu)

theorem imp {free' : Prop} (hf : free → free') (hv : Derived free held v) :
    Derived free' held v := by
  induction hv with
  | held hv => exact .held hv
  | part _ hu ih => exact .part ih hu
  | scalar hp => exact .scalar hp
  | list _ ih => exact .list ih
  | dict _ ih => exact .dict ih
  | callable _ hc ih => exact .callable ih hc
  | bound _ _ ihv ihf => exact .bound ihv ihf
  | relabel hfree _ ih => exact .relabel (hf hfree) ih

end Derived

/-- The property holds of the values that code makes, if it holds of their parts. -/
structure Kept (free : Prop) (P : Value → Prop) : Prop where
  plain : ∀ p : Payload, p.handle? = Option.none → P (mk p p.hostType)
  callable : ∀ v c, v.payload = .callable c → P v → P (ofCallable c)
  relabel : free → ∀ v type, P v → P (v.relabel type)

theorem Derived.entirely {free : Prop} {held : Set Value} {P : Value → Prop} (hP : Kept free P)
    (hheld : ∀ u ∈ held, u.Entirely P) {v : Value} (hv : Derived free held v) : v.Entirely P := by
  induction hv with
  | held hv => exact hheld _ hv
  | part _ hu ih => exact (entirely_iff.mp ih).2 _ hu
  | @scalar p hp =>
    have hhandle : p.handle? = Option.none := by cases p <;> first | rfl | cases hp
    exact entirely_iff.mpr ⟨hP.plain _ hhandle, fun u hu => absurd hu (not_within_of_isScalar hp)⟩
  | list _ ih =>
    refine entirely_iff.mpr ⟨hP.plain _ rfl, fun u hu => ?_⟩
    cases hu with
    | item hv => exact ih _ hv
  | dict _ ih =>
    refine entirely_iff.mpr ⟨hP.plain _ rfl, fun u hu => ?_⟩
    cases hu with
    | entry he => exact ih _ (mem_sortEntries he)
  | callable _ hc ih =>
    obtain ⟨hv, hin⟩ := entirely_iff.mp ih
    exact entirely_iff.mpr ⟨hP.callable _ _ hc hv,
      fun u hu => hin u ((within_ofCallable hc).mp hu)⟩
  | bound _ _ ihv ihf =>
    refine entirely_iff.mpr ⟨hP.plain _ rfl, fun u hu => ?_⟩
    cases hu with
    | receiver => exact ihv
    | function => exact ihf
  | relabel hfree _ ih =>
    obtain ⟨hv, hin⟩ := entirely_iff.mp ih
    exact entirely_iff.mpr ⟨hP.relabel hfree _ _ hv,
      fun u hu => hin u (within_relabel.mp hu)⟩

end Value

/-! ## Conversions and snapshots -/

open Value (Derived)

theorem Keywords.mem_values_of_get? {kwargs : Keywords} {name : String} {v : Value}
    (h : kwargs.get? name = some v) : v ∈ kwargs.values := by
  obtain ⟨before, after, he, -⟩ := List.lookup_eq_some_iff.mp h
  rw [Keywords.values, he]
  simp

theorem Keywords.derived_snapshot (free : Prop) (kwargs : Keywords) :
    Derived free {v | v ∈ kwargs.values} kwargs.snapshot :=
  .dict fun _ he => .held (List.mem_map_of_mem he)

namespace Shape

theorem mem_of_readEach {α : Type} {read : Value → Except ReadError α} {items : List Value}
    {as : List α} (h : readEach read items = .ok as) {a : α} (ha : a ∈ as) :
    ∃ v ∈ items, read v = .ok a := by
  induction items generalizing as with
  | nil => cases h; cases ha
  | cons v rest ih =>
    rw [readEach] at h
    split at h
    · cases h
    rename_i first hfirst
    split at h
    · cases h
    rename_i others hothers
    cases h
    rcases List.mem_cons.mp ha with rfl | ha
    · exact ⟨v, List.mem_cons_self, hfirst⟩
    · obtain ⟨u, hu, hread⟩ := ih hothers ha
      exact ⟨u, List.mem_cons_of_mem _ hu, hread⟩

theorem derived_write (free : Prop) (s : Shape) {v : Value} {a : s.Host} (h : s.read v = .ok a) :
    Derived free {v} (s.write a) := by
  -- Induction on the shape: a list is made anew of what its elements convert to.
  induction s generalizing v with
  | object => cases h; exact .held rfl
  | bool | int | float | str => exact .scalar rfl
  | list of ih =>
    rcases v with ⟨p, type⟩
    cases p with
    | list items =>
      refine .list fun w hw => ?_
      obtain ⟨b, hb, rfl⟩ := List.mem_map.mp hw
      obtain ⟨u, hu, hread⟩ := mem_of_readEach h hb
      refine (ih hread).trans fun t ht => ?_
      cases ht
      exact .part (.held rfl) (.item hu)
    | none | bool | int | float | str | dict | callable | object => cases h
  | option of ih =>
    rw [read] at h
    split at h
    · cases h; exact .scalar rfl
    split at h
    · cases h
    · rename_i b hb
      cases h
      exact ih hb

theorem derived_convert (free : Prop) {s : Shape} {v u : Value} (h : s.convert v = .ok u) :
    Derived free {v} u := by
  unfold convert at h
  cases hr : s.read v with
  | error e => rw [hr] at h; cases h
  | ok a =>
    rw [hr] at h
    cases h
    exact derived_write free s hr

theorem derived_convertArgument (free : Prop) {s : Shape} {args : List Value} {index : Nat}
    {u : Value} (h : s.convertArgument args index = .ok u) :
    Derived free {v | v ∈ args} u := by
  unfold convertArgument argument at h
  cases hv : args[index]? with
  | none => rw [hv] at h; cases h
  | some v =>
    rw [hv] at h
    refine (derived_convert free h).trans fun t ht => ?_
    cases ht
    exact .held (List.mem_of_getElem? hv)

end Shape

end HostBridge
