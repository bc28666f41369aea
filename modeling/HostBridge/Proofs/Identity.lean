import HostBridge.Proofs.Laws
import HostBridge.Value.Equality

/-! # Identity of natives, closures and host objects

Natives, closures and host objects are told apart by their handles alone. In a run no handle is given
twice, and wherever a handle occurs it carries what it was given with. So equal handles mean a common
origin: both values are copies of what one and the same step made.
-/
namespace HostBridge

open Program (uses_andThen uses_fetch uses_give uses_keep uses_makeObject uses_wrap)
open Value (Derived)

/-- A handle stands for the construction that it was given to. -/
def recorded : Law True where
  holds made v := ∀ handle, v.payload.handle? = some handle →
    ∃ c, made[handle]? = some c ∧ v.payload = (c.value handle).payload
  grows := by
    intro made v hv more handle hh
    obtain ⟨c, hc, he⟩ := hv handle hh
    refine ⟨c, ?_, he⟩
    rwa [List.getElem?_append_left (List.getElem?_eq_some_iff.mp hc).1]
  kept := by
    intro made
    constructor
    · intro p hp handle hh
      cases hp.symm.trans hh
    · intro v c hc hv handle hh
      obtain ⟨d, hd, he⟩ := hv handle (by rw [hc]; exact hh)
      exact ⟨d, hd, hc.symm.trans he⟩
    · exact fun _ v type hv => hv
  fresh := by
    intro made c _ handle hh
    obtain rfl : made.length = handle := Option.some.inj ((c.handle?_value _).symm.trans hh)
    exact ⟨c, by simp, rfl⟩

theorem Program.next_of_makes {p : Program} {c : Construction}
    (h : (Control.perform p).makes = some c) (frames : List Frame) (w : World) :
    ∃ q history w', p.Next [c.value w.constructions.size] q ∧
      p.step frames w = (history, ⟨.perform q, frames, w'⟩) := by
  cases p with
  | makeObject type next => cases h; exact ⟨_, _, _, .object _, rfl⟩
  | makeClosure name body next => cases h; exact ⟨_, _, _, .closure _, rfl⟩
  | wrap m settings next =>
    simp only [Control.makes, Option.ite_none_right_eq_some, Option.some.injEq] at h
    obtain ⟨hm, rfl⟩ := h
    simp only [Program.step, World.wrap, if_pos hm]
    exact ⟨_, _, _, .wrapped (.ok _), rfl⟩
  | finish | panic | call | look | count | reset | fetch | keep | makeBody => cases h

namespace Run
variable (r : Run)

/-- The step gives the value to the program under way. -/
def Gives (i : Nat) (v : Value) : Prop :=
  ∃ t p q, (r.stage i).workers[r.schedule i]? = some t ∧ t.control = .perform p ∧ p.Next [v] q ∧
    (r.stage (i + 1)).workers[r.schedule i]? = some { t with control := .perform q }

/-- The value is a copy of what the step made. Its host type may be another one. -/
def Descends (i : Nat) (v : Value) : Prop :=
  ∃ c, r.makes i = some c ∧ v.payload = (c.value (r.handle i)).payload

/-- The values are copies of what one and the same step made. -/
def SameOrigin (v w : Value) : Prop := ∃ i, r.Descends i v ∧ r.Descends i w

theorem gives_of_makes {i : Nat} {c : Construction} (h : r.makes i = some c) :
    r.Gives i (c.value (r.handle i)) := by
  obtain ⟨t, ht, hc⟩ := Option.bind_eq_some_iff.mp h
  rcases t with ⟨control, frames, next⟩
  cases control with
  | perform p =>
    obtain ⟨q, history, w, hq, hs⟩ := Program.next_of_makes hc frames (r.stage i).world
    refine ⟨_, p, q, ht, rfl, hq, ?_⟩
    have hstep : Worker.step ⟨.perform p, frames, next⟩ (r.stage i).world =
        some (history, ⟨.perform q, frames, next⟩, w) := by
      simp [Worker.step, Point.step, hs]
    obtain ⟨hlt, -⟩ := List.getElem?_eq_some_iff.mp ht
    rw [stage, Stage.turn_of_step ht hstep]
    exact List.getElem?_set_self hlt
  | call | apply | finish => cases hc

end Run

namespace Run.Descends
variable {r : Run} {i j : Nat} {v w : Value}

theorem makes (h : r.Descends i v) : ∃ c, r.makes i = some c := by
  obtain ⟨c, hc, -⟩ := h
  exact ⟨c, hc⟩

theorem handle? (h : r.Descends i v) : v.payload.handle? = some (r.handle i) := by
  obtain ⟨c, -, he⟩ := h
  rw [he, c.handle?_value]

theorem unique (hi : r.Descends i v) (hj : r.Descends j v) : i = j := by
  have hh := Option.some.inj (hi.handle?.symm.trans hj.handle?)
  obtain ⟨c, hc⟩ := hi.makes
  obtain ⟨d, hd⟩ := hj.makes
  exact r.handle_injective hc hd hh

theorem payload_eq (hv : r.Descends i v) (hw : r.Descends i w) : v.payload = w.payload := by
  obtain ⟨c, hc, hv⟩ := hv
  obtain ⟨d, hd, hw⟩ := hw
  cases hc.symm.trans hd
  rw [hv, hw]

theorem makes_native {a : Handle} {m : Method} (h : r.Descends i v)
    (hp : v.payload = .callable (.native a m)) :
    ∃ settings, r.makes i = some (.native m settings) ∧ r.handle i = a := by
  obtain ⟨c, hc, he⟩ := h
  rw [hp] at he
  cases c with
  | native m settings => cases he; exact ⟨settings, hc, rfl⟩
  | closure | object => cases he

theorem makes_object {a : Handle} {type : HostType} (h : r.Descends i v)
    (hp : v.payload = .object a type) : r.makes i = some (.object type) ∧ r.handle i = a := by
  obtain ⟨c, hc, he⟩ := h
  rw [hp] at he
  cases c with
  | object => cases he; exact ⟨hc, rfl⟩
  | native | closure => cases he

end Run.Descends

namespace Run.SameOrigin
variable {r : Run} {v w : Value}

theorem payload_eq (h : r.SameOrigin v w) : v.payload = w.payload := by
  obtain ⟨i, hv, hw⟩ := h
  exact hv.payload_eq hw

end Run.SameOrigin

section
variable {r : Run} (hr : r.Uses True)
include hr

theorem Run.exists_descends {n : Nat} {v : Value} (hv : (r.stage n).Occurs v) {handle : Handle}
    (hh : v.payload.handle? = some handle) : ∃ i < n, r.Descends i v := by
  obtain ⟨c, hc, he⟩ := recorded.holds_of_occurs hr hv handle hh
  obtain ⟨i, hi, hm, rfl⟩ := r.getElem?_made.mp hc
  exact ⟨i, hi, c, hm, he⟩

theorem Run.handle_eq_iff {n k : Nat} {v w : Value} (hv : (r.stage n).Occurs v)
    (hw : (r.stage k).Occurs w) {a b : Handle} (ha : v.payload.handle? = some a)
    (hb : w.payload.handle? = some b) : a = b ↔ r.SameOrigin v w := by
  constructor
  · -- Both descend from a step that gave this handle, and only one step did.
    rintro rfl
    obtain ⟨i, -, hi⟩ := Run.exists_descends hr hv ha
    obtain ⟨j, -, hj⟩ := Run.exists_descends hr hw hb
    obtain ⟨c, hc⟩ := hi.makes
    obtain ⟨d, hd⟩ := hj.makes
    have hh := hi.handle?.symm.trans (ha.trans (hb.symm.trans hj.handle?))
    cases r.handle_injective hc hd (Option.some.inj hh)
    exact ⟨i, hi, hj⟩
  · intro h
    rw [h.payload_eq, hb] at ha
    exact (Option.some.inj ha).symm

end

/-- A native has the settings that it was made with, at every later point of the run. -/
theorem Run.settings_of_makes {r : Run} {n i : Nat} {m : Method} {settings : NativeSettings}
    (hi : i < n) (hm : r.makes i = some (.native m settings)) :
    (r.stage n).world.settings (r.handle i) = settings := by
  have hc : (r.stage n).world.constructions[r.handle i]? = some (.native m settings) := by
    rw [← Array.getElem?_toList]
    exact r.getElem?_made.mpr ⟨i, hi, hm, rfl⟩
  simp only [World.settings, hc]

/-- For two natives, two closures or two host objects: they are the same if and only if they have the
same origin, and then they have everything in common. -/
structure Run.Faithful (r : Run) (n k : Nat) (v w : Value) : Prop where
  natives : ∀ {a b : Handle} {m m' : Method}, v.payload = .callable (.native a m) →
    w.payload = .callable (.native b m') →
      ((Callable.native a m).sameMethod? (.native b m') = some true ↔ r.SameOrigin v w) ∧
      ((Callable.native a m).sameTarget (.native b m') = true ↔ r.SameOrigin v w) ∧
      (r.SameOrigin v w → m = m' ∧
        (r.stage n).world.settings a = (r.stage k).world.settings b)
  closures : ∀ {a b : Handle} {name name' : String} {body body' : BodyId},
    v.payload = .callable (.closure a name body) → w.payload = .callable (.closure b name' body') →
      ((Callable.closure a name body).sameTarget (.closure b name' body') = true ↔
        r.SameOrigin v w) ∧
      (r.SameOrigin v w → name = name' ∧ body = body')
  objects : ∀ {a b : Handle} {type type' : HostType}, v.payload = .object a type →
    w.payload = .object b type' →
      (v.eq w = true ↔ r.SameOrigin v w) ∧ (r.SameOrigin v w → type = type')

theorem Value.eq_mk_object (a b : Handle) (type type' host host' : HostType) :
    (Value.mk (.object a type) host).eq (.mk (.object b type') host') = (a == b) := by
  simp only [Value.eq, Payload.eq]

theorem Run.faithful {r : Run} (hr : r.Uses True) {n k : Nat} {v w : Value}
    (hv : (r.stage n).Occurs v) (hw : (r.stage k).Occurs w) : r.Faithful n k v w where
  natives := by
    intro a b m m' hpv hpw
    have hsame := Run.handle_eq_iff hr hv hw (by rw [hpv]; rfl) (by rw [hpw]; rfl)
    refine ⟨?_, ?_, fun h => ?_⟩
    · simp only [Callable.sameMethod?, Option.some.injEq, beq_iff_eq]
      exact hsame
    · simp only [Callable.sameTarget, beq_iff_eq]
      exact hsame
    · have hp := hpv.symm.trans (h.payload_eq.trans hpw)
      cases hp
      obtain ⟨i, hi, hdv⟩ := Run.exists_descends hr hv (by rw [hpv]; rfl)
      obtain ⟨j, hj, hdw⟩ := Run.exists_descends hr hw (by rw [hpw]; rfl)
      obtain ⟨t, htv, htw⟩ := h
      cases hdv.unique htv
      cases hdw.unique htw
      obtain ⟨settings, hmakes, rfl⟩ := htv.makes_native hpv
      exact ⟨rfl, (Run.settings_of_makes hi hmakes).trans (Run.settings_of_makes hj hmakes).symm⟩
  closures := by
    intro a b name name' body body' hpv hpw
    have hsame := Run.handle_eq_iff hr hv hw (by rw [hpv]; rfl) (by rw [hpw]; rfl)
    refine ⟨?_, fun h => ?_⟩
    · simp only [Callable.sameTarget, beq_iff_eq]
      exact hsame
    · have hp := hpv.symm.trans (h.payload_eq.trans hpw)
      cases hp
      exact ⟨rfl, rfl⟩
  objects := by
    intro a b type type' hpv hpw
    have hsame := Run.handle_eq_iff hr hv hw (by rw [hpv]; rfl) (by rw [hpw]; rfl)
    refine ⟨?_, fun h => ?_⟩
    · rcases v with ⟨p, host⟩
      rcases w with ⟨q, host'⟩
      cases hpv
      cases hpw
      rw [Value.eq_mk_object, beq_iff_eq]
      exact hsame
    · have hp := hpv.symm.trans (h.payload_eq.trans hpw)
      cases hp
      rfl

/-- In every run of any workers, whatever they pass on, nest, convert and keep: each native, closure
and host object that occurs is a copy of what exactly one earlier step gave out. Two that occur, in
whichever stages, are the same if and only if they are copies of what one and the same step made, and
then they agree in all they consist of. So wrapping one method twice never gives the same target. -/
theorem identity_is_faithful {r : Run} (hr : r.Uses True) :
    (∀ i c, r.makes i = some c → r.Gives i (c.value (r.handle i))) ∧
    (∀ n v handle, (r.stage n).Occurs v → v.payload.handle? = some handle →
      ∃! i, i < n ∧ r.Descends i v) ∧
    (∀ n k v w, (r.stage n).Occurs v → (r.stage k).Occurs w → r.Faithful n k v w) ∧
    ∀ i j m settings settings', i ≠ j → r.makes i = some (.native m settings) →
      r.makes j = some (.native m settings') →
        (Callable.native (r.handle i) m).sameMethod? (.native (r.handle j) m) = some false ∧
        (Callable.native (r.handle i) m).sameTarget (.native (r.handle j) m) = false := by
  refine ⟨fun i c hc => r.gives_of_makes hc, fun n v handle hv hh => ?_,
    fun n k v w hv hw => Run.faithful hr hv hw, fun i j m settings settings' hne hi hj => ?_⟩
  · obtain ⟨i, hi, hd⟩ := Run.exists_descends hr hv hh
    exact ⟨i, ⟨hi, hd⟩, fun j hj => hj.2.unique hd⟩
  · have hhandle : r.handle i ≠ r.handle j := fun h => hne (r.handle_injective hi hj h)
    constructor
    · simp only [Callable.sameMethod?, beq_eq_false_iff_ne.mpr hhandle]
    · simp only [Callable.sameTarget, beq_eq_false_iff_ne.mpr hhandle]

/-! A worker wraps a method twice. It keeps the first native in memory, where the other worker finds
it, and returns a bound method of it together with the second native. -/

def sharing : Method := ⟨"demo.Host", "share", .isPublic, false, true, 0⟩

def bindTo (receiver f : Value) : Value :=
  match f.asCallable with
  | some c => Value.ofCallable (.bound receiver c)
  | none => f

def wrappingTwice : Program :=
  .wrap sharing {} <| .andThen fun first =>
    .wrap sharing { catchPanics := false } <| .andThen fun second =>
      .makeObject ⟨"demo::Point"⟩ fun object =>
        .keep 0 first <| .give <| Value.ofList [bindTo object first, second]

def sharingRun : Run where
  clients := [.perform wrappingTwice fun _ => .done, .perform (.fetch 0 .give) fun _ => .done]
  schedule n := if n < 6 then 0 else 1

theorem derived_bindTo {free : Prop} {held : Set Value} {receiver f : Value}
    (hr : Derived free held receiver) (hf : Derived free held f) :
    Derived free held (bindTo receiver f) := by
  rcases f with ⟨p, type⟩
  cases p with
  | callable c => exact .bound hr (.callable hf rfl)
  | none | bool | int | float | str | list | dict | object => exact hf

theorem uses_sharingRun : sharingRun.Uses True := by
  have hmaker : wrappingTwice.Uses True ∅ := by
    refine uses_wrap (uses_andThen fun first => ?_)
    refine uses_wrap (uses_andThen fun second => ?_)
    refine uses_makeObject fun object => ?_
    refine uses_keep (.held (by simp)) (uses_give (.list fun v hv => ?_))
    rcases List.mem_pair.mp hv with rfl | rfl
    · exact derived_bindTo (.held (by simp)) (.held (by simp))
    · exact .held (by simp)
  have hfetcher : (Program.fetch 0 .give).Uses True ∅ :=
    uses_fetch fun v => uses_give (.held (by simp))
  intro client hc
  rcases List.mem_pair.mp hc with rfl | rfl
  · exact ⟨hmaker, fun _ => trivial⟩
  · exact ⟨hfetcher, fun _ => trivial⟩

theorem identity_is_faithful_sharing :
    (let shared := Value.ofCallable (.native 0 sharing)
    (sharingRun.stage 9).Occurs (Value.ofCallable (.bound (Value.ofObject 2 ⟨"demo::Point"⟩)
      (.native 0 sharing))) ∧ sharingRun.SameOrigin shared shared) ∧
    (Callable.native 0 sharing).sameMethod? (.native 1 sharing) = some false := by
  obtain ⟨-, -, hfaithful, htwice⟩ := identity_is_faithful uses_sharingRun
  have hlist : (sharingRun.stage 9).Occurs (Value.ofList [Value.ofCallable
      (.bound (Value.ofObject 2 ⟨"demo::Point"⟩) (.native 0 sharing)),
      Value.ofCallable (.native 1 sharing)]) :=
    .moved (List.mem_of_getElem? (i := 0) rfl) List.mem_cons_self
  have hfetched : (sharingRun.stage 9).Occurs (Value.ofCallable (.native 0 sharing)) :=
    .moved (List.mem_of_getElem? (i := 1) rfl) List.mem_cons_self
  have hbound := hlist.part (.item List.mem_cons_self)
  have hsame := (hfaithful 9 9 _ _ hfetched (hbound.part .function)).natives rfl rfl
  exact ⟨⟨hbound, hsame.1.mp rfl⟩, (htwice 1 2 sharing _ _ (by decide) rfl rfl).1⟩

end HostBridge
