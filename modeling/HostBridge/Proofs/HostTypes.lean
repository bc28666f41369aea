import HostBridge.Proofs.Identity

/-! # Values remember their host type

Every way to make a value but the choice of a host type by hand gives it the host type that belongs
to its payload. In a run in which nobody makes that choice, payload and host type agree everywhere, so
the host type of a host object tells what it was made with.
-/
namespace HostBridge

open Program (uses_andThen uses_call_finish uses_makeBody uses_makeObject uses_wrap)
open Value (Derived)

/-- The host type is the one that belongs to the payload. -/
def labelled : Law False where
  holds _ v := v.host = v.payload.hostType
  grows := by
    intro made v hv more
    exact hv
  kept := by
    intro made
    constructor
    · exact fun _ _ => rfl
    · exact fun _ _ _ _ => rfl
    · exact False.elim
  fresh := by
    intro made c hc
    cases c <;> rfl

theorem Run.Uses.imp {free free' : Prop} (hf : free → free') {r : Run} (hr : r.Uses free) :
    r.Uses free' :=
  fun client hc => (hr client hc).imp hf

theorem Value.holds_iff {v : Value} {handle : Handle} {made : HostType}
    (hp : v.payload = .object handle made) (type : HostType) : v.holds type = true ↔ made = type := by
  simp only [Value.holds, hp, decide_eq_true_eq]

/-- In every run of any workers in which no host type is chosen by hand, every value that occurs, at
any depth of any value, has the host type that belongs to its payload. A host object has the type that
a step of the run made it with, so its host type is a type just if it holds an object of that type. -/
theorem values_remember_host_type {r : Run} (hr : r.Uses False) {n : Nat} {v : Value}
    (hv : (r.stage n).Occurs v) :
    v.host = v.payload.hostType ∧
    ∀ handle made, v.payload = .object handle made →
      (∃ i < n, r.makes i = some (.object made) ∧ r.handle i = handle) ∧
      ∀ type, v.host = type ↔ v.holds type = true := by
  have hlabel : v.host = v.payload.hostType := labelled.holds_of_occurs hr hv
  refine ⟨hlabel, fun handle made hp => ⟨?_, fun type => ?_⟩⟩
  · have hh : v.payload.handle? = some handle := by rw [hp]; rfl
    obtain ⟨i, hi, hd⟩ := Run.exists_descends (hr.imp False.elim) hv hh
    exact ⟨i, hi, hd.makes_object hp⟩
  · rw [Value.holds_iff hp, hlabel, hp, Payload.hostType]

/-! A native converts its argument, a list with a host object in it. -/

def converting : Script := .argument 0 (.list (.option .object))

def convertingRun : Run :=
  Client.run <| .perform
    (.makeBody converting.behaviour fun id =>
      .makeObject ⟨"demo::Point"⟩ fun object =>
        .wrap ⟨"demo.Host", "convert", .isPublic, false, true, id⟩ {} <| .andThen fun native =>
          .call native [Value.ofList [Value.none, object]] .empty .finish)
    fun _ => .done

theorem uses_convertingRun : convertingRun.Uses False := by
  intro client hc
  cases List.mem_singleton.mp hc
  refine ⟨uses_makeBody (fun args kwargs => ?_) fun id => ?_, fun _ => trivial⟩
  · exact converting.uses_behaviour nofun args kwargs fun v hv => .inr hv
  refine uses_makeObject fun object => uses_wrap (uses_andThen fun native => ?_)
  refine uses_call_finish fun v hv => ?_
  rcases List.mem_pair.mp hv with rfl | rfl
  · exact .held (by simp)
  · refine .list fun u hu => ?_
    rcases List.mem_pair.mp hu with rfl | rfl
    · exact .scalar rfl
    · exact .held (by simp)

theorem values_remember_host_type_converting :
    (let point : HostType := ⟨"demo::Point"⟩
    (convertingRun.stage 8).Occurs (Value.ofObject 0 point) ∧
      (∃ i < 8, convertingRun.makes i = some (.object point) ∧ convertingRun.handle i = 0) ∧
      (Value.ofObject 0 point).host = point) ∧
    (Value.ofObject 0 ⟨"demo::Point"⟩).holds ⟨"demo::Point"⟩ = true := by
  have hlist : (convertingRun.stage 8).Occurs
      (Value.ofList [Value.none, Value.ofObject 0 ⟨"demo::Point"⟩]) :=
    .moved (List.mem_of_getElem? (i := 0) rfl) List.mem_cons_self
  have hobject := hlist.part (.item (List.mem_cons_of_mem _ List.mem_cons_self))
  obtain ⟨hhost, hmade⟩ := values_remember_host_type uses_convertingRun hobject
  obtain ⟨hstep, htype⟩ := hmade 0 ⟨"demo::Point"⟩ rfl
  exact ⟨⟨hobject, hstep, hhost⟩, (htype _).mp hhost⟩

end HostBridge
