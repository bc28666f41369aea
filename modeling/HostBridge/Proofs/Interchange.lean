import HostBridge.Proofs.BoundChains
import HostBridge.Proofs.Identity
import HostBridge.Proofs.Native

/-! # Callables that stand in for each other

Callables that are the same target run one and the same function. What stands in front of their
arguments are receivers that are equal, and equal values need not be the same: a body that reads its
receiver can tell a number from the integer it equals. So the same target does not mean the same
behaviour, unless no body gets to see the receivers.
-/
namespace HostBridge

open Program (uses_andThen uses_give uses_makeBody uses_wrap)

/-! ## Agreement of calls -/

/-- Who made the call gets the same: the same exception or panic, or values that are equal. -/
def Outcome.Agrees (o p : Outcome) : Prop :=
  o = p ∨ ∃ v u, o = .returned v ∧ p = .returned u ∧ v.eq u = true

theorem Outcome.Agrees.of_ofBool {b c : Bool}
    (h : (returned (.ofBool b)).Agrees (returned (.ofBool c))) : b = c := by
  rcases h with h | ⟨v, u, hv, hu, heq⟩
  · cases h
    rfl
  · cases hv
    cases hu
    cases Value.eq_iff.mp heq
    rfl

namespace Callable

/-- Whatever they are called with, in whatever world and with whatever bodies there: both calls come
to the same, and are counted alike. -/
def Interchangeable (a b : Callable) : Prop :=
  ∀ (args : List Value) (kwargs : Keywords) (w : World),
    let first := (Value.ofCallable a).call args kwargs w
    let second := (Value.ofCallable b).call args kwargs w
    first.1.Agrees second.1 ∧ first.2.statistics = second.2.statistics

theorem interchangeable_of_apply_eq {a b : Callable}
    (h : ∀ caller args kwargs w, a.apply caller args kwargs w = b.apply caller args kwargs w) :
    a.Interchangeable b := by
  intro args kwargs w
  have heq : (Value.ofCallable a).call args kwargs w = (Value.ofCallable b).call args kwargs w :=
    h ..
  dsimp only
  rw [heq]
  exact ⟨.inl rfl, rfl⟩

/-- Calls come to a body. The body of a method that is not accessible is never run. -/
def runsBody : Callable → Bool
  | native _ m => m.isAccessible
  | closure _ _ _ => true
  | bound _ f => f.runsBody

theorem runsBody_innermost : ∀ c : Callable, c.innermost.runsBody = c.runsBody
  | native _ _ | closure _ _ _ => rfl
  | bound _ f => runsBody_innermost f

/-- What runs a body can run one that answers any question about its arguments. -/
theorem exists_world_answering {f : Callable} (hf : f.isBound = false) (hr : f.runsBody = true)
    (ask : List Value → Bool) : ∃ w : World, ∀ (caller : Caller) (args : List Value),
      (f.apply caller args .empty w).1 = .returned (.ofBool (ask args)) := by
  have hbody : ∀ body : BodyId, ∃ w : World, ∀ w' : World, w'.bodies = w.bodies →
      ∀ caller args, runBody caller body args .empty w' = (.returned (.ofBool (ask args)), w') := by
    intro body
    refine ⟨{ World.initial with
      bodies := .replicate (body + 1) fun args _ => .give (.ofBool (ask args)) }, ?_⟩
    intro w' hw' caller args
    simp [runBody, hw', Program.give, Program.perform]
  cases f with
  | bound => cases hf
  | closure handle name body =>
    obtain ⟨w, hw⟩ := hbody body
    exact ⟨w, fun caller args => congrArg Prod.fst (hw w rfl caller args)⟩
  | native handle m =>
    obtain ⟨w, hw⟩ := hbody m.body
    refine ⟨w, fun caller args => ?_⟩
    rw [apply, callNative_of_accessible hr (hw (w.announce m args .empty) rfl caller args),
      leave_answer]
    rfl

/-- Where no body is run, of the receivers only their number counts. -/
theorem apply_eq_of_not_runsBody {f : Callable} (hf : f.isBound = false) (hr : f.runsBody = false)
    {args args' : List Value} (hlen : args.length = args'.length) (caller : Caller)
    (kwargs : Keywords) (w : World) :
    f.apply caller args kwargs w = f.apply caller args' kwargs w := by
  cases f with
  | bound => cases hf
  | closure => cases hr
  | native handle m =>
    rw [apply, apply, callNative_of_denied hr, callNative_of_denied hr, World.announce,
      World.announce, hlen]

end Callable

/-! ## The same target -/

theorem Stage.Occurs.innermost {x : Stage} : ∀ {c : Callable} {v : Value}, x.Occurs v →
    v.payload = .callable c → ∃ u, x.Occurs u ∧ u.payload = .callable c.innermost
  | .native .., v, hv, hc | .closure .., v, hv, hc => ⟨v, hv, hc⟩
  | .bound r f, v, hv, hc => by
    have hf : (Value.ofCallable f).Within v := (Value.within_ofCallable hc).mp .function
    exact Stage.Occurs.innermost (c := f) (hv.part hf) rfl

/-- Of functions that are no bound methods, only copies of one are the same target. -/
theorem Run.eq_of_sameTarget {r : Run} (hr : r.Uses True) {n k : Nat} {v u : Value}
    (hv : (r.stage n).Occurs v) (hu : (r.stage k).Occurs u) {f g : Callable}
    (hpv : v.payload = .callable f) (hpu : u.payload = .callable g) (hf : f.isBound = false)
    (h : f.sameTarget g = true) : f = g := by
  obtain ⟨handle, hhv, hhu⟩ : ∃ handle, v.payload.handle? = some handle ∧
      u.payload.handle? = some handle := by
    rw [hpv, hpu]
    cases Callable.sameTarget_iff.mp h with
    | native handle | closure handle => exact ⟨handle, rfl, rfl⟩
    | bound => cases hf
  have horigin := (Run.handle_eq_iff hr hv hu hhv hhu).mp rfl
  exact Payload.callable.inj (hpv.symm.trans (horigin.payload_eq.trans hpu))

namespace Callable
variable {a b : Callable}

theorem sameTarget_self {f : Callable} (hf : f.isBound = false) : f.sameTarget f = true := by
  cases f with
  | bound => cases hf
  | native | closure => rw [sameTarget, beq_self_eq_true]

theorem eq_of_receivers_eq (hf : a.innermost = b.innermost) (hr : a.receivers = b.receivers) :
    a = b := by
  rw [← innermost_boundTo_receivers a, hf, hr, innermost_boundTo_receivers]

/-- A body that asks for the receivers of one chain around it tells that chain from all others. -/
theorem Interchangeable.eq (h : a.Interchangeable b) (hf : a.innermost = b.innermost)
    (hr : a.runsBody = true) : a = b := by
  classical
  obtain ⟨w, hw⟩ := exists_world_answering (isBound_innermost a) (by rwa [runsBody_innermost])
    fun args => decide (args = a.receivers)
  have hagrees := (h [] .empty w).1
  have hcall : ∀ c : Callable, c.innermost = a.innermost →
      ((Value.ofCallable c).call [] .empty w).1 =
        .returned (.ofBool (decide (c.receivers = a.receivers))) := by
    intro c hc
    have happly := apply_innermost (Value.callWithin (Value.bodyLimit - 1)) c [] .empty w
    rw [hc, List.append_nil] at happly
    exact (congrArg Prod.fst happly).trans (hw _ _)
  rw [hcall a rfl, hcall b hf.symm] at hagrees
  have hsame := hagrees.of_ofBool
  rw [decide_eq_true rfl] at hsame
  exact eq_of_receivers_eq hf (of_decide_eq_true hsame.symm).symm

theorem interchangeable_of_not_runsBody (hf : a.innermost = b.innermost)
    (hlen : a.receivers.length = b.receivers.length) (hr : a.runsBody = false) :
    a.Interchangeable b := by
  refine interchangeable_of_apply_eq fun caller args kwargs w => ?_
  have hlen' : (a.receivers ++ args).length = (b.receivers ++ args).length := by
    rw [List.length_append, List.length_append, hlen]
  rw [apply_innermost, apply_innermost caller b, ← hf]
  exact apply_eq_of_not_runsBody (isBound_innermost a) (by rwa [runsBody_innermost]) hlen' ..

end Callable

/-- Two callables that occur in a run are the same target if and only if the function in the middle
of both is one and the same and their receivers are equal in pairs. Calls of both then run this
function, each with its own receivers in front of the arguments. A body may tell equal receivers
apart: both can stand in for each other, whatever the body, if and only if they are the same in all
they consist of or no body is run. Natives and closures that are the same target are the same. -/
theorem same_target_shares_function {r : Run} (hr : r.Uses True) {n k : Nat} {v u : Value}
    (hv : (r.stage n).Occurs v) (hu : (r.stage k).Occurs u) {a b : Callable}
    (ha : v.payload = .callable a) (hb : u.payload = .callable b) :
    (a.sameTarget b = true ↔ a.innermost = b.innermost ∧
      List.Forall₂ (fun r s => r.eq s = true) a.receivers b.receivers) ∧
    (a.sameTarget b = true →
      (∀ (caller : Caller) (args : List Value) (kwargs : Keywords) (w : World),
        a.apply caller args kwargs w = a.innermost.apply caller (a.receivers ++ args) kwargs w ∧
        b.apply caller args kwargs w = a.innermost.apply caller (b.receivers ++ args) kwargs w) ∧
      (a.isBound = false → a = b) ∧
      (a.Interchangeable b ↔ (a.runsBody = true → a = b))) := by
  obtain ⟨v', hv', ha'⟩ := hv.innermost ha
  obtain ⟨u', hu', hb'⟩ := hu.innermost hb
  have hfunction : a.innermost.sameTarget b.innermost = true ↔ a.innermost = b.innermost := by
    constructor
    · exact Run.eq_of_sameTarget hr hv' hu' ha' hb' (Callable.isBound_innermost a)
    · intro h
      rw [← h]
      exact Callable.sameTarget_self (Callable.isBound_innermost a)
  have hsame : a.sameTarget b = true ↔ a.innermost = b.innermost ∧
      List.Forall₂ (fun r s => r.eq s = true) a.receivers b.receivers := by
    rw [Callable.sameTarget_iff_receivers, hfunction]
  refine ⟨hsame, fun h => ?_⟩
  obtain ⟨hf, hreceivers⟩ := hsame.mp h
  refine ⟨fun caller args kwargs w => ?_, fun hplain => ?_, fun hab hrun => hab.eq hf hrun, ?_⟩
  · rw [Callable.apply_innermost caller b, ← hf]
    exact ⟨Callable.apply_innermost .., rfl⟩
  · exact Run.eq_of_sameTarget hr hv hu ha hb hplain h
  · intro hab
    cases hrun : a.runsBody with
    | true => exact hab hrun ▸ Callable.interchangeable_of_apply_eq fun _ _ _ _ => rfl
    | false => exact Callable.interchangeable_of_not_runsBody hf hreceivers.length_eq hrun

/-! A worker wraps a method that reads its first argument as an integer. It binds the native to an
integer and to the number that the integer equals. -/

def integerOf : Method := ⟨"demo.Number", "integer", .isPublic, false, true, 0⟩

def bindingTwice : Program :=
  .makeBody (Script.argument 0 .int).behaviour fun _ =>
    .wrap integerOf {} <| .andThen fun f =>
      .give (.ofList [bindTo (.ofInt 2) f, bindTo (.ofFloat (.ofInt 2)) f])

def bindingRun : Run := Client.run (.perform bindingTwice fun _ => .done)

def boundToInteger : Callable := .bound (.ofInt 2) (.native 0 integerOf)

def boundToNumber : Callable := .bound (.ofFloat (.ofInt 2)) (.native 0 integerOf)

theorem uses_bindingRun : bindingRun.Uses True := by
  have hmaker : bindingTwice.Uses True ∅ := by
    refine uses_makeBody (fun args kwargs => ?_) fun _ => uses_wrap (uses_andThen fun f => ?_)
    · exact Script.uses_behaviour _ (by simp [Script.captured]) args kwargs fun v hv => .inr hv
    · refine uses_give (.list fun v hv => ?_)
      rcases List.mem_pair.mp hv with rfl | rfl <;>
        exact derived_bindTo (.scalar rfl) (.held (by simp))
  intro client hc
  cases List.mem_singleton.mp hc
  exact ⟨hmaker, fun _ => trivial⟩

theorem occurs_bindingRun {c : Callable} (hc : c ∈ [boundToInteger, boundToNumber]) :
    (bindingRun.stage 3).Occurs (.ofCallable c) := by
  have hlist : (bindingRun.stage 3).Occurs
      (.ofList ([boundToInteger, boundToNumber].map Value.ofCallable)) :=
    .moved (List.mem_of_getElem? (i := 0) rfl) List.mem_cons_self
  exact hlist.part (.item (List.mem_map_of_mem hc))

theorem same_target_shares_function_binding :
    boundToInteger.innermost = boundToNumber.innermost ∧
      ¬ boundToInteger.Interchangeable boundToNumber := by
  obtain ⟨hsame, hthen⟩ := same_target_shares_function uses_bindingRun
    (occurs_bindingRun (c := boundToInteger) (by simp))
    (occurs_bindingRun (c := boundToNumber) (by simp)) rfl rfl
  have htarget : boundToInteger.sameTarget boundToNumber = true := by decide
  obtain ⟨-, -, hinterchange⟩ := hthen htarget
  exact ⟨(hsame.mp htarget).1, fun h => absurd (hinterchange.mp h rfl) nofun⟩

/-- Receivers are compared as values are, not by identity. So of two that are the same target one may
raise where the other returns, in the very stage in which both came to be. -/
theorem same_target_told_apart :
    let w := (bindingRun.stage 3).world
    (bindingRun.Uses True ∧ (bindingRun.stage 3).Occurs (.ofCallable boundToInteger) ∧
      (bindingRun.stage 3).Occurs (.ofCallable boundToNumber)) ∧
    boundToInteger.sameTarget boundToNumber = true ∧
    ((Value.ofCallable boundToInteger).call [] .empty w).1 = .returned (.ofInt 2) ∧
    ((Value.ofCallable boundToNumber).call [] .empty w).1 =
      .raised (.targetRaised (.typeError "expected int, got float")) := by
  refine ⟨⟨uses_bindingRun, ?_, ?_⟩, by decide, rfl, rfl⟩
  · exact occurs_bindingRun (by simp)
  · exact occurs_bindingRun (by simp)

end HostBridge
