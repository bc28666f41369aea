import HostBridge.Proofs.Native

/-! # Events are only added

Whatever a program does, also when it panics or overflows, the events that were there before it still
stand at the beginning of those after it.
-/
namespace HostBridge

/-- No event of the first world is lost. -/
def World.Grows (w w' : World) : Prop := w.events.toList <+: w'.events.toList

namespace World.Grows
variable {u v w : World}

theorem refl (w : World) : w.Grows w := List.prefix_refl _

theorem trans (huv : u.Grows v) (hvw : v.Grows w) : u.Grows w := List.IsPrefix.trans huv hvw

theorem emit (e : Event) (w : World) : w.Grows (w.emit e) := by
  simp [Grows, World.emit]

theorem announce (m : Method) (args : List Value) (kwargs : Keywords) (w : World) :
    w.Grows (w.announce m args kwargs) := by
  simp [Grows]

theorem leave (settings : NativeSettings) (m : Method) (ended : HostOutcome) (w : World) :
    w.Grows (leave settings m ended w).2 := by
  simp [Grows]

end World.Grows

def Caller.Grows (call : Caller) : Prop :=
  ∀ (v : Value) (args : List Value) (kwargs : Keywords) (w : World), w.Grows (call v args kwargs w).2

section
variable {call : Caller} (hcall : call.Grows)
include hcall

theorem perform_grows (p : Program) (w : World) : w.Grows (p.perform call w).2 := by
  -- Induction on what the body still does. Of what it asks for, only a call emits anything.
  induction p generalizing w with
  | finish answer => cases answer <;> exact .refl w
  | panic payload => exact .refl w
  | call target args kwargs next ih =>
    have hc := hcall target args kwargs w
    unfold Program.perform
    rcases hr : call target args kwargs w with ⟨ended, v⟩
    rw [hr] at hc
    cases ended with
    | returned u => exact hc.trans (ih _ v)
    | raised e => exact hc.trans (ih _ v)
    | panicked | overflowed => exact hc
  | look next ih => exact ih _ w
  | count method next ih => exact ih _ w
  | fetch cell next ih => exact ih _ w
  | reset next ih => exact ih w.resetStatistics
  | keep cell value next ih => exact ih (w.keep cell value)
  | makeObject type next ih => exact ih _ (w.makeObject type).2
  | makeBody body next _ ih => exact ih _ (w.makeBody body).2
  | makeClosure name body next ih => exact ih _ (w.makeClosure name body).2
  | wrap method settings next ih =>
    have hw : w.Grows (w.wrap method settings).2 := by
      unfold World.wrap
      split <;> exact .refl w
    exact hw.trans (ih _ _)

theorem runBody_grows (body : BodyId) (args : List Value) (kwargs : Keywords) (w : World) :
    w.Grows (runBody call body args kwargs w).2 := by
  unfold runBody
  split
  · exact perform_grows hcall _ w
  · exact .refl w

theorem callNative_grows (handle : Handle) (m : Method) (args : List Value) (kwargs : Keywords)
    (w : World) : w.Grows (callNative call handle m args kwargs w).2 := by
  have hannounce := World.Grows.announce m args kwargs w
  cases reach : m.isAccessible with
  | false =>
    rw [callNative_of_denied reach]
    exact hannounce.trans (.leave ..)
  | true =>
    have hbody := runBody_grows hcall m.body args kwargs (w.announce m args kwargs)
    rcases hr : runBody call m.body args kwargs (w.announce m args kwargs) with ⟨ended, after⟩
    rw [hr] at hbody
    rw [callNative_of_accessible reach hr]
    exact (hannounce.trans hbody).trans (.leave ..)

theorem apply_grows (c : Callable) (args : List Value) (kwargs : Keywords) (w : World) :
    w.Grows (c.apply call args kwargs w).2 := by
  match c with
  | .native handle m => exact callNative_grows hcall handle m args kwargs w
  | .bound receiver f => exact apply_grows f (receiver :: args) kwargs w
  | .closure handle name body => exact runBody_grows hcall body args kwargs w
termination_by structural c

end

theorem callWithin_grows (limit : Nat) : (Value.callWithin limit).Grows := by
  induction limit with
  | zero =>
    intro v args kwargs w
    exact .refl w
  | succ limit ih =>
    intro v args kwargs w
    unfold Value.callWithin
    split
    · exact apply_grows ih _ args kwargs w
    · exact .refl w

end HostBridge
