import HostBridge.Proofs.Equality
import HostBridge.Proofs.Evaluation

/-! # Bound methods in bound methods

A bound method may have another one as its function, and so on inwards. The receivers of such a
chain all end up in front of the arguments, the innermost first. They and the function in the middle
are all that there is to a chain, and all that two chains are compared by.
-/
namespace HostBridge

namespace Callable

def isBound : Callable → Bool
  | bound _ _ => true
  | native _ _ | closure _ _ _ => false

/-- The receivers of a chain of bound methods, the innermost first. -/
def receivers (c : Callable) : List Value := c.received []

/-- The chain of bound methods around `f` that has these receivers, the innermost first. -/
def boundTo (f : Callable) : List Value → Callable
  | [] => f
  | r :: rest => (bound r f).boundTo rest

/-- What every bound method has from its function, a chain has from what it is built around. -/
theorem eq_boundTo {α : Type} {look : Callable → α} (h : ∀ r f, look (bound r f) = look f)
    (f : Callable) (rs : List Value) : look (f.boundTo rs) = look f := by
  induction rs generalizing f with
  | nil => rfl
  | cons r rest ih => exact (ih (bound r f)).trans (h r f)

theorem boundTo_append (f : Callable) (rs ss : List Value) :
    f.boundTo (rs ++ ss) = (f.boundTo rs).boundTo ss := by
  induction rs generalizing f with
  | nil => rfl
  | cons r rest ih => exact ih (bound r f)

/-! ## What there is to a chain -/

theorem received_eq : ∀ (c : Callable) (args : List Value), c.received args = c.receivers ++ args
  | native _ _, _ | closure _ _ _, _ => rfl
  | bound r f, args => by
    rw [receivers, received, received, received_eq f, received_eq f, List.append_assoc]
    rfl

@[simp] theorem receivers_bound (r : Value) (f : Callable) :
    (bound r f).receivers = f.receivers ++ [r] := received_eq f [r]

@[simp] theorem receivers_native (handle : Handle) (m : Method) :
    (native handle m).receivers = [] := rfl

@[simp] theorem receivers_closure (handle : Handle) (name : String) (body : BodyId) :
    (closure handle name body).receivers = [] := rfl

theorem isBound_innermost : ∀ c : Callable, c.innermost.isBound = false
  | bound _ f => isBound_innermost f
  | native _ _ | closure _ _ _ => rfl

theorem innermost_eq_self {f : Callable} (hf : f.isBound = false) : f.innermost = f := by
  cases f with
  | native | closure => rfl
  | bound => cases hf

theorem receivers_eq_nil {f : Callable} (hf : f.isBound = false) : f.receivers = [] := by
  cases f with
  | native | closure => rfl
  | bound => cases hf

theorem innermost_boundTo (f : Callable) (rs : List Value) :
    (f.boundTo rs).innermost = f.innermost := eq_boundTo (fun _ _ => rfl) f rs

theorem receivers_boundTo (f : Callable) (rs : List Value) :
    (f.boundTo rs).receivers = f.receivers ++ rs := by
  induction rs generalizing f with
  | nil => exact (List.append_nil _).symm
  | cons r rest ih =>
    calc ((bound r f).boundTo rest).receivers
      _ = (bound r f).receivers ++ rest := ih (bound r f)
      _ = f.receivers ++ r :: rest := by rw [receivers_bound, List.append_assoc]; rfl

/-- Every callable is the chain of its receivers around what is in its middle. -/
theorem innermost_boundTo_receivers : ∀ c : Callable, c.innermost.boundTo c.receivers = c
  | native _ _ | closure _ _ _ => rfl
  | bound r f => by
    rw [innermost, receivers_bound, boundTo_append, innermost_boundTo_receivers f]
    rfl

/-! ## Calls and names -/

theorem apply_boundTo (caller : Caller) (f : Callable) (rs args : List Value) (kwargs : Keywords)
    (w : World) :
    (f.boundTo rs).apply caller args kwargs w = f.apply caller (rs ++ args) kwargs w := by
  induction rs generalizing f with
  | nil => rfl
  | cons r rest ih =>
    calc ((bound r f).boundTo rest).apply caller args kwargs w
      _ = (bound r f).apply caller (rest ++ args) kwargs w := ih (bound r f)
      _ = f.apply caller (r :: (rest ++ args)) kwargs w := rfl

theorem apply_innermost (caller : Caller) (c : Callable) (args : List Value) (kwargs : Keywords)
    (w : World) :
    c.apply caller args kwargs w = c.innermost.apply caller (c.receivers ++ args) kwargs w := by
  rw [← apply_boundTo, innermost_boundTo_receivers]

theorem name_boundTo (f : Callable) (rs : List Value) : (f.boundTo rs).name = f.name :=
  eq_boundTo (fun _ _ => rfl) f rs

/-! ## Identity -/

theorem forall₂_concat {α β : Type} {R : α → β → Prop} {xs : List α} {ys : List β} {x : α} {y : β} :
    List.Forall₂ R (xs ++ [x]) (ys ++ [y]) ↔ R x y ∧ List.Forall₂ R xs ys := by
  rw [← List.forall₂_reverse_iff]
  simp

/-- Chains are compared by what is in the middle and by the receivers in pairs. -/
theorem sameTarget_iff_receivers : ∀ {a b : Callable}, a.sameTarget b = true ↔
    a.innermost.sameTarget b.innermost = true ∧
      List.Forall₂ (fun r s => r.eq s = true) a.receivers b.receivers
  | native .., native .. | native .., closure .. | closure .., native ..
  | closure .., closure .. => by simp [innermost]
  | bound r f, bound s g => by
    rw [receivers_bound, receivers_bound, forall₂_concat, sameTarget, Bool.and_eq_true, innermost,
      innermost, sameTarget_iff_receivers (a := f)]
    exact and_left_comm
  | native .., bound .. | bound .., native .. | closure .., bound ..
  | bound .., closure .. => by simp [sameTarget]

theorem sameTarget_boundTo {f g : Callable} (hf : f.isBound = false) (hg : g.isBound = false)
    {rs ss : List Value} : (f.boundTo rs).sameTarget (g.boundTo ss) = true ↔
      f.sameTarget g = true ∧ List.Forall₂ (fun r s => r.eq s = true) rs ss := by
  rw [sameTarget_iff_receivers, innermost_boundTo, innermost_boundTo, receivers_boundTo,
    receivers_boundTo, innermost_eq_self hf, innermost_eq_self hg, receivers_eq_nil hf,
    receivers_eq_nil hg, List.nil_append, List.nil_append]

end Callable

theorem Value.callWithin_boundTo {f : Callable} {rs : List Value} {v u : Value}
    (hv : v.payload = .callable (f.boundTo rs)) (hu : u.payload = .callable f) (limit : Nat)
    (args : List Value) (kwargs : Keywords) (w : World) :
    v.callWithin limit args kwargs w = u.callWithin limit (rs ++ args) kwargs w := by
  cases limit with
  | zero => rfl
  | succ limit =>
    simp only [callWithin, hv, hu]
    exact Callable.apply_boundTo _ f rs args kwargs w

/-- A chain of bound methods, however deep, does with any arguments what the function in its middle
does with the receivers, the innermost first, and the arguments after them, and leaves the same
world. It goes by the name of that function. Two chains of one depth are the same target if and only
if their functions are and their receivers are equal in pairs; chains of different depths never are. -/
theorem bound_chains_flatten {f : Callable} (hf : f.isBound = false) (rs : List Value) :
    (∀ (caller : Caller) (args : List Value) (kwargs : Keywords) (w : World),
      (f.boundTo rs).apply caller args kwargs w = f.apply caller (rs ++ args) kwargs w) ∧
    (∀ v u : Value, v.payload = .callable (f.boundTo rs) → u.payload = .callable f →
      ∀ (limit : Nat) (args : List Value) (kwargs : Keywords) (w : World),
        v.callWithin limit args kwargs w = u.callWithin limit (rs ++ args) kwargs w) ∧
    (f.boundTo rs).name = f.name ∧
    ∀ (g : Callable) (ss : List Value), g.isBound = false →
      (rs.length = ss.length → ((f.boundTo rs).sameTarget (g.boundTo ss) = true ↔
        f.sameTarget g = true ∧ List.Forall₂ (fun r s => r.eq s = true) rs ss)) ∧
      (rs.length ≠ ss.length → (f.boundTo rs).sameTarget (g.boundTo ss) = false) := by
  refine ⟨fun caller => Callable.apply_boundTo caller f rs,
    fun v u hv hu => Value.callWithin_boundTo hv hu, Callable.name_boundTo f rs, fun g ss hg => ?_⟩
  have hsame : (f.boundTo rs).sameTarget (g.boundTo ss) = true ↔
      f.sameTarget g = true ∧ List.Forall₂ (fun r s => r.eq s = true) rs ss :=
    Callable.sameTarget_boundTo hf hg
  refine ⟨fun _ => hsame, fun hne => ?_⟩
  by_contra h
  rw [Bool.not_eq_false] at h
  exact hne (hsame.mp h).2.length_eq

/-! A function that lists its arguments, bound to a number and then to a bound method. -/

def listing : Callable := .closure 0 "listing" 0

def listingWorld : World := (World.initial.makeBody fun args _ => .give (.ofList args)).2

def listingReceivers : List Value := [.ofInt 1, .ofCallable (.bound (.ofInt 2) listing)]

theorem bound_chains_flatten_listing :
    let chain := listing.boundTo listingReceivers
    ((Value.ofCallable chain).call [.none] .empty listingWorld).1 =
      .returned (.ofList (listingReceivers ++ [.none])) ∧
    chain.name = "listing" ∧
    chain.sameTarget
      (listing.boundTo [.ofFloat (.ofInt 1), .ofCallable (.bound (.ofInt 2) listing)]) = true ∧
    chain.sameTarget (listing.boundTo [.ofInt 1]) = false := by
  intro chain
  obtain ⟨-, hcall, hname, hsame⟩ := bound_chains_flatten (f := listing) rfl listingReceivers
  refine ⟨?_, hname, ((hsame listing _ rfl).1 rfl).mpr ?_, (hsame listing _ rfl).2 (by decide)⟩
  · rw [Value.call, hcall (.ofCallable chain) (.ofCallable listing) rfl rfl]
    rfl
  · exact ⟨by decide, .cons (by decide) (.cons (by decide) .nil)⟩

end HostBridge
