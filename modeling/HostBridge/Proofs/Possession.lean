import HostBridge.Call.Script
import HostBridge.Proofs.Inertness
import HostBridge.Proofs.Parts

/-! # Programs that use what they hold

A program hands values to the runtime and gains values from it. It uses what it holds when every
value that it hands over is derived from the values it holds, whatever it is answered, and when the
bodies that it makes do so as well, from what their maker held and what they are called with.
-/
namespace HostBridge

open Value (Derived)

def Answer.values : Answer → List Value
  | .ok v => [v]
  | .error _ => []

def Outcome.values : Outcome → List Value
  | returned v => [v]
  | raised _ | panicked _ | overflowed => []

/-- What a body is called with. -/
def given (args : List Value) (kwargs : Keywords) : List Value := args ++ kwargs.values

namespace Program

/-- What a program hands to the runtime with its next request. -/
def offered : Program → List Value
  | finish answer => answer.values
  | .call target args kwargs _ => target :: given args kwargs
  | keep _ value _ => [value]
  | panic _ | look _ | count _ _ | reset _ | fetch _ _ | makeObject _ _ | makeBody _ _
  | makeClosure _ _ _ | wrap _ _ _ => []

/-- How a program may go on, with the values that it gains. A body that it makes goes on from the
same point, with what it is called with. -/
inductive Next : Program → List Value → Program → Prop
  | called {target : Value} {args : List Value} {kwargs : Keywords} {next : Answer → Program}
      (answer : Answer) : Next (.call target args kwargs next) answer.values (next answer)
  | looked {next : Snapshot → Program} (s : Snapshot) : Next (look next) [] (next s)
  | counted {method : String} {next : UInt64 → Program} (n : UInt64) :
      Next (count method next) [] (next n)
  | cleared {next : Program} : Next (reset next) [] next
  | fetched {cell : Cell} {next : Value → Program} (v : Value) : Next (fetch cell next) [v] (next v)
  | kept {cell : Cell} {value : Value} {next : Program} : Next (keep cell value next) [] next
  | object {type : HostType} {next : Value → Program} (v : Value) :
      Next (makeObject type next) [v] (next v)
  | body {made : Behaviour} {next : BodyId → Program} (id : BodyId) :
      Next (makeBody made next) [] (next id)
  | inside {made : Behaviour} {next : BodyId → Program} (args : List Value) (kwargs : Keywords) :
      Next (makeBody made next) (given args kwargs) (made args kwargs)
  | closure {name : String} {body : BodyId} {next : Value → Program} (v : Value) :
      Next (makeClosure name body next) [v] (next v)
  | wrapped {method : Method} {settings : NativeSettings} {next : Answer → Program}
      (answer : Answer) : Next (wrap method settings next) answer.values (next answer)

/-- The program hands over only what is derived from what it holds, now and however it goes on. -/
inductive Uses (free : Prop) : Set Value → Program → Prop
  | intro {held : Set Value} {p : Program} (offers : ∀ v ∈ p.offered, Derived free held v)
      (next : ∀ gained q, p.Next gained q → Uses free (held ∪ {v | v ∈ gained}) q) :
      Uses free held p

namespace Uses
variable {free : Prop} {held held' : Set Value} {p q : Program}

theorem offers (hp : p.Uses free held) : ∀ v ∈ p.offered, Derived free held v := by
  cases hp with
  | intro offers next => exact offers

theorem next (hp : p.Uses free held) {gained : List Value} (hn : p.Next gained q) :
    q.Uses free (held ∪ {v | v ∈ gained}) := by
  cases hp with
  | intro offers next => exact next gained q hn

theorem mono (hp : p.Uses free held) (hsub : held ⊆ held') : p.Uses free held' := by
  induction hp generalizing held' with
  | intro offers _ ih =>
    refine .intro (fun v hv => (offers v hv).mono hsub) fun gained q hn => ?_
    exact ih gained q hn (Set.union_subset_union_left _ hsub)

theorem imp {free' : Prop} (hf : free → free') (hp : p.Uses free held) : p.Uses free' held := by
  induction hp with
  | intro offers _ ih => exact .intro (fun v hv => (offers v hv).imp hf) ih

/-- Going on with values that were held before. -/
theorem absorb {gained : List Value} (hp : p.Uses free (held ∪ {v | v ∈ gained}))
    (hsub : held ⊆ held') (hg : ∀ v ∈ gained, v ∈ held') : p.Uses free held' :=
  hp.mono (Set.union_subset hsub hg)

end Uses

/-! ## Single requests -/

/-- Goes on with the value of an answer, and passes on an exception. -/
def andThen (next : Value → Program) : Answer → Program
  | .ok v => next v
  | .error e => raise e

section
variable {free : Prop} {held : Set Value}

theorem uses_give {v : Value} (hv : Derived free held v) : (give v).Uses free held := by
  refine .intro (fun u hu => ?_) nofun
  cases List.mem_singleton.mp hu
  exact hv

theorem uses_raise (e : Exception) : (raise e).Uses free held := .intro nofun nofun

theorem uses_panic (payload : Panic) : (panic payload).Uses free held := .intro nofun nofun

theorem uses_fetch {cell : Cell} {next : Value → Program}
    (h : ∀ v, (next v).Uses free (held ∪ {u | u ∈ [v]})) : (fetch cell next).Uses free held := by
  refine .intro nofun fun gained q hn => ?_
  cases hn with
  | fetched v => exact h v

theorem uses_keep {cell : Cell} {value : Value} {next : Program} (hv : Derived free held value)
    (h : next.Uses free held) : (keep cell value next).Uses free held := by
  refine .intro (fun u hu => ?_) fun gained q hn => ?_
  · cases List.mem_singleton.mp hu
    exact hv
  · cases hn with
    | kept => exact h.mono Set.subset_union_left

theorem uses_makeObject {type : HostType} {next : Value → Program}
    (h : ∀ v, (next v).Uses free (held ∪ {u | u ∈ [v]})) : (makeObject type next).Uses free held := by
  refine .intro nofun fun gained q hn => ?_
  cases hn with
  | object v => exact h v

theorem uses_makeBody {body : Behaviour} {next : BodyId → Program}
    (hbody : ∀ args kwargs, (body args kwargs).Uses free (held ∪ {v | v ∈ given args kwargs}))
    (h : ∀ id, (next id).Uses free held) : (makeBody body next).Uses free held := by
  refine .intro nofun fun gained q hn => ?_
  cases hn with
  | body id => exact (h id).mono Set.subset_union_left
  | inside args kwargs => exact hbody args kwargs

theorem uses_wrap {m : Method} {settings : NativeSettings} {next : Answer → Program}
    (h : ∀ answer : Answer, (next answer).Uses free (held ∪ {u | u ∈ answer.values})) :
    (wrap m settings next).Uses free held := by
  refine .intro nofun fun gained q hn => ?_
  cases hn with
  | wrapped answer => exact h answer

theorem uses_andThen {next : Value → Program}
    (h : ∀ v, (next v).Uses free (held ∪ {u | u ∈ [v]})) (answer : Answer) :
    (andThen next answer).Uses free (held ∪ {u | u ∈ answer.values}) := by
  cases answer with
  | ok v => exact h v
  | error e => exact uses_raise e

/-- A call whose answer is passed on. -/
theorem uses_call_finish {target : Value} {args : List Value} {kwargs : Keywords}
    (h : ∀ v ∈ target :: given args kwargs, Derived free held v) :
    Uses free held (.call target args kwargs .finish) := by
  refine .intro h fun gained q hn => ?_
  cases hn with
  | called answer =>
    cases answer with
    | ok v => exact uses_give (.held (.inr List.mem_cons_self))
    | error e => exact uses_raise e

end

end Program

open Program (uses_call_finish uses_fetch uses_give uses_keep uses_panic uses_raise)

/-! ## Scripted bodies -/

namespace Script
variable {free : Prop} {held : Set Value}

mutual

/-- The values that a scripted body has from its maker. -/
def captured (s : Script) : List Value :=
  match s with
  | returns v => [v]
  | forward target => [target]
  | cycle _ parts => capturedAll parts
  | add | echo | count | first | nothing | greet | describe | applyFirst | look | reset | panics _
  | raises _ | argument _ _ | keyword _ => []
termination_by structural s

def capturedAll (parts : List Script) : List Value :=
  match parts with
  | [] => []
  | s :: rest => s.captured ++ capturedAll rest
termination_by structural parts

end

theorem uses_reading {α : Type} {result : Except ReadError α} {next : α → Program}
    (h : ∀ a, result = .ok a → (next a).Uses free held) : (reading result next).Uses free held := by
  cases result with
  | ok a => exact h a rfl
  | error e => exact uses_raise e.exception

/-- With the arguments among what is held, a conversion of one of them can be made as well. -/
theorem uses_argument {s : Shape} {args : List Value} {index : Nat} (hargs : ∀ v ∈ args, v ∈ held)
    {next : Value → Program} (hnext : ∀ v, Derived free held v → (next v).Uses free held) :
    (reading (s.convertArgument args index) next).Uses free held :=
  uses_reading fun v hv => hnext v ((Shape.derived_convertArgument free hv).mono hargs)

theorem derived_listing {args : List Value} {kwargs : Keywords}
    (h : ∀ v ∈ given args kwargs, v ∈ held) {v : Value}
    (hv : v = Value.ofList args ∨ v = kwargs.snapshot) : Derived free held v := by
  rcases hv with rfl | rfl
  · exact .list fun u hu => .held (h u (List.mem_append_left _ hu))
  · exact (kwargs.derived_snapshot free).mono fun u hu => h u (List.mem_append_right _ hu)

theorem uses_turn {behaviours : List Behaviour} {args : List Value} {kwargs : Keywords}
    (h : ∀ b ∈ behaviours, (b args kwargs).Uses free held) (n : Nat) :
    (turn behaviours n args kwargs).Uses free held := by
  unfold turn
  cases hb : behaviours[min n (behaviours.length - 1)]? with
  | none => exact uses_give (.scalar rfl)
  | some b => exact h b (List.mem_of_getElem? hb)

mutual

/-- A scripted body uses what its maker held and what it is called with. -/
theorem uses_behaviour (s : Script) (hs : ∀ v ∈ s.captured, Derived free held v) (args : List Value)
    (kwargs : Keywords) (h : ∀ v ∈ given args kwargs, v ∈ held) :
    (s.behaviour args kwargs).Uses free held := by
  have hargs : ∀ v ∈ args, v ∈ held := fun v hv => h v (List.mem_append_left _ hv)
  match s with
  | add => exact uses_reading fun a _ => uses_reading fun b _ => uses_give (.scalar rfl)
  | echo =>
    refine uses_give (.list fun v hv => derived_listing h ?_)
    simpa using hv
  | count | nothing | greet => exact uses_give (.scalar rfl)
  | first => exact uses_argument hargs fun v hv => uses_give hv
  | describe =>
    refine uses_give (.list fun v hv => ?_)
    simp only [List.mem_cons, List.not_mem_nil, or_false, ← or_assoc] at hv
    rcases hv with hv | rfl
    · exact derived_listing h hv
    · exact .scalar rfl
  | applyFirst =>
    refine uses_argument hargs fun target htarget => uses_call_finish fun v hv => ?_
    rcases List.mem_cons.mp hv with rfl | hv
    · exact htarget
    rcases List.mem_append.mp hv with hv | hv
    · exact .held (hargs v (List.mem_of_mem_drop hv))
    · exact .held (h v (List.mem_append_right _ hv))
  | look =>
    refine .intro nofun fun gained q hn => ?_
    cases hn with
    | looked s =>
      refine uses_give (.list fun v hv => ?_)
      have hmap : v ∈ [s.calls, s.denied, s.raised].map counter := hv
      obtain ⟨n, -, rfl⟩ := List.mem_map.mp hmap
      exact .scalar rfl
  | reset =>
    refine .intro nofun fun gained q hn => ?_
    cases hn with
    | cleared => exact uses_give (.scalar rfl)
  | panics p => exact uses_panic p
  | returns v => exact uses_give (hs v List.mem_cons_self)
  | raises e => exact uses_raise e
  | argument index shape => exact uses_argument hargs fun v hv => uses_give hv
  | keyword name =>
    simp only [behaviour]
    split
    · rename_i v hv
      exact uses_give (.held (h v (List.mem_append_right _ (Keywords.mem_values_of_get? hv))))
    · exact uses_raise _
  | forward target =>
    refine uses_call_finish fun v hv => ?_
    rcases List.mem_cons.mp hv with rfl | hv
    · exact hs v List.mem_cons_self
    · exact .held (h v hv)
  | cycle cell parts =>
    refine uses_fetch fun kept => uses_keep (.scalar rfl) ?_
    have hturn := uses_turn (fun b hb => uses_behaviours parts hs b hb args kwargs h)
      (kept.asInt.getD 0).toInt.toNat
    exact hturn.mono Set.subset_union_left
termination_by structural s

theorem uses_behaviours (parts : List Script) (hparts : ∀ v ∈ capturedAll parts, Derived free held v)
    (b : Behaviour) (hb : b ∈ behaviours parts) (args : List Value) (kwargs : Keywords)
    (h : ∀ v ∈ given args kwargs, v ∈ held) : (b args kwargs).Uses free held := by
  match parts with
  | [] => cases hb
  | s :: rest =>
    simp only [capturedAll, List.forall_mem_append] at hparts
    rcases List.mem_cons.mp hb with rfl | hb
    · exact uses_behaviour s hparts.1 args kwargs h
    · exact uses_behaviours rest hparts.2 b hb args kwargs h
termination_by structural parts

end

end Script

/-! ## Clients -/

/-- A client is bound to what it holds as a body is, and gains what its programs return. -/
def Client.Uses (free : Prop) : Client → Set Value → Prop
  | done, _ => True
  | perform p next, held =>
    p.Uses free held ∧ ∀ o, (next o).Uses free (held ∪ {v | v ∈ o.values})

namespace Client
variable {free : Prop} {held held' : Set Value} {client : Client}

theorem Uses.mono (hc : client.Uses free held) (hsub : held ⊆ held') : client.Uses free held' := by
  induction client generalizing held held' with
  | done => trivial
  | perform p next ih =>
    exact ⟨hc.1.mono hsub, fun o => ih o (hc.2 o) (Set.union_subset_union_left _ hsub)⟩

theorem Uses.imp {free' : Prop} (hf : free → free') (hc : client.Uses free held) :
    client.Uses free' held := by
  induction client generalizing held with
  | done => trivial
  | perform p next ih => exact ⟨hc.1.imp hf, fun o => ih o (hc.2 o)⟩

end Client

end HostBridge
