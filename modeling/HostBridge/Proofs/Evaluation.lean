import HostBridge.Proofs.Machine

/-! # The evaluator goes the way of the machine

Whatever the evaluator makes of a call that does not overflow, the machine reaches by single steps,
whatever waits for the outcome, and the history of these steps is made of invocations. The proof
follows the evaluator: programs by their requests, callables by their receivers, calls by the limit.
-/
namespace HostBridge

def Follows (x : Control) (w : World) (is : List Invocation) (o : Outcome) (w' : World) : Prop :=
  ∃ history, Spans history is ∧
    ∀ frames, Runs ⟨x, frames, w⟩ history ⟨.finish o, frames, w'⟩

namespace Follows
variable {x y : Control} {w v w' : World} {is js : List Invocation} {o : Outcome}

theorem done : Follows (.finish o) w [] o w := ⟨[], .nil, fun _ => .refl _⟩

theorem silent (he : ∀ frames, Point.step ⟨x, frames, w⟩ = some ([], ⟨y, frames, v⟩))
    (hf : Follows y v is o w') : Follows x w is o w' := by
  obtain ⟨history, hs, hr⟩ := hf
  exact ⟨history, hs, fun frames => .silent (he frames) (hr frames)⟩

theorem cleared (he : ∀ frames, Point.step ⟨x, frames, w⟩ = some ([.cleared], ⟨y, frames, v⟩))
    (hf : Follows y v is o w') : Follows x w is o w' := by
  obtain ⟨history, hs, hr⟩ := hf
  exact ⟨.cleared :: history, .cleared hs, fun frames => .step (he frames) (hr frames)⟩

/-- A body that calls waits below the call and goes on from its outcome. -/
theorem call {target : Value} {args : List Value} {kwargs : Keywords} {next : Answer → Program}
    {ended : Outcome} (hc : Follows (.call target args kwargs) w is ended v)
    (he : ∀ frames, Point.step ⟨.finish ended, .body next :: frames, v⟩ =
      some ([], ⟨y, frames, v⟩))
    (hf : Follows y v js o w') : Follows (.perform (.call target args kwargs next)) w (is ++ js) o w' := by
  obtain ⟨h, hs, hr⟩ := hc
  obtain ⟨k, ks, kr⟩ := hf
  refine ⟨h ++ k, hs.append ks, fun frames => ?_⟩
  exact .silent rfl ((hr (.body next :: frames)).trans (.silent (he frames) (kr frames)))

end Follows

namespace Callable

def innermost : Callable → Callable
  | bound _ f => f.innermost
  | c => c

def received : Callable → List Value → List Value
  | bound receiver f, args => f.received (receiver :: args)
  | _, args => args

/-- If the innermost callable is a native, then these invocations are just its own, with everything
that it was given and with the outcome of the application. -/
def Heads (c : Callable) (args : List Value) (kwargs : Keywords) (is : List Invocation)
    (o : Outcome) : Prop :=
  ∀ handle m, c.innermost = .native handle m →
    ∃ i : Invocation, is = [i] ∧ i.method = m ∧ i.args = c.received args ∧ i.kwargs = kwargs ∧
      i.result = o

end Callable

def Caller.Followed (call : Caller) : Prop :=
  ∀ {v args kwargs w o w'}, call v args kwargs w = (o, w') → o ≠ .overflowed →
    ∃ is, Follows (.call v args kwargs) w is o w' ∧
      ∀ c, v.payload = .callable c → c.Heads args kwargs is o

section
variable {call : Caller} (hcall : call.Followed)
include hcall

theorem perform_follows (p : Program) {w w' : World} {o : Outcome}
    (he : p.perform call w = (o, w')) (ho : o ≠ .overflowed) :
    ∃ is, Follows (.perform p) w is o w' := by
  -- Induction on what the body still does; a call in it is followed as a whole, by assumption.
  induction p generalizing w with
  | finish answer =>
    cases answer <;> cases he <;> exact ⟨[], .silent (fun _ => rfl) .done⟩
  | panic payload => cases he; exact ⟨[], .silent (fun _ => rfl) .done⟩
  | call target args kwargs next ih =>
    rcases hc : call target args kwargs w with ⟨ended, v⟩
    simp only [Program.perform, hc] at he
    cases ended with
    | returned _ | raised _ =>
      obtain ⟨is, hi, -⟩ := hcall hc (by simp)
      obtain ⟨js, hj⟩ := ih _ he
      exact ⟨is ++ js, hi.call (fun _ => rfl) hj⟩
    | panicked payload =>
      cases he
      obtain ⟨is, hi, -⟩ := hcall hc ho
      exact ⟨is ++ [], hi.call (fun _ => rfl) .done⟩
    | overflowed => cases he; exact absurd rfl ho
  | reset next ih =>
    obtain ⟨is, hi⟩ := ih he
    exact ⟨is, .cleared (fun _ => rfl) hi⟩
  | keep cell value next ih =>
    obtain ⟨is, hi⟩ := ih he
    exact ⟨is, .silent (fun _ => rfl) hi⟩
  | look | count | fetch | makeObject | makeBody | makeClosure | wrap =>
    rename_i ih
    obtain ⟨is, hi⟩ := ih _ he
    exact ⟨is, .silent (fun _ => rfl) hi⟩

theorem runBody_follows {body : BodyId} {args : List Value} {kwargs : Keywords} {w w' : World}
    {o : Outcome} (he : runBody call body args kwargs w = (o, w')) (ho : o ≠ .overflowed) :
    ∃ is, Follows (w.start body args kwargs) w is o w' := by
  unfold runBody at he
  unfold World.start
  cases hb : w.bodies[body]? with
  | none => rw [hb] at he; cases he; exact ⟨[], .done⟩
  | some behaviour => rw [hb] at he; exact perform_follows hcall _ he ho

end

theorem Spans.ran {inside : History} {js : List Invocation} {m : Method} {ended : Outcome}
    (handle : Handle) (settings : NativeSettings) (args : List Value) (kwargs : Keywords)
    (reach : m.isAccessible = true) (inner : Spans inside js) (ho : ended ≠ .overflowed) :
    ∃ i : Invocation, i.method = m ∧ i.args = args ∧ i.kwargs = kwargs ∧
      i.how = m.take settings ended ∧
      Spans (.invoked handle m args kwargs ::
        (inside ++ [.ended settings m (m.take settings ended)])) [i] := by
  have answered := fun answer => Spans.answered handle settings args kwargs answer reach inner .nil
  have abandoned := fun p => Spans.abandoned handle settings args kwargs p reach inner .nil
  cases ended with
  | returned v => exact ⟨_, rfl, rfl, rfl, rfl, answered (.ok v)⟩
  | raised e => exact ⟨_, rfl, rfl, rfl, rfl, answered (.error e)⟩
  | panicked p =>
    cases hc : settings.catchPanics with
    | true =>
      have ht : m.take settings (.panicked p) = .raised (m.panicException p) := by
        simp [Method.take, hc]
      rw [ht]
      exact ⟨_, rfl, rfl, rfl, rfl, answered (.error (m.panicException p))⟩
    | false =>
      have ht : m.take settings (.panicked p) = .panicked p := by simp [Method.take, hc]
      rw [ht]
      exact ⟨_, rfl, rfl, rfl, rfl, abandoned p⟩
  | overflowed => exact absurd rfl ho

/-! ## Callables -/

section
variable {call : Caller} (hcall : call.Followed)
include hcall

theorem callNative_follows {handle : Handle} {m : Method} {args : List Value} {kwargs : Keywords}
    {w w' : World} {o : Outcome} (he : callNative call handle m args kwargs w = (o, w'))
    (ho : o ≠ .overflowed) :
    ∃ i : Invocation, Follows (.apply (.native handle m) args kwargs) w [i] o w' ∧
      i.method = m ∧ i.args = args ∧ i.kwargs = kwargs ∧ i.result = o := by
  cases reach : m.isAccessible with
  | false =>
    rw [callNative_of_denied reach] at he
    have hl : HostOutcome.answer (.denied m.text) = o := by rw [← leave_answer, he]
    refine ⟨.refused m args kwargs, ⟨_, .refused handle (w.settings handle) args kwargs reach .nil,
      fun frames => .single ?_⟩, rfl, rfl, rfl, hl⟩
    change some (Callable.step ..) = _
    rw [Callable.step_of_denied reach, he, ← hl, HostOutcome.answer]
  | true =>
    rcases hr : runBody call m.body args kwargs (w.announce m args kwargs) with ⟨ended, v⟩
    rw [callNative_of_accessible reach hr] at he
    have hl : (m.take (w.settings handle) ended).answer = o := by rw [← leave_answer, he]
    have hne : ended ≠ .overflowed := by
      rintro rfl
      exact ho hl.symm
    obtain ⟨js, inside, hinside, hruns⟩ := runBody_follows hcall hr hne
    obtain ⟨i, hm, ha, hk, hh, hs⟩ := hinside.ran handle (w.settings handle) args kwargs reach hne
    refine ⟨i, ⟨_, hs, fun frames => ?_⟩, hm, ha, hk, by rw [Invocation.result, hh, hl]⟩
    have hin : Point.step ⟨.apply (.native handle m) args kwargs, frames, w⟩ = some (_, _) :=
      congrArg some (Callable.step_of_accessible reach)
    refine .step hin ((hruns _).trans (.single ?_))
    simp only [Point.step, Frame.step, he]

theorem apply_follows (c : Callable) {args : List Value} {kwargs : Keywords} {w w' : World}
    {o : Outcome} (he : c.apply call args kwargs w = (o, w')) (ho : o ≠ .overflowed) :
    ∃ is, Follows (.apply c args kwargs) w is o w' ∧ c.Heads args kwargs is o := by
  match c with
  | .native handle m =>
    obtain ⟨i, hf, hm, ha, hk, hr⟩ := callNative_follows hcall he ho
    refine ⟨[i], hf, fun handle' m' hn => ⟨i, rfl, ?_, ha, hk, hr⟩⟩
    cases hn
    exact hm
  | .bound receiver f =>
    obtain ⟨is, hf, hh⟩ := apply_follows f he ho
    exact ⟨is, .silent (fun _ => rfl) hf, hh⟩
  | .closure handle name body =>
    obtain ⟨is, hf⟩ := runBody_follows hcall he ho
    exact ⟨is, .silent (fun _ => rfl) hf, nofun⟩
termination_by structural c

end

theorem callWithin_follows (limit : Nat) : (Value.callWithin limit).Followed := by
  induction limit with
  | zero =>
    intro v args kwargs w o w' he ho
    cases he
    exact absurd rfl ho
  | succ limit ih =>
    intro v args kwargs w o w' he ho
    simp only [Value.callWithin] at he
    split at he
    · rename_i c hc
      obtain ⟨is, hf, hh⟩ := apply_follows ih c he ho
      refine ⟨is, .silent (fun _ => by simp only [Point.step, hc]) hf, fun c' hc' => ?_⟩
      cases hc.symm.trans hc'
      exact hh
    · rename_i hc
      cases he
      exact ⟨[], .silent (fun _ => by simp only [Point.step]) .done, fun c hc' => absurd hc' (hc c)⟩

end HostBridge
