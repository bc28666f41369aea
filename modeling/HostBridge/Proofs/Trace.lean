import HostBridge.Proofs.Evaluation

/-! # The events of a call

The events that a call adds are the blocks of its invocations: one block for each native that the
machine invokes on the way, nested as the natives are. Every span that a block opens it also closes,
whether its native answers or a panic passes through it.
-/
namespace HostBridge
open Invocation (eventsOf how outcomeEvent result)

def openSpans (spans : List String) : Event → List String
  | .entered method => method :: spans
  | .exited => spans.tail
  | .called .. | .returned _ | .raised .. | .denied _ | .completed _ | .starting | .stopping
  | .ready | .skipped .. => spans

theorem foldl_openSpans_outcomeEvent (q : String) (o : Outcome) (spans : List String) :
    (outcomeEvent q o).foldl openSpans spans = spans := by
  unfold outcomeEvent
  split <;> rfl

/-- What stands between the opening and the closing of a block decides what the block does to the
open spans. -/
theorem foldl_openSpans_block (m : Method) (args : List Value) (kwargs : Keywords)
    {inside : List Event} {spans : List String}
    (hi : inside.foldl openSpans (m.qualifiedName :: spans) = m.qualifiedName :: spans) :
    (m.opening args kwargs ++ inside ++ m.closing).foldl openSpans spans = spans := by
  simp only [Method.opening, Method.closing, List.foldl_append, List.foldl_cons, List.foldl_nil,
    openSpans, hi, List.tail_cons]

mutual

theorem foldl_openSpans_events (i : Invocation) (spans : List String) :
    i.events.foldl openSpans spans = spans := by
  match i with
  | .refused m args kwargs =>
    exact foldl_openSpans_block m args kwargs (foldl_openSpans_outcomeEvent _ _ _)
  | .answered m args kwargs nested answer =>
    rw [Invocation.events, List.append_assoc (m.opening args kwargs)]
    refine foldl_openSpans_block m args kwargs ?_
    rw [List.foldl_append, foldl_openSpans_eventsOf nested, foldl_openSpans_outcomeEvent]
  | .abandoned m args kwargs nested p =>
    exact foldl_openSpans_block m args kwargs (foldl_openSpans_eventsOf nested _)

theorem foldl_openSpans_eventsOf (is : List Invocation) (spans : List String) :
    (eventsOf is).foldl openSpans spans = spans := by
  match is with
  | [] => rfl
  | i :: rest =>
    rw [eventsOf, List.foldl_append, foldl_openSpans_events i, foldl_openSpans_eventsOf rest]

end

/-- What an invocation adds to the events: its opening, the blocks of the natives that its body
invoked, the outcome, its closing. Its result decides what is told of the outcome. -/
structure Invocation.IsBlock (i : Invocation) : Prop where
  events : i.events = i.method.opening i.args i.kwargs ++ eventsOf i.nested ++
    outcomeEvent i.method.qualifiedName i.result ++ i.method.closing
  untold : outcomeEvent i.method.qualifiedName i.result = [] ↔ ∃ p, i.result = .panicked p
  denied : ∀ method, i.result = .raised (.illegalAccess method) →
    method = i.method.text ∧ i.nested = []

theorem Invocation.isBlock (i : Invocation) : i.IsBlock := by
  cases i with
  | refused m args kwargs =>
    refine ⟨by simp [Invocation.events, Invocation.nested, eventsOf, Invocation.args, Invocation.kwargs,
      Invocation.method], by simp [result, how, HostOutcome.answer, outcomeEvent], ?_⟩
    rintro method h
    cases h
    exact ⟨rfl, rfl⟩
  | answered m args kwargs inside answer =>
    refine ⟨rfl, ?_, ?_⟩
    · cases answer <;> simp [result, how, HostOutcome.answer, outcomeEvent]
    · rintro method h
      cases answer <;> cases h
  | abandoned m args kwargs inside p =>
    refine ⟨by simp [Invocation.events, Invocation.nested, Invocation.args, Invocation.kwargs,
      Invocation.method, result, how, HostOutcome.answer, outcomeEvent], ?_, ?_⟩
    · simp [result, how, HostOutcome.answer, outcomeEvent]
    · rintro method h
      cases h

/-- A call that returns, raises or panics adds the blocks of the natives that it invokes, in the order
in which it invokes them, and leaves no span open. A call of a native, also through bound methods, is
one block, whose result is the outcome of the call. -/
theorem call_adds_blocks {limit : Nat} {v : Value} {args : List Value} {kwargs : Keywords}
    {w w' : World} {o : Outcome} (he : v.callWithin limit args kwargs w = (o, w'))
    (ho : o ≠ .overflowed) :
    ∃ history is, Runs ⟨.call v args kwargs, [], w⟩ history ⟨.finish o, [], w'⟩ ∧
      Spans history is ∧
      w'.events.toList = w.events.toList ++ eventsOf is ∧
      (∀ i : Invocation, i.IsBlock) ∧
      (∀ c, v.payload = .callable c → c.Heads args kwargs is o) ∧
      ∀ spans, (eventsOf is).foldl openSpans spans = spans := by
  obtain ⟨is, ⟨history, hs, hr⟩, hh⟩ := callWithin_follows limit he ho
  refine ⟨history, is, hr [], hs, ?_, Invocation.isBlock, hh, foldl_openSpans_eventsOf is⟩
  rw [← hs.events]
  exact (hr []).tells.events

/-! A native that catches the panic of another native: the block inside has no outcome. -/

def panicking : Method := ⟨"demo.Host", "explode", .isPublic, false, true, 0⟩

def catching : Method := ⟨"demo.Host", "guard", .isPublic, false, true, 1⟩

def catchingWorld : World :=
  { World.initial with
    constructions := #[.native panicking { catchPanics := false }, .native catching {}]
    bodies := #[fun _ _ => .panic (.text "boom"),
      fun args kwargs => .call (Value.ofCallable (.native 0 panicking)) args kwargs .finish] }

def catchingCall : Outcome × World :=
  (Value.ofCallable (.native 1 catching)).callWithin 2 [Value.none] .empty catchingWorld

theorem call_adds_blocks_catching :
    (∃ history is,
      Runs ⟨.call (Value.ofCallable (.native 1 catching)) [Value.none] .empty, [], catchingWorld⟩
        history ⟨.finish catchingCall.1, [], catchingCall.2⟩ ∧
      Spans history is ∧ catchingCall.2.events.toList = eventsOf is ∧
      ∃ i : Invocation, is = [i] ∧ i.method = catching ∧ i.result = catchingCall.1) ∧
    catchingCall.2.events.toList =
      [.entered "demo.Host.guard", .called "demo.Host.guard" 1 0, .entered "demo.Host.explode",
        .called "demo.Host.explode" 1 0, .completed "demo.Host.explode", .exited,
        .raised "demo.Host.guard" "SystemError: boom", .completed "demo.Host.guard", .exited] := by
  have he : (Value.ofCallable (.native 1 catching)).callWithin 2 [Value.none] .empty catchingWorld =
      (.raised (.targetRaised (.raised .systemError "boom")), catchingCall.2) := rfl
  obtain ⟨history, is, hr, hs, hevents, -, hh, -⟩ := call_adds_blocks he (by simp)
  obtain ⟨i, hi, hm, -, -, hresult⟩ := hh _ rfl _ _ rfl
  exact ⟨⟨history, is, hr, hs, hevents, i, hi, hm, hresult⟩, rfl⟩

end HostBridge
