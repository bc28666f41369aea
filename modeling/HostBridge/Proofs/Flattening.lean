import HostBridge.Proofs.Panics

/-! # Flattened messages

Each native that an exception leaves takes the text of the exception for its own message, and keeps
the exception as its cause. So the message of the outermost exception is a flat text, and its causes
lead back to the exception that was raised first.
-/
namespace HostBridge
open Layer

namespace Exception

def causeAfter : Nat → Exception → Option Exception
  | 0, e => some e
  | n + 1, e => e.cause.bind (causeAfter n)

/-- An exception is never shown as nothing: at least its kind is named. -/
theorem text_ne_empty (e : Exception) : e.text ≠ "" := by
  have hname : e.kind.name ≠ "" := by cases e.kind <;> simp [ExceptionKind.name]
  unfold text line
  split
  · exact hname
  · simp

theorem message_targetRaised (e : Exception) : (targetRaised e).message = e.text := rfl

theorem text_targetRaised (e : Exception) :
    (targetRaised e).text = "RuntimeError: " ++ e.text := by
  have hne : e.text.isEmpty = false := by simpa using e.text_ne_empty
  change line .runtimeError e.text = _
  rw [line, if_neg (by simp [hne])]
  rfl

theorem text_iterate (n : Nat) (e : Exception) :
    (targetRaised^[n] e).text = String.join (List.replicate n "RuntimeError: ") ++ e.text := by
  induction n with
  | zero => simp
  | succ n ih =>
    rw [Function.iterate_succ_apply', text_targetRaised, ih, List.replicate_succ, String.join_cons,
      String.append_assoc]

theorem causeAfter_iterate (k n : Nat) (e : Exception) :
    causeAfter k (targetRaised^[k + n] e) = some (targetRaised^[n] e) := by
  induction k with
  | zero => rw [Nat.zero_add]; rfl
  | succ k ih =>
    rw [Nat.add_right_comm, Function.iterate_succ_apply']
    exact ih

theorem length_sources_iterate (n : Nat) (e : Exception) :
    (targetRaised^[n] e).sources.length = n + e.sources.length := by
  induction n with
  | zero => simp
  | succ n ih =>
    rw [Function.iterate_succ_apply', sources, List.length_cons, ih]
    omega

end Exception

theorem ascendAll_filter_isNative (layers : List Layer) (ended : Outcome × World) :
    ascendAll (layers.filter isNative) ended = ascendAll layers ended := by
  induction layers with
  | nil => rfl
  | cons l rest ih =>
    cases l with
    | bound | closure => exact ih
    | native settings m =>
      rw [List.filter_cons_of_pos rfl, ascendAll_native, ascendAll_native, ih]

/-- An exception that comes up through natives reaches the caller as a runtime error with one flat
message. Following its causes, one for each native, gives runtime errors whose messages are the texts
of their causes, and in the end the exception that was raised, with all it keeps. Layers that are no
natives change nothing. -/
theorem exception_through_layers {inner : BodyRun} {layers : List Layer} {v : Value} {c : Callable}
    {args : List Value} {kwargs : Keywords} {w w' : World} {e : Exception} {spare : Nat}
    (hv : v.payload = .callable c) (hd : Descends inner layers c args kwargs w)
    (hr : inner.run (Value.callWithin spare) = (.raised e, w')) (hn : 0 < natives layers) :
    let ended := v.callWithin (depth layers + spare) args kwargs w
    ∃ x, ended.1 = .raised x ∧ x.kind = .runtimeError ∧
      x.message = String.join (List.replicate (natives layers - 1) "RuntimeError: ") ++ e.text ∧
      x.causeAfter (natives layers) = some e ∧
      (∀ k < natives layers, ∃ y z, x.causeAfter k = some y ∧ y.kind = .runtimeError ∧
        y.cause = some z ∧ y.message = z.text) ∧
      x.sources.length = natives layers + e.sources.length ∧
      ended = ascendAll (layers.filter isNative) (.raised e, w') := by
  intro ended
  have he : ended = ascendAll layers (.raised e, w') := hd.call_eq hv hr rfl
  obtain ⟨n, hsucc⟩ : ∃ n, natives layers = n + 1 := ⟨natives layers - 1, by omega⟩
  refine ⟨Exception.targetRaised^[natives layers] e, by rw [he, ascendAll_raised], ?_, ?_, ?_, ?_,
    Exception.length_sources_iterate _ e, by rw [he, ascendAll_filter_isNative]⟩
  · rw [hsucc, Function.iterate_succ_apply']
    rfl
  · rw [hsucc, Function.iterate_succ_apply', Exception.message_targetRaised,
      Exception.text_iterate, Nat.add_sub_cancel]
  · simpa using Exception.causeAfter_iterate (natives layers) 0 e
  · intro k hk
    obtain ⟨j, hj⟩ : ∃ j, natives layers = k + (j + 1) := ⟨natives layers - k - 1, by omega⟩
    refine ⟨Exception.targetRaised^[j + 1] e, Exception.targetRaised^[j] e, ?_, ?_⟩
    · rw [hj, Exception.causeAfter_iterate]
    · rw [Function.iterate_succ_apply']
      exact ⟨rfl, rfl, rfl⟩

theorem exception_through_nested :
    ∃ x, (nestedCall fun _ _ => .raise (.targetRaised (.raised .keyError ""))).1 = .raised x ∧
      x.message = "RuntimeError: RuntimeError: RuntimeError: KeyError" ∧
      x.causeAfter 3 = some (.targetRaised (.raised .keyError "")) ∧ x.sources.length = 4 := by
  have hr : (nestedRun fun _ _ => .raise (.targetRaised (.raised .keyError ""))).run
      (Value.callWithin 0) = (.raised (.targetRaised (.raised .keyError "")), _) := rfl
  obtain ⟨x, hx, -, hm, hc, -, hs, -⟩ := exception_through_layers (v := Value.ofCallable _) rfl
    (descends_nested _) hr (by decide)
  exact ⟨x, hx, hm, hc, hs⟩

end HostBridge
