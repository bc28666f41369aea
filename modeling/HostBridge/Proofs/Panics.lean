import HostBridge.Proofs.Layers
import Mathlib.Logic.Function.Iterate

/-! # Panics and exceptions on their way up

An exception comes up through layers wrapped once by each native. A panic comes up as it is until a
native catches it; from there on it is an exception like any other, about the native that caught it.
-/
namespace HostBridge
open Layer

namespace Layer

def catches : Layer → Bool
  | native settings _ => settings.catchPanics
  | bound _ | closure _ => false

def tracked? : Layer → Option String
  | native settings m => if settings.trackStatistics then some m.qualifiedName else none
  | bound _ | closure _ => none

/-- The statistics after the layers have each recorded a raised call, the innermost first. -/
def recordRaised (layers : List Layer) (s : Statistics) : Statistics :=
  (layers.filterMap tracked?).foldr (fun q s => s.record q .raised) s

/-! ## Exceptions -/

theorem ascendAll_raised (layers : List Layer) (e : Exception) (w : World) :
    (ascendAll layers (.raised e, w)).1 = .raised (Exception.targetRaised^[natives layers] e) := by
  induction layers with
  | nil => rfl
  | cons l rest ih =>
    cases l with
    | bound | closure => exact ih
    | native settings m =>
      rw [ascendAll_native, leave_answer, ih, natives_native, Function.iterate_succ_apply']
      rfl

theorem ascendAll_raised_statistics (layers : List Layer) (e : Exception) (w : World) :
    (ascendAll layers (.raised e, w)).2.statistics = recordRaised layers w.statistics := by
  induction layers with
  | nil => rfl
  | cons l rest ih =>
    cases l with
    | bound | closure => exact ih
    | native settings m =>
      rw [ascendAll_native, leave_statistics, ih, ascendAll_raised]
      cases ht : settings.trackStatistics <;>
        simp [recordRaised, tracked?, Method.take, Method.entry, HostOutcome.ending?,
          Statistics.note, ht]

/-! ## Panics -/

theorem ascendAll_panicked {layers : List Layer} (hc : ∀ l ∈ layers, l.catches = false) (p : Panic)
    (w : World) :
    (ascendAll layers (.panicked p, w)).1 = .panicked p ∧
      (ascendAll layers (.panicked p, w)).2.statistics = w.statistics := by
  induction layers with
  | nil => exact ⟨rfl, rfl⟩
  | cons l rest ih =>
    obtain ⟨ho, hs⟩ := ih fun l hl => hc l (List.mem_cons_of_mem _ hl)
    cases l with
    | bound | closure => exact ⟨ho, hs⟩
    | native settings m =>
      have hl : settings.catchPanics = false := hc _ List.mem_cons_self
      have ht : m.take settings (.panicked p) = .panicked p := by simp [Method.take, hl]
      rw [ascendAll_native, ho, ht, leave_answer, leave_statistics, hs]
      exact ⟨rfl, by simp [Method.entry, HostOutcome.ending?, Statistics.note]⟩

theorem exists_innermost_catching {layers : List Layer} (h : ∃ l ∈ layers, l.catches = true) :
    ∃ outer settings m below, layers = outer ++ .native settings m :: below ∧
      settings.catchPanics = true ∧ ∀ l ∈ below, l.catches = false := by
  induction layers with
  | nil => simp at h
  | cons l rest ih =>
    by_cases hrest : ∃ l ∈ rest, l.catches = true
    · obtain ⟨outer, settings, m, below, rfl, hc, hb⟩ := ih hrest
      exact ⟨l :: outer, settings, m, below, rfl, hc, hb⟩
    · have hb : ∀ l ∈ rest, l.catches = false := by simpa using hrest
      have hl : l.catches = true := by
        obtain ⟨l', hmem, hl'⟩ := h
        rcases List.mem_cons.mp hmem with rfl | hmem
        · exact hl'
        · exact absurd hl' (by simp [hb l' hmem])
      cases l with
      | native settings m => exact ⟨[], settings, m, rest, rfl, hl, hb⟩
      | bound | closure => cases hl

end Layer

/-- The message about a panic that a native of this name has caught: the text of the panic, also an
empty one, or that the native panicked. -/
def Panic.message (q : String) : Panic → String
  | text message => message
  | other _ => q ++ " panicked"

theorem Method.panicException_eq (m : Method) (p : Panic) :
    m.panicException p = .raised .systemError (p.message m.qualifiedName) := by
  cases p <;> rfl

theorem ascend_caught {settings : NativeSettings} {m : Method} {p : Panic} {w : World}
    (hc : settings.catchPanics = true) :
    ((Layer.native settings m).ascend (.panicked p, w)).1 =
        .raised (.targetRaised (.raised .systemError (p.message m.qualifiedName))) ∧
      ((Layer.native settings m).ascend (.panicked p, w)).2.statistics =
        recordRaised [.native settings m] w.statistics := by
  have ht : m.take settings (.panicked p) =
      .raised (.raised .systemError (p.message m.qualifiedName)) := by
    simp [Method.take, hc, Method.panicException_eq]
  rw [ascend, ht, leave_answer, leave_statistics]
  refine ⟨rfl, ?_⟩
  cases hs : settings.trackStatistics <;>
    simp [recordRaised, tracked?, Method.entry, HostOutcome.ending?, Statistics.note, hs]

/-- Caught by the innermost native that catches it, a panic is an exception for the layers outside. -/
theorem ascendAll_caught {below : List Layer} {settings : NativeSettings} (m : Method)
    (outer : List Layer) (p : Panic) (w : World) (hc : settings.catchPanics = true)
    (hb : ∀ l ∈ below, l.catches = false) :
    ∃ caught, ascendAll (outer ++ .native settings m :: below) (.panicked p, w) =
        ascendAll outer (.raised (.targetRaised
          (.raised .systemError (p.message m.qualifiedName))), caught) ∧
      caught.statistics = recordRaised [.native settings m] w.statistics := by
  obtain ⟨ho, hs⟩ := ascendAll_panicked hb p w
  have hbelow : ascendAll below (.panicked p, w) =
      (.panicked p, (ascendAll below (.panicked p, w)).2) := Prod.ext ho rfl
  obtain ⟨hraised, hcount⟩ := ascend_caught (m := m) (p := p)
    (w := (ascendAll below (.panicked p, w)).2) hc
  refine ⟨_, ?_, hcount.trans (by rw [hs])⟩
  rw [ascendAll_append, ← hraised]
  exact congrArg (ascendAll outer) (congrArg (Layer.native settings m).ascend hbelow)

/-- A panic of the inner body leaves the outermost layer as it is just when no native catches panics,
and then nothing is counted. Otherwise the innermost native that catches panics makes it a system
error; for the layers outside this is an exception that the native has raised, wrapped once more by
each native. That native and those outside it count one raised call each, those inside none. -/
theorem panic_through_layers {inner : BodyRun} {layers : List Layer} {v : Value} {c : Callable}
    {args : List Value} {kwargs : Keywords} {w w' : World} {p : Panic} {spare : Nat}
    (hv : v.payload = .callable c) (hd : Descends inner layers c args kwargs w)
    (hp : inner.run (Value.callWithin spare) = (.panicked p, w')) :
    let ended := v.callWithin (depth layers + spare) args kwargs w
    (∀ q, ended.1 = .panicked q ↔ q = p ∧ ∀ l ∈ layers, l.catches = false) ∧
    ((∀ l ∈ layers, l.catches = false) → ended.2.statistics = w'.statistics) ∧
    ∀ outer settings m below, layers = outer ++ .native settings m :: below →
      settings.catchPanics = true → (∀ l ∈ below, l.catches = false) →
      let error := Exception.targetRaised (.raised .systemError (p.message m.qualifiedName))
      (∃ caught, ended = ascendAll outer (.raised error, caught)) ∧
      ended.1 = .raised (Exception.targetRaised^[natives outer] error) ∧
      ended.2.statistics = recordRaised (outer ++ [.native settings m]) w'.statistics := by
  intro ended
  have he : ended = ascendAll layers (.panicked p, w') := hd.call_eq hv hp rfl
  refine ⟨fun q => ⟨fun hq => ?_, ?_⟩, fun hc => ?_, fun outer settings m below hl hc hb => ?_⟩
  · -- A panic that comes out was never caught: once caught, it comes out as an exception.
    have hnone : ∀ l ∈ layers, l.catches = false := by
      by_contra hsome
      obtain ⟨outer, settings, m, below, hl, hc, hb⟩ :=
        @exists_innermost_catching layers (by simpa using hsome)
      obtain ⟨caught, hr, -⟩ := ascendAll_caught m outer p w' hc hb
      rw [he, hl, hr, ascendAll_raised] at hq
      cases hq
    rw [he, (ascendAll_panicked hnone p w').1] at hq
    cases hq
    exact ⟨rfl, hnone⟩
  · rintro ⟨rfl, hc⟩
    rw [he, (ascendAll_panicked hc _ w').1]
  · rw [he, (ascendAll_panicked hc p w').2]
  · obtain ⟨caught, hr, hs⟩ := ascendAll_caught m outer p w' hc hb
    rw [← hl, ← he] at hr
    refine ⟨⟨caught, hr⟩, by rw [hr, ascendAll_raised], ?_⟩
    rw [hr, ascendAll_raised_statistics, hs]
    simp only [recordRaised, List.filterMap_append, List.foldr_append]

theorem panic_through_nested :
    (nestedCall fun _ _ => .panic (.other 7)).1 = .raised (.targetRaised (.targetRaised
      (.raised .systemError "demo.Host.shield panicked"))) ∧
    (nestedCall fun _ _ => .panic (.other 7)).2.statistics =
      (Statistics.zero.record "demo.Host.shield" .raised).record "demo.Host.front" .raised := by
  have hp : (nestedRun fun _ _ => .panic (.other 7)).run (Value.callWithin 0) =
      (.panicked (.other 7), _) := rfl
  have h := panic_through_layers (v := Value.ofCallable _) rfl (descends_nested _) hp
  have hcaught := h.2.2 [.bound Value.none, .native { catchPanics := false } fronting] {} shielding
    [.closure "through", .native { catchPanics := false } bursting] rfl rfl (by decide)
  exact ⟨hcaught.2.1, hcaught.2.2⟩

end HostBridge
