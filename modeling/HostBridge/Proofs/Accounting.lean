import HostBridge.Proofs.Evaluation
import Mathlib.Algebra.BigOperators.Group.List.Lemmas
import Mathlib.Data.List.DropRight
import Mathlib.Data.UInt

/-! # What the statistics count

The counters are compared with the history of a run: at every point they are the numbers of
invocations that ended in a native with tracking since the last reset. A reset inside a body falls
between the invocation of its native and the end of its method, so that native is counted after it.
-/
namespace HostBridge

/-! ## Runs of a client -/

/-- The points that a run passes through. Its client performs any programs, one after another; a
program that panics ends, the run goes on. -/
inductive Reached (w : World) : History → Point → Prop where
  | start : Reached w [] ⟨.finish (.returned Value.none), [], w⟩
  | next {history : History} {o : Outcome} {v : World} (p : Program)
      (hr : Reached w history ⟨.finish o, [], v⟩) : Reached w history ⟨.perform p, [], v⟩
  | step {history k : History} {x y : Point} (hr : Reached w history x)
      (he : x.step = some (k, y)) : Reached w (history ++ k) y

namespace Reached
variable {w : World} {history k : History} {x y : Point}

theorem runs (hr : Reached w history x) (hxy : Runs x k y) : Reached w (history ++ k) y := by
  induction hxy generalizing history with
  | refl => simpa using hr
  | step he _ ih => rw [← List.append_assoc]; exact ih (hr.step he)

theorem statistics (hr : Reached w history x) :
    x.world.statistics = history.foldl Statistics.after w.statistics := by
  induction hr with
  | start => rfl
  | next _ _ ih => exact ih
  | step _ he ih => rw [List.foldl_append, ← ih]; exact (Point.step_tells he).statistics

end Reached

/-- The evaluator performs programs one after another; each ends so, without an overflow. -/
inductive Performs (limit : Nat) : World → List (Program × Outcome) → World → Prop where
  | nil (w : World) : Performs limit w [] w
  | cons {w v w' : World} {p : Program} {o : Outcome} {runs : List (Program × Outcome)}
      (first : p.perform (Value.callWithin limit) w = (o, v)) (ends : o ≠ .overflowed)
      (rest : Performs limit v runs w') : Performs limit w ((p, o) :: runs) w'

/-- The machine runs programs one after another; each ends so. -/
inductive Conducts : World → List (Program × Outcome) → History → World → Prop where
  | nil (w : World) : Conducts w [] [] w
  | cons {w v w' : World} {p : Program} {o : Outcome} {runs : List (Program × Outcome)}
      {k history : History} (first : Runs ⟨.perform p, [], w⟩ k ⟨.finish o, [], v⟩)
      (rest : Conducts v runs history w') : Conducts w ((p, o) :: runs) (k ++ history) w'

theorem Performs.conducts {limit : Nat} {w w' : World} {runs : List (Program × Outcome)}
    (hp : Performs limit w runs w') : ∃ history, Conducts w runs history w' := by
  induction hp with
  | nil w => exact ⟨[], .nil w⟩
  | cons first ends _ ih =>
    obtain ⟨is, k, -, hruns⟩ := perform_follows (callWithin_follows limit) _ first ends
    obtain ⟨history, hrest⟩ := ih
    exact ⟨k ++ history, .cons (hruns []) hrest⟩

theorem Reached.conducts {w v w' : World} {history k : History} {o : Outcome}
    {runs : List (Program × Outcome)} (hr : Reached w history ⟨.finish o, [], v⟩)
    (hc : Conducts v runs k w') : ∃ o', Reached w (history ++ k) ⟨.finish o', [], w'⟩ := by
  induction hc generalizing history o with
  | nil v => exact ⟨o, by rwa [List.append_nil]⟩
  | cons first _ ih =>
    rw [← List.append_assoc]
    exact ih ((hr.next _).runs first)

/-! ## What counts -/

def Happening.entry : Happening → Option (String × Ending)
  | ended settings m how => m.entry settings how
  | invoked .. | cleared => none

def Happening.clears : Happening → Bool
  | cleared => true
  | invoked .. | ended .. => false

/-- The entries that a history has made since its last reset. -/
def History.counted (history : History) : List (String × Ending) :=
  (history.rtakeWhile (!·.clears)).filterMap Happening.entry

theorem History.counted_concat_of_clears {history : History} {x : Happening}
    (hx : x.clears = true) : History.counted (history ++ [x]) = [] := by
  simp [History.counted, hx]

theorem History.counted_concat {history : History} {x : Happening} (hx : x.clears = false) :
    History.counted (history ++ [x]) = History.counted history ++ x.entry.toList := by
  cases he : x.entry <;> simp [History.counted, hx, he]

def Statistics.ofEntries (entries : List (String × Ending)) : Statistics :=
  entries.foldl (fun s entry => s.record entry.1 entry.2) .zero

theorem Statistics.ofEntries_concat (entries : List (String × Ending))
    (last : Option (String × Ending)) :
    ofEntries (entries ++ last.toList) = (ofEntries entries).note last := by
  cases last <;> simp [ofEntries, note]

theorem foldl_after_zero (history : History) :
    history.foldl Statistics.after .zero = .ofEntries (History.counted history) := by
  induction history using List.reverseRecOn with
  | nil => rfl
  | append_singleton history x ih =>
    rw [List.foldl_append, List.foldl_cons, List.foldl_nil, ih]
    cases x with
    -- A reset leaves nothing of what was counted before it.
    | cleared => rw [History.counted_concat_of_clears rfl]; rfl
    | invoked handle m args kwargs =>
      rw [History.counted_concat rfl, Statistics.ofEntries_concat]; rfl
    | ended settings m how =>
      rw [History.counted_concat rfl, Statistics.ofEntries_concat]; rfl

/-! ## The counters of recorded entries -/

/-- Whether a call that ended so is counted there. -/
def Counter.counts : Counter → Ending → Bool
  | calls, _ => true
  | denied, ending => ending = .denied
  | raised, ending => ending = .raised

theorem Statistics.load_record (s : Statistics) (method : String) (ending : Ending) (c : Counter) :
    (s.record method ending).load c = s.load c + if c.counts ending then 1 else 0 := by
  cases c <;> cases ending <;>
    simp [record, applyAll, recording, apply, load, Counter.counts]

theorem Statistics.methodCalls_record (s : Statistics) (method q : String) (ending : Ending) :
    (s.record method ending).methodCalls q = s.methodCalls q + if q = method then 1 else 0 := by
  cases ending <;> simp [record, applyAll, recording, apply, methodCalls, tally_bump]

theorem sum_map_ofNat (ns : List Nat) : (ns.map UInt64.ofNat).sum = UInt64.ofNat ns.sum := by
  induction ns with
  | nil => rfl
  | cons n rest ih => simp [ih]

namespace Statistics
variable (entries : List (String × Ending))

theorem ofEntries_append_singleton (entry : String × Ending) :
    ofEntries (entries ++ [entry]) = (ofEntries entries).record entry.1 entry.2 :=
  ofEntries_concat entries (some entry)

theorem load_ofEntries (c : Counter) :
    (ofEntries entries).load c = .ofNat (entries.countP (c.counts ·.2)) := by
  induction entries using List.reverseRecOn with
  | nil => cases c <;> rfl
  | append_singleton rest entry ih =>
    by_cases h : c.counts entry.2 <;> simp [ofEntries_append_singleton, load_record, ih, h]

theorem methodCalls_ofEntries (q : String) :
    (ofEntries entries).methodCalls q = .ofNat ((entries.map Prod.fst).count q) := by
  induction entries using List.reverseRecOn with
  | nil => rfl
  | append_singleton rest entry ih =>
    by_cases h : entry.1 = q
    · subst h
      simp [ofEntries_append_singleton, methodCalls_record, ih]
    · have hne : q ≠ entry.1 := fun he => h he.symm
      simp [ofEntries_append_singleton, methodCalls_record, ih, h, hne]

end Statistics

/-- The statistics count just these entries: a reader is given their number and the numbers of those
that were denied and that raised, and for each method the number of its own. -/
structure Accounts (entries : List (String × Ending)) (s : Statistics) : Prop where
  snapshot : s.snapshot =
    ⟨.ofNat entries.length, .ofNat (entries.countP (·.2 = .denied)),
      .ofNat (entries.countP (·.2 = .raised))⟩
  methodCalls : ∀ q, s.methodCalls q = .ofNat (entries.countP (·.1 = q))
  total : ((entries.map Prod.fst).dedup.map s.methodCalls).sum = s.snapshot.calls
  /-- No more calls failed than were made, as long as no counter has wrapped. -/
  failures : entries.length < 2 ^ 64 →
    s.snapshot.denied.toNat + s.snapshot.raised.toNat ≤ s.snapshot.calls.toNat

theorem countP_denied_add_countP_raised_le (entries : List (String × Ending)) :
    entries.countP (·.2 = .denied) + entries.countP (·.2 = .raised) ≤ entries.length := by
  induction entries with
  | nil => simp
  | cons entry rest ih =>
    rcases entry with ⟨q, ending⟩
    cases ending <;> simp <;> omega

theorem accounts_ofEntries (entries : List (String × Ending)) :
    Accounts entries (.ofEntries entries) := by
  have hsnapshot : (Statistics.ofEntries entries).snapshot = ⟨.ofNat entries.length,
      .ofNat (entries.countP (·.2 = .denied)), .ofNat (entries.countP (·.2 = .raised))⟩ := by
    simp [Statistics.snapshot, Statistics.loading, Statistics.load_ofEntries, Statistics.ofLoads,
      Counter.counts]
  refine ⟨hsnapshot, fun q => ?_, ?_, fun hlt => ?_⟩
  · rw [Statistics.methodCalls_ofEntries, List.count, List.countP_map]
    congr 2
  · have hmap : (entries.map Prod.fst).dedup.map (Statistics.ofEntries entries).methodCalls =
        ((entries.map Prod.fst).dedup.map fun q => (entries.map Prod.fst).count q).map
          UInt64.ofNat := by
      rw [List.map_map]
      exact List.map_congr_left fun q _ => Statistics.methodCalls_ofEntries entries q
    rw [hmap, sum_map_ofNat, List.sum_map_count_dedup_eq_length, List.length_map, hsnapshot]
  · have hle := countP_denied_add_countP_raised_le entries
    rw [hsnapshot]
    simp only [UInt64.toNat_ofNat']
    rw [Nat.mod_eq_of_lt (by omega), Nat.mod_eq_of_lt (by omega), Nat.mod_eq_of_lt (by omega)]
    exact hle

/-! ## The account of a run -/

/-- At every point of a run from reset statistics, also inside bodies, the statistics count the
invocations that have ended since the last reset, in natives with tracking and with an answer: one in
progress has made no entry yet, one that a panic leaves uncaught makes none. Programs that the
evaluator performs are such a run: the machine runs the same programs to the same outcomes and the
same world, whose statistics count what this history says. -/
theorem statistics_account (w : World) :
    (∀ history x, Reached w.resetStatistics history x →
      Accounts (History.counted history) x.world.statistics) ∧
    ∀ limit runs w', Performs limit w.resetStatistics runs w' →
      ∃ history, Conducts w.resetStatistics runs history w' ∧
        (∃ o, Reached w.resetStatistics history ⟨.finish o, [], w'⟩) ∧
        Accounts (History.counted history) w'.statistics := by
  have haccounts : ∀ history x, Reached w.resetStatistics history x →
      Accounts (History.counted history) x.world.statistics := by
    intro history x hr
    have hs : x.world.statistics = history.foldl Statistics.after .zero := hr.statistics
    rw [hs, foldl_after_zero]
    exact accounts_ofEntries _
  refine ⟨haccounts, fun limit runs w' hp => ?_⟩
  obtain ⟨history, hc⟩ := hp.conducts
  obtain ⟨o, hr⟩ := Reached.start.conducts hc
  exact ⟨history, hc, ⟨o, hr⟩, haccounts history _ hr⟩

/-! A native whose body resets the statistics and then raises is counted after its own reset. -/

def clearing : Method := ⟨"demo.Stats", "clear", .isPublic, false, true, 0⟩

def clearingWorld : World :=
  { World.initial with
    constructions := #[.native clearing {}]
    bodies := #[fun _ _ => .reset (.raise (.valueError "bad"))] }

def clearingCall : Program :=
  .call (Value.ofCallable (.native 0 clearing)) [] .empty .finish

def clearedWorld : World :=
  (clearingCall.perform (Value.callWithin 1) clearingWorld.resetStatistics).2

theorem statistics_account_clearing :
    (∃ history x, Reached clearingWorld.resetStatistics history x ∧ x.frames = [] ∧
      History.counted history = [("demo.Stats.clear", .raised)] ∧
      Accounts [("demo.Stats.clear", .raised)] x.world.statistics) ∧
    ∃ history, Conducts clearingWorld.resetStatistics
        [(clearingCall, .raised (.targetRaised (.valueError "bad")))] history clearedWorld ∧
      (∃ o, Reached clearingWorld.resetStatistics history ⟨.finish o, [], clearedWorld⟩) ∧
      Accounts (History.counted history) clearedWorld.statistics := by
  have hr := ((((((((Reached.start (w := clearingWorld.resetStatistics).next clearingCall).step rfl).step
    rfl).step rfl).step rfl).step rfl).step rfl).step rfl).step rfl
  refine ⟨⟨_, _, hr, rfl, rfl, (statistics_account clearingWorld).1 _ _ hr⟩, ?_⟩
  exact (statistics_account clearingWorld).2 1 _ _ (.cons rfl (by simp) (.nil clearedWorld))

end HostBridge
