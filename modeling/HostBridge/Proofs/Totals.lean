import HostBridge.Proofs.Accounting
import HostBridge.Proofs.Interleaving

/-! # No update is lost

Whatever threads record at the same time, in the end every counter has grown by just the calls that
it counts. A counter sees only how often it was added to, and that does not depend on the order.
-/
namespace HostBridge

/-! ## What a reader sees of a counter -/

/-- One number that the statistics show. -/
inductive Gauge where
  | counter (c : Counter)
  | method (q : String)

namespace Gauge

def read : Gauge → Statistics → UInt64
  | counter c, s => s.load c
  | method q, s => s.methodCalls q

/-- Whether a step adds one to this number. -/
def counts : Gauge → Action → Bool
  | counter c, a => a = .update c.counting
  | method q, .update (.countMethod name) => q = name
  | method _, _ => false

def countsEntry : Gauge → String × Ending → Bool
  | counter c, entry => c.counts entry.2
  | method q, entry => entry.1 = q

end Gauge

def Action.clears : Action → Bool
  | update .clearCalls | update .clearDenied | update .clearRaised | update .clearMethods => true
  | _ => false

def Operation.ofEntry (entry : String × Ending) : Operation := .record entry.1 entry.2

namespace Gauge

theorem read_apply (g : Gauge) {a : Action} (hc : a.clears = false) (s : Statistics) :
    g.read (a.apply s) = g.read s + if g.counts a then 1 else 0 := by
  cases g with
  | counter c =>
    have hne : a ≠ .update c.clearing := by
      rintro rfl
      cases c <;> cases hc
    have hload := c.load_apply s a
    rw [if_neg hne] at hload
    by_cases hcount : a = .update c.counting
    · simpa [read, counts, hcount] using hload
    · simpa [read, counts, hcount] using hload
  | method q =>
    cases a with
    | load c => simp [Action.apply, counts]
    | update u =>
      cases u with
      | countMethod name =>
        simp [Action.apply, Statistics.apply, read, Statistics.methodCalls, counts, tally_bump]
      | countCall | countDenied | countRaised => exact (UInt64.add_zero _).symm
      | clearCalls | clearDenied | clearRaised | clearMethods => cases hc

/-- As long as nothing is cleared, a number grows by the steps that add to it. -/
theorem read_foldl (g : Gauge) {done : List Action} (hc : ∀ a ∈ done, a.clears = false)
    (s : Statistics) :
    g.read (done.foldl (fun s a => a.apply s) s) = g.read s + .ofNat (done.countP g.counts) := by
  induction done generalizing s with
  | nil => simp
  | cons a rest ih =>
    obtain ⟨ha, hrest⟩ := List.forall_mem_cons.mp hc
    rw [List.foldl_cons, ih hrest, g.read_apply ha, List.countP_cons, UInt64.add_assoc]
    cases g.counts a <;> simp [UInt64.add_comm]

theorem countP_actions (g : Gauge) (entry : String × Ending) :
    (Operation.ofEntry entry).actions.countP g.counts = if g.countsEntry entry then 1 else 0 := by
  obtain ⟨q, ending⟩ := entry
  cases g with
  | counter c => cases c <;> cases ending <;> rfl
  | method name =>
    have hactions : (Operation.ofEntry (q, ending)).actions.countP (method name).counts =
        if name = q then 1 else 0 := by
      cases ending <;> simp [Operation.ofEntry, Operation.actions, Statistics.recording, counts]
    simpa [countsEntry, eq_comm] using hactions

theorem countP_flatMap_actions (g : Gauge) (entries : List (String × Ending)) :
    (entries.flatMap fun entry => (Operation.ofEntry entry).actions).countP g.counts =
      entries.countP g.countsEntry := by
  induction entries with
  | nil => rfl
  | cons entry rest ih =>
    rw [List.flatMap_cons, List.countP_append, ih, g.countP_actions, List.countP_cons, Nat.add_comm]

end Gauge

theorem clears_ofEntry {entry : String × Ending} {a : Action}
    (ha : a ∈ (Operation.ofEntry entry).actions) : a.clears = false := by
  obtain ⟨q, ending⟩ := entry
  cases ending <;> simp [Operation.ofEntry, Operation.actions, Statistics.recording] at ha <;>
    rcases ha with rfl | rfl | rfl <;> rfl

theorem record_eq_foldl (s : Statistics) (entry : String × Ending) :
    s.record entry.1 entry.2 =
      (Operation.ofEntry entry).actions.foldl (fun s a => a.apply s) s := by
  obtain ⟨q, ending⟩ := entry
  cases ending <;> rfl

/-- Recording one call after another. -/
def Statistics.recordAll (s : Statistics) (entries : List (String × Ending)) : Statistics :=
  entries.foldl (fun s entry => s.record entry.1 entry.2) s

theorem Gauge.read_recordAll (g : Gauge) (s : Statistics) (entries : List (String × Ending)) :
    g.read (s.recordAll entries) = g.read s + .ofNat (entries.countP g.countsEntry) := by
  induction entries generalizing s with
  | nil => simp [Statistics.recordAll]
  | cons entry rest ih =>
    have hfirst : g.read (s.record entry.1 entry.2) =
        g.read s + .ofNat (if g.countsEntry entry then 1 else 0) := by
      rw [record_eq_foldl, g.read_foldl fun a ha => clears_ofEntry ha, g.countP_actions]
    have hrest := ih (s.record entry.1 entry.2)
    rw [hfirst] at hrest
    rw [List.countP_cons, Nat.add_comm, UInt64.ofNat_add, ← UInt64.add_assoc]
    exact hrest

/-! ## Threads that record -/

/-- Each thread is about to record its calls. -/
def System.recording (before : Statistics) (programs : List (List (String × Ending))) : System :=
  .start before (programs.map (·.map .ofEntry))

section
variable (before : Statistics) (programs : List (List (String × Ending))) (schedule : List Nat)

theorem remaining_recording :
    (System.recording before programs).remaining =
      programs.flatten.flatMap fun entry => (Operation.ofEntry entry).actions := by
  rw [System.recording, System.remaining_start, ← List.map_flatten, List.flatMap_map]

/-- At any moment a number is short of its total by just the steps that are still to come, those of
half finished recordings included. -/
theorem read_add_remaining (g : Gauge) :
    let s := ((System.recording before programs).follow schedule).2
    g.read s.statistics + .ofNat (s.remaining.countP g.counts) =
      g.read before + .ofNat (programs.flatten.countP g.countsEntry) := by
  intro s
  have hperm := (System.recording before programs).follow_remaining schedule
  rw [remaining_recording] at hperm
  have hclears : ∀ a ∈ ((System.recording before programs).follow schedule).1, a.clears = false := by
    intro a ha
    obtain ⟨entry, -, ha⟩ := List.mem_flatMap.mp (hperm.subset (List.mem_append_left _ ha))
    exact clears_ofEntry ha
  have hcount := hperm.countP_eq g.counts
  rw [List.countP_append, g.countP_flatMap_actions] at hcount
  rw [System.follow_statistics, g.read_foldl hclears, ← hcount, UInt64.ofNat_add, UInt64.add_assoc]
  rfl

end

/-- Every counter has grown by the calls that it counts. -/
structure Totals (before : Statistics) (entries : List (String × Ending)) (after : Statistics) :
    Prop where
  calls : after.calls = before.calls + .ofNat entries.length
  denied : after.denied = before.denied + .ofNat (entries.countP (·.2 = .denied))
  raised : after.raised = before.raised + .ofNat (entries.countP (·.2 = .raised))
  methodCalls : ∀ q, after.methodCalls q = before.methodCalls q + .ofNat (entries.countP (·.1 = q))

theorem totals_of_read {before after : Statistics} {entries : List (String × Ending)}
    (h : ∀ g : Gauge, g.read after = g.read before + .ofNat (entries.countP g.countsEntry)) :
    Totals before entries after where
  calls := by
    have hall : (Gauge.counter .calls).countsEntry = fun _ => true := rfl
    have hcalls := h (.counter .calls)
    rwa [hall, List.countP_true] at hcalls
  denied := h (.counter .denied)
  raised := h (.counter .raised)
  methodCalls := fun q => h (.method q)

/-- Threads that record calls, each its own and in its own order, lose no update, whichever way their
steps are interleaved: when all are done, every counter has grown by the calls of all threads that it
counts. So the statistics are those of recording the calls one after another, in any order. -/
theorem no_update_is_lost (before : Statistics) (programs : List (List (String × Ending)))
    (schedule : List Nat)
    (hdone : ∀ t ∈ ((System.recording before programs).follow schedule).2.threads, t.IsDone) :
    let after := ((System.recording before programs).follow schedule).2.statistics
    Totals before programs.flatten after ∧
    ∀ order : List (String × Ending), order.Perm programs.flatten →
      after.snapshot = (before.recordAll order).snapshot ∧
      ∀ q, after.methodCalls q = (before.recordAll order).methodCalls q := by
  intro after
  have hread : ∀ g : Gauge,
      g.read after = g.read before + .ofNat (programs.flatten.countP g.countsEntry) := by
    intro g
    have h := read_add_remaining before programs schedule g
    simpa [System.remaining_of_done hdone] using h
  refine ⟨totals_of_read hread, fun order horder => ?_⟩
  have hsame : ∀ g : Gauge, g.read after = g.read (before.recordAll order) := by
    intro g
    rw [hread, g.read_recordAll, horder.countP_eq]
  have hload : ∀ c, after.load c = (before.recordAll order).load c := fun c => hsame (.counter c)
  constructor
  · simp only [Statistics.snapshot, Statistics.loading, List.map_cons, List.map_nil, hload]
  · exact fun q => hsame (.method q)

/-! Two threads whose recordings of one method overlap: each has counted its call before either has
counted how it ended. -/

def overlapping : List (List (String × Ending)) :=
  [[("demo.Host.burst", .raised), ("demo.Host.shield", .returned)], [("demo.Host.burst", .denied)]]

theorem no_update_is_lost_overlapping :
    let after := ((System.recording .zero overlapping).follow [0, 1, 0, 1, 1, 0, 0, 1, 0, 0, 0]).2
    (∀ t ∈ after.threads, t.IsDone) ∧
      Totals .zero [("demo.Host.burst", .raised), ("demo.Host.shield", .returned),
        ("demo.Host.burst", .denied)] after.statistics ∧
      after.statistics.methodCalls "demo.Host.burst" = 2 := by
  intro after
  have hdone : ∀ t ∈ after.threads, t.IsDone := by decide
  have h := no_update_is_lost .zero overlapping [0, 1, 0, 1, 1, 0, 0, 1, 0, 0, 0] hdone
  exact ⟨hdone, h.1, h.1.methodCalls "demo.Host.burst"⟩

end HostBridge
