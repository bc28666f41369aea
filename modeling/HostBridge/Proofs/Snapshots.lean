import HostBridge.Proofs.Failures

/-! # What a snapshot can show

A snapshot is three loads, one after the other, and nothing keeps recordings and resets away
meanwhile. So it can show failures without their calls: those counted while it is taken, and those of
recordings that were half way when the calls were last cleared. It shows no others, unless it finds a
reset half way or the calls have wrapped.
-/
namespace HostBridge

def System.answers (s : System) : List Snapshot := s.threads.filterMap Thread.answer?

/-! ## Failures without calls -/

def observedWhileDenied : List (List Operation) := [[.observe], [.record "demo.Host.shield" .denied]]

def resetWhileDenied : List (List Operation) :=
  [[.record "demo.Host.shield" .denied], [.reset], [.observe]]

/-- There is room for no further call. -/
def exhausted : Statistics := ⟨18446744073709551615, 1, 0, []⟩

/-- A failure is counted between two loads; a reset has cleared the calls only; a reset has run between
the two halves of a recording; the calls have wrapped. -/
theorem failures_outnumber_calls :
    ((System.start .zero observedWhileDenied).follow
      [0, 0, 1, 1, 1, 0, 0]).2.answers = [⟨0, 1, 0⟩] ∧
    ((System.start .zero resetWhileDenied).follow
      [0, 0, 0, 0, 1, 1, 2, 2, 2, 2]).2.answers = [⟨0, 1, 0⟩] ∧
    ((System.start .zero resetWhileDenied).follow
      [0, 0, 1, 1, 1, 1, 1, 0, 0, 2, 2, 2, 2]).2.answers = [⟨0, 1, 0⟩] ∧
    exhausted.snapshot.Consistent ∧
    ((System.start exhausted [[.record "demo.Host.greet" .returned], [.observe]]).follow
      [0, 0, 0, 1, 1, 1, 1]).2.answers = [⟨0, 1, 0⟩] ∧
    ¬ (⟨0, 1, 0⟩ : Snapshot).Consistent := by
  decide

/-! ## Taking a snapshot -/

/-- What a thread has done since it loaded the calls: the failures that it has loaded are within these
bounds. -/
inductive Thread.Observing (ops : List Operation) (calls : UInt64) (denied raised : Nat) :
    Thread → Prop
  | second : Observing ops calls denied raised ⟨[.load .denied, .load .raised], [calls], ops⟩
  | third (d : UInt64) (hd : d.toNat ≤ denied) :
      Observing ops calls denied raised ⟨[.load .raised], [calls, d], ops⟩
  | taken (d r : UInt64) (hd : d.toNat ≤ denied) (hr : r.toNat ≤ raised) :
      Observing ops calls denied raised ⟨[], [calls, d, r], ops⟩
  | later (t : Thread) (h : t.operations.length < ops.length) : Observing ops calls denied raised t

section
variable {ops : List Operation} {calls : UInt64} {denied raised : Nat}

theorem Thread.Observing.step {t : Thread} (h : t.Observing ops calls denied raised) {s : Statistics}
    (hd : s.denied.toNat ≤ denied) (hr : s.raised.toNat ≤ raised) :
    (t.step s).2.Observing ops calls denied raised := by
  cases h with
  | second => exact .third s.denied hd
  | third d hle => exact .taken d s.raised hle hr
  | taken d r hdle hrle =>
    cases ops with
    | nil => exact .taken d r hdle hrle
    | cons op rest => exact .later _ (Nat.lt_succ_self rest.length)
  | later t hlt =>
    obtain ⟨actions, loads, operations⟩ := t
    cases actions with
    | cons a rest => exact .later _ hlt
    | nil =>
      cases operations with
      | nil => exact .later _ hlt
      | cons op rest => exact .later _ (Nat.lt_of_succ_lt hlt)

theorem System.observing_follow {s : System} {i : Nat} {t : Thread} (ht : s.threads[i]? = some t)
    (h : t.Observing ops calls denied raised) (schedule : List Nat)
    (hd : s.statistics.denied.toNat + (s.follow schedule).1.count (.update .countDenied) ≤ denied)
    (hr : s.statistics.raised.toNat + (s.follow schedule).1.count (.update .countRaised) ≤ raised) :
    ∃ u, (s.follow schedule).2.threads[i]? = some u ∧ u.Observing ops calls denied raised := by
  induction schedule generalizing s t with
  | nil => exact ⟨t, ht, h⟩
  | cons j schedule ih =>
    have hmoved : ∃ u, (s.step j).2.threads[i]? = some u ∧ u.Observing ops calls denied raised := by
      rw [s.step_getElem? i j]
      by_cases hij : i = j
      · rw [if_pos hij, ht]
        exact ⟨_, rfl, h.step (Nat.le_of_add_right_le hd) (Nat.le_of_add_right_le hr)⟩
      · rw [if_neg hij]
        exact ⟨t, ht, h⟩
    obtain ⟨u, hu, hobs⟩ := hmoved
    have hdenied := Counter.load_foldl_le .denied s.statistics (s.step j).1
    have hraised := Counter.load_foldl_le .raised s.statistics (s.step j).1
    rw [← s.step_statistics j] at hdenied hraised
    simp only [follow, List.count_append, ← Nat.add_assoc] at hd hr
    exact ih hu hobs (Nat.le_trans (Nat.add_le_add_right hdenied _) hd)
      (Nat.le_trans (Nat.add_le_add_right hraised _) hr)

end

/-- A thread begins to observe with its next turn, and has its snapshot when the schedule is over. -/
def System.Observes (s : System) (i : Nat) (during : List Nat) (x : Snapshot) : Prop :=
  ∃ ops loads, s.threads[i]? = some ⟨Operation.observe.actions, [], ops⟩ ∧
    (s.follow (i :: during)).2.threads[i]? = some ⟨[], loads, ops⟩ ∧ x = Statistics.ofLoads loads

namespace System

/-- A snapshot shows the calls of its beginning, and at most the failures of its end. -/
theorem Observes.bounds {s : System} {i : Nat} {during : List Nat} {x : Snapshot}
    (h : s.Observes i during x) :
    x.calls = s.statistics.calls ∧
      x.denied.toNat ≤ s.statistics.denied.toNat +
        (s.follow (i :: during)).1.count (.update .countDenied) ∧
      x.raised.toNat ≤ s.statistics.raised.toNat +
        (s.follow (i :: during)).1.count (.update .countRaised) := by
  obtain ⟨ops, loads, hbegin, hend, rfl⟩ := h
  have hstep : s.step i = ([.load .calls], ⟨s.statistics, s.threads.set i
      ⟨[.load .denied, .load .raised], [s.statistics.calls], ops⟩⟩) := by
    unfold step
    rw [hbegin]
    rfl
  have hlt : i < s.threads.length := (List.getElem?_eq_some_iff.mp hbegin).1
  have hsecond : (s.step i).2.threads[i]? =
      some ⟨[.load .denied, .load .raised], [s.statistics.calls], ops⟩ := by
    rw [hstep, List.getElem?_set_self hlt]
  have hcount {u : Update} : (s.follow (i :: during)).1.count (.update u) =
      ((s.step i).2.follow during).1.count (.update u) := by
    simp [follow, hstep]
  have hstatistics : (s.step i).2.statistics = s.statistics := by rw [hstep]
  obtain ⟨t, ht, hobs⟩ := observing_follow hsecond .second during (Nat.le_refl _) (Nat.le_refl _)
  obtain rfl : ⟨[], loads, ops⟩ = t := Option.some.inj (hend.symm.trans ht)
  rw [hcount, hcount, ← hstatistics]
  cases hobs with
  | taken d r hd hr => exact ⟨by rw [hstatistics]; rfl, hd, hr⟩
  | later _ hlt => exact absurd hlt (Nat.lt_irrefl _)

end System

/-! ## Every snapshot is taken like that -/

theorem Thread.InOrder.actions_of_first_load {c : Counter} {rest : List Action}
    {ops : List Operation} (h : Thread.InOrder ⟨.load c :: rest, [], ops⟩) :
    .load c :: rest = Operation.observe.actions := by
  obtain ⟨op, done, hop, hloads⟩ := h
  have hmem : .load c ∈ op.actions := by simp [hop]
  cases op with
  | record method ending => simp [Operation.actions] at hmem
  | reset => simp [Operation.actions] at hmem
  | observe =>
    cases done with
    | nil => exact hop.symm
    | cons d done =>
      obtain rfl : .load .calls = d := (List.cons.inj hop).1
      exact absurd hloads (by simp [List.countP_cons, Action.isLoad])

theorem Thread.InOrder.loads_of_step {t : Thread} (h : t.InOrder) {s : Statistics}
    (hloads : (t.step s).2.loads ≠ []) :
    t = ⟨Operation.observe.actions, [], (t.step s).2.operations⟩ ∨
      t.loads ≠ [] ∧ t.operations = (t.step s).2.operations := by
  obtain ⟨actions, loads, operations⟩ := t
  cases actions with
  | nil =>
    cases operations with
    | nil => exact .inr ⟨hloads, rfl⟩
    | cons op ops => exact absurd rfl hloads
  | cons a rest =>
    cases loads with
    | cons l ls => exact .inr ⟨List.cons_ne_nil l ls, rfl⟩
    | nil =>
      cases a with
      | update u => exact absurd rfl hloads
      | load c =>
        left
        rw [h.actions_of_first_load]
        rfl

namespace System

variable {before : Statistics} {programs : List (List Operation)} {i : Nat} {t : Thread}

theorem exists_first_load {schedule : List Nat}
    (ht : ((start before programs).follow schedule).2.threads[i]? = some t) (hloads : t.loads ≠ []) :
    ∃ earlier during, schedule = earlier ++ i :: during ∧
      ((start before programs).follow earlier).2.threads[i]? =
        some ⟨Operation.observe.actions, [], t.operations⟩ := by
  induction schedule using List.reverseRecOn generalizing t with
  | nil =>
    obtain ⟨ops, -, rfl⟩ := List.mem_map.mp (List.mem_of_getElem? ht)
    exact absurd rfl hloads
  | append_singleton schedule j ih =>
    rw [follow_append] at ht
    have ht : (((start before programs).follow schedule).2.step j).2.threads[i]? = some t := ht
    rw [step_getElem?] at ht
    by_cases hij : i = j
    · subst hij
      rw [if_pos rfl] at ht
      obtain ⟨u, hu, rfl⟩ := Option.map_eq_some_iff.mp ht
      have horder := (inOrder_start before programs).follow schedule u (List.mem_of_getElem? hu)
      rcases horder.loads_of_step hloads with hfirst | ⟨hul, hops⟩
      · exact ⟨schedule, [], rfl, by rw [hu, ← hfirst]⟩
      · obtain ⟨earlier, during, rfl, hfirst⟩ := ih hu hul
        exact ⟨earlier, during ++ [i], by simp, by rw [hfirst, hops]⟩
    · rw [if_neg hij] at ht
      obtain ⟨earlier, during, rfl, hfirst⟩ := ih ht hloads
      exact ⟨earlier, during ++ [j], by simp, hfirst⟩

/-- Every snapshot of a run was taken by some thread, from its load of the calls on. -/
theorem exists_observes {schedule : List Nat} {x : Snapshot}
    (ht : ((start before programs).follow schedule).2.threads[i]? = some t)
    (hx : t.answer? = some x) :
    ∃ earlier during, schedule = earlier ++ i :: during ∧
      ((start before programs).follow earlier).2.Observes i during x := by
  obtain ⟨actions, loads, ops⟩ := t
  cases actions with
  | cons a rest => cases hx
  | nil =>
    cases loads with
    | nil => cases hx
    | cons l ls =>
      obtain ⟨earlier, during, hs, hfirst⟩ := exists_first_load ht (List.cons_ne_nil l ls)
      refine ⟨earlier, during, hs, ops, l :: ls, hfirst, ?_, (Option.some.inj hx).symm⟩
      rw [hs, follow_append] at ht
      exact ht

end System

/-- How thread `i` came to the snapshot with which a run ends: the turns after which to count, those
until the snapshot was begun, and, after its load of the calls, those until it was complete. -/
structure Taking (first : System) (schedule : List Nat) (i : Nat) (x : Snapshot) where
  origin : List Nat
  since : List Nat
  during : List Nat
  /-- The recordings that were half way when the calls were last cleared. -/
  straddling : Nat
  schedule_eq : schedule = origin ++ since ++ i :: during
  counts : first.Origin origin straddling
  kept : .update .clearCalls ∉ ((first.follow origin).2.follow since).1
  observes : ((first.follow origin).2.follow since).2.Observes i during x

namespace Taking

variable {first : System} {schedule : List Nat} {i : Nat} {x : Snapshot}

def begun (τ : Taking first schedule i x) : System :=
  ((first.follow τ.origin).2.follow τ.since).2

/-- The calls have not wrapped since they were last cleared. -/
def HasRoom (τ : Taking first schedule i x) : Prop :=
  (first.follow τ.origin).2.statistics.calls.toNat +
    ((first.follow τ.origin).2.follow τ.since).1.count (.update .countCall) < UInt64.size

/-- The failures that were counted while the snapshot was taken. -/
def meanwhile (τ : Taking first schedule i x) : Nat :=
  (τ.begun.follow (i :: τ.during)).1.countP Action.fails

theorem failures_le {before : Statistics} {programs : List (List Operation)}
    (τ : Taking (.start before programs) schedule i x) (hstart : before.snapshot.Consistent)
    (hroom : τ.HasRoom) (hclear : ¬ τ.begun.IsClearing) :
    x.denied.toNat + x.raised.toNat ≤ x.calls.toNat + τ.straddling + τ.meanwhile := by
  have horder := (System.inOrder_start before programs).follow τ.origin
  have hcovered := (τ.counts.covered hstart).follow horder τ.kept hroom
  have hnow := hcovered.failures_le hclear
  obtain ⟨hcalls, hdenied, hraised⟩ := τ.observes.bounds
  rw [hcalls, meanwhile, countP_fails, begun]
  omega

end Taking

/-- A snapshot shows at most as many failures as calls, but for the recordings that were half way when
the calls were last cleared, and for the failures that were counted while it was taken. -/
theorem failures_shown_le (before : Statistics) (programs : List (List Operation))
    (hstart : before.snapshot.Consistent) (schedule : List Nat) (i : Nat) (t : Thread) (x : Snapshot)
    (ht : ((System.start before programs).follow schedule).2.threads[i]? = some t)
    (hx : t.answer? = some x) :
    Nonempty (Taking (.start before programs) schedule i x) ∧
      ∀ τ : Taking (.start before programs) schedule i x, τ.HasRoom → ¬ τ.begun.IsClearing →
        x.denied.toNat + x.raised.toNat ≤ x.calls.toNat + τ.straddling + τ.meanwhile := by
  constructor
  · obtain ⟨earlier, during, hschedule, hobs⟩ := System.exists_observes ht hx
    obtain ⟨origin, since, n, rfl, ho, hkept⟩ :=
      System.exists_origin (.start before programs) earlier
    rw [System.follow_append] at hobs
    exact ⟨⟨origin, since, during, n, hschedule, ho, hkept, hobs⟩⟩
  · intro τ hroom hclear
    exact τ.failures_le hstart hroom hclear

/-! A reset falls between the two halves of a recording, and another failure between the first two loads
of the snapshot. It shows two failures and no call: the bound is reached. -/

def twiceOvertaken : List (List Operation) :=
  [[.record "demo.Host.shield" .denied], [.reset], [.observe], [.record "demo.Host.burst" .raised]]

def twiceOvertakenTaking : Taking (.start .zero twiceOvertaken)
    [0, 0, 1, 1, 1, 1, 1, 0, 2, 2, 3, 3, 3, 2, 2] 2 ⟨0, 1, 1⟩ where
  origin := [0, 0, 1, 1]
  since := [1, 1, 1, 0, 2]
  during := [3, 3, 3, 2, 2]
  straddling := 1
  schedule_eq := rfl
  counts := .cleared [0, 0, 1] 1 rfl
  kept := by decide
  observes := ⟨[], [0, 1, 1], rfl, rfl, rfl⟩

theorem failures_shown_le_twiceOvertaken :
    Statistics.zero.snapshot.Consistent ∧
    ((System.start .zero twiceOvertaken).follow
      [0, 0, 1, 1, 1, 1, 1, 0, 2, 2, 3, 3, 3, 2, 2]).2.threads[2]? = some ⟨[], [0, 1, 1], []⟩ ∧
    twiceOvertakenTaking.HasRoom ∧ ¬ twiceOvertakenTaking.begun.IsClearing ∧
    twiceOvertakenTaking.straddling = 1 ∧ twiceOvertakenTaking.meanwhile = 1 ∧
    (1 : UInt64).toNat + (1 : UInt64).toNat ≤
      (0 : UInt64).toNat + twiceOvertakenTaking.straddling + twiceOvertakenTaking.meanwhile := by
  have hstart : Statistics.zero.snapshot.Consistent := by decide
  have ht : ((System.start .zero twiceOvertaken).follow
      [0, 0, 1, 1, 1, 1, 1, 0, 2, 2, 3, 3, 3, 2, 2]).2.threads[2]? = some ⟨[], [0, 1, 1], []⟩ := rfl
  have hroom : twiceOvertakenTaking.HasRoom := by unfold Taking.HasRoom; decide
  have hclear : ¬ twiceOvertakenTaking.begun.IsClearing := by decide
  have h := failures_shown_le .zero twiceOvertaken hstart
    [0, 0, 1, 1, 1, 1, 1, 0, 2, 2, 3, 3, 3, 2, 2] 2 ⟨[], [0, 1, 1], []⟩ ⟨0, 1, 1⟩ ht rfl
  exact ⟨hstart, ht, hroom, hclear, rfl, rfl, h.2 twiceOvertakenTaking hroom hclear⟩

end HostBridge
