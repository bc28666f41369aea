import HostBridge.Proofs.Interleaving
import Mathlib.Data.List.Induction

/-! # Failures and their calls

A recording counts its call first and then how the call ended, a reset clears the calls first and then
the failures. So the counters show no failure without its call, unless a reset is half done, or has
cleared a call whose failure was still to be counted.
-/
namespace HostBridge

/-- No more failures than calls. -/
def Snapshot.Consistent (x : Snapshot) : Prop := x.denied.toNat + x.raised.toNat ≤ x.calls.toNat

instance (x : Snapshot) : Decidable x.Consistent := inferInstanceAs (Decidable (_ ≤ _))

/-! ## Operations that are half done -/

def Action.fails : Action → Bool
  | update .countDenied | update .countRaised => true
  | _ => false

theorem countP_fails (done : List Action) :
    done.countP Action.fails =
      done.count (.update .countDenied) + done.count (.update .countRaised) := by
  induction done with
  | nil => rfl
  | cons a rest ih =>
    rw [List.countP_cons, List.count_cons, List.count_cons, ih]
    cases a with
    | load c => simp [Action.fails]
    | update u => cases u <;> simp [Action.fails] <;> omega

/-- A recording has counted its call, but not yet how the call ended. -/
def Thread.isHalfway (t : Thread) : Bool := t.actions.head?.any Action.fails

namespace System

def halfway (s : System) : Nat := s.threads.countP Thread.isHalfway

/-- The next step of some thread is this update. -/
def Awaits (s : System) (u : Update) : Prop := ∃ t ∈ s.threads, t.actions.head? = some (.update u)

/-- A reset has cleared the calls, but not yet all failures. -/
def IsClearing (s : System) : Prop := s.Awaits .clearDenied ∨ s.Awaits .clearRaised

instance (s : System) (u : Update) : Decidable (s.Awaits u) :=
  inferInstanceAs (Decidable (∃ t ∈ s.threads, _))

instance (s : System) : Decidable s.IsClearing := inferInstanceAs (Decidable (_ ∨ _))

end System

/-! ## What comes next within an operation -/

namespace Operation

variable {op : Operation} {a : Action} {rest : List Action}

/-- A failure is counted right after its call. -/
theorem countCall_of_fails (h : a :: rest <:+ op.actions) (hf : rest.head?.any Action.fails) :
    a = .update .countCall := by
  obtain ⟨b, hb, hfails⟩ : ∃ b, rest.head? = some b ∧ b.fails := by
    simpa [Option.any_eq_true] using hf
  have hmem : b ∈ op.actions := h.subset (List.mem_cons_of_mem _ (List.mem_of_head? hb))
  cases op with
  | record method ending =>
    cases ending <;> simp [actions, Statistics.recording, List.suffix_cons_iff] at h <;>
      grind [Action.fails]
  | reset =>
    have hnone : ∀ b ∈ reset.actions, b.fails = false := by decide
    simp [hnone b hmem] at hfails
  | observe =>
    have hnone : ∀ b ∈ observe.actions, b.fails = false := by decide
    simp [hnone b hmem] at hfails

theorem eq_reset_of_clears {u : Update} (hu : u ∈ Statistics.resetting)
    (h : .update u :: rest <:+ op.actions) : op = .reset := by
  have hmem : .update u ∈ op.actions := h.subset List.mem_cons_self
  cases op with
  | record method ending =>
    cases ending <;> simp [actions, Statistics.recording] at hmem <;>
      rcases hmem with rfl | rfl | rfl <;> simp [Statistics.resetting] at hu
  | reset => rfl
  | observe => simp [actions] at hmem

theorem head_after_clearCalls (h : .update .clearCalls :: rest <:+ op.actions) :
    rest.head? = some (.update .clearDenied) := by
  obtain rfl := eq_reset_of_clears (by decide) h
  have hrest : rest = [.update .clearDenied, .update .clearRaised, .update .clearMethods] := by
    simpa [actions, Statistics.resetting, List.suffix_cons_iff] using h
  rw [hrest, List.head?_cons]

theorem head_after_clearDenied (h : .update .clearDenied :: rest <:+ op.actions) :
    rest.head? = some (.update .clearRaised) := by
  obtain rfl := eq_reset_of_clears (by decide) h
  have hrest : rest = [.update .clearRaised, .update .clearMethods] := by
    simpa [actions, Statistics.resetting, List.suffix_cons_iff] using h
  rw [hrest, List.head?_cons]

theorem head_actions_not_fails (op : Operation) : op.actions.head?.any Action.fails = false := by
  cases op with
  | record method ending => cases ending <;> rfl
  | reset | observe => rfl

end Operation

theorem Thread.InOrder.suffix {actions : List Action} {loads : List UInt64} {ops : List Operation}
    (h : Thread.InOrder ⟨actions, loads, ops⟩) : ∃ op, actions <:+ Operation.actions op := by
  obtain ⟨op, done, hop, -⟩ := h
  exact ⟨op, done, hop.symm⟩

/-! ## Counting what is half done -/

theorem countP_set_add {α : Type} {p : α → Bool} {l : List α} {i : Nat} {a b : α}
    (ha : l[i]? = some a) :
    (l.set i b).countP p + (p a).toNat = l.countP p + (p b).toNat := by
  induction l generalizing i with
  | nil => simp at ha
  | cons x rest ih =>
    cases i with
    | zero =>
      obtain rfl : x = a := by simpa using ha
      rw [List.set_cons_zero, List.countP_cons, List.countP_cons]
      cases p x <;> cases p b <;> rfl
    | succ i =>
      have hrest : (rest.set i b).countP p + (p a).toNat = rest.countP p + (p b).toNat :=
        ih (by simpa using ha)
      rw [List.set_cons_succ, List.countP_cons, List.countP_cons]
      omega

namespace System

/-- Each step into the middle of a recording counts a call, each step out of it a failure. -/
theorem InOrder.step_halfway {s : System} (h : s.InOrder) (i : Nat) :
    (s.step i).2.halfway + (s.step i).1.countP Action.fails ≤
      s.halfway + (s.step i).1.count (.update .countCall) := by
  rcases s.step_cases i with he | ⟨loads, op, ops, ht, he⟩ | ⟨a, rest, loads, ops, ht, he⟩
  · simp [he]
  · have hset := countP_set_add (p := Thread.isHalfway) (b := ⟨op.actions, [], ops⟩) ht
    simp only [Thread.isHalfway, op.head_actions_not_fails] at hset
    rw [he]
    exact Nat.le_of_eq hset
  · obtain ⟨op, hop⟩ := (h _ (List.mem_of_getElem? ht)).suffix
    have hset := countP_set_add (p := Thread.isHalfway)
      (b := ⟨rest, loads ++ a.loaded s.statistics, ops⟩) ht
    have hcall : (rest.head?.any Action.fails).toNat ≤ [a].count (.update .countCall) := by
      cases hf : rest.head?.any Action.fails with
      | true => simp [op.countCall_of_fails hop hf]
      | false => exact Nat.zero_le _
    have hfail : [a].countP Action.fails = a.fails.toNat := by
      cases hf : a.fails <;> simp [hf]
    simp only [Thread.isHalfway, List.head?_cons, Option.any_some] at hset
    simp only [he, halfway, hfail]
    omega

theorem InOrder.follow_halfway {s : System} (h : s.InOrder) (schedule : List Nat) :
    (s.follow schedule).2.halfway + (s.follow schedule).1.countP Action.fails ≤
      s.halfway + (s.follow schedule).1.count (.update .countCall) := by
  induction schedule generalizing s with
  | nil => simp [System.follow]
  | cons i schedule ih =>
    have hstep := h.step_halfway i
    have hrest := ih (h.step i)
    simp only [System.follow, List.countP_append, List.count_append]
    omega

end System

/-! ## How far a counter can have grown -/

namespace Counter

variable (c : Counter) (s : Statistics)

theorem load_of_clears : ((Action.update c.clearing).apply s).load c = 0 := by
  rw [c.load_apply, if_pos rfl]

theorem load_apply_le (a : Action) :
    ((a.apply s).load c).toNat ≤ (s.load c).toNat + [a].count (.update c.counting) := by
  rw [c.load_apply, List.count_singleton]
  by_cases hclear : a = .update c.clearing
  · simp [hclear]
  · rw [if_neg hclear]
    by_cases hcount : a = .update c.counting
    · have hadd : (s.load c + 1).toNat ≤ (s.load c).toNat + 1 := Nat.mod_le _ _
      simpa [hcount] using hadd
    · simp [hcount]

theorem load_apply_of_room {a : Action} (hkept : a ≠ .update c.clearing)
    (hroom : (s.load c).toNat + [a].count (.update c.counting) < UInt64.size) :
    ((a.apply s).load c).toNat = (s.load c).toNat + [a].count (.update c.counting) := by
  rw [c.load_apply, if_neg hkept]
  rw [List.count_singleton] at hroom ⊢
  by_cases hcount : a = .update c.counting
  · have hadd : (s.load c + 1).toNat = (s.load c).toNat + 1 := by
      rw [UInt64.toNat_add]
      exact Nat.mod_eq_of_lt (by simpa [hcount] using hroom)
    simpa [hcount] using hadd
  · simp [hcount]

theorem load_foldl_le (done : List Action) :
    ((done.foldl (fun s a => a.apply s) s).load c).toNat ≤
      (s.load c).toNat + done.count (.update c.counting) := by
  induction done generalizing s with
  | nil => exact Nat.le_refl _
  | cons a rest ih =>
    have hfirst := c.load_apply_le s a
    have hrest := ih (a.apply s)
    rw [← List.singleton_append, List.count_append]
    exact Nat.le_trans hrest (by omega)

/-- A counter that is not cleared and does not wrap shows every step that added to it. -/
theorem load_foldl_of_room {done : List Action} (hkept : .update c.clearing ∉ done)
    (hroom : (s.load c).toNat + done.count (.update c.counting) < UInt64.size) :
    ((done.foldl (fun s a => a.apply s) s).load c).toNat =
      (s.load c).toNat + done.count (.update c.counting) := by
  induction done generalizing s with
  | nil => rfl
  | cons a rest ih =>
    obtain ⟨hne, hrest⟩ := List.ne_and_not_mem_of_not_mem_cons hkept
    rw [← List.singleton_append, List.count_append] at hroom ⊢
    have hfirst := c.load_apply_of_room s hne.symm (by omega)
    have hthen := ih (a.apply s) hrest (by omega)
    rw [← Nat.add_assoc, ← hfirst]
    exact hthen

end Counter

/-! ## Failures since the calls were last cleared -/

namespace System

/-- Each kind of failure has at most been counted so often, or a reset is about to clear it. -/
structure Bounds (s : System) (denied raised : Nat) : Prop where
  denied : s.statistics.denied.toNat ≤ denied ∨ s.Awaits .clearDenied
  raised : s.statistics.raised.toNat ≤ raised ∨ s.Awaits .clearDenied ∨ s.Awaits .clearRaised

/-- A thread that is about to make an update makes it, or is still about to. -/
theorem Awaits.step {s : System} {u : Update} (h : s.Awaits u) (i : Nat) :
    (s.step i).1 = [.update u] ∨ (s.step i).2.Awaits u := by
  obtain ⟨t, ht, hnext⟩ := h
  obtain ⟨j, hj⟩ := List.mem_iff_getElem?.mp ht
  by_cases hij : j = i
  · left
    subst hij
    obtain ⟨actions, loads, ops⟩ := t
    cases actions with
    | nil => cases hnext
    | cons a rest =>
      obtain rfl : a = .update u := Option.some.inj hnext
      unfold System.step
      rw [hj]
      rfl
  · right
    have hsame : (s.step i).2.threads[j]? = some t := by rw [step_getElem?, if_neg hij, hj]
    exact ⟨t, List.mem_of_getElem? hsame, hnext⟩

/-- After the step of a thread, its next step is what its operation says. -/
theorem InOrder.awaits_of_step {s : System} (h : s.InOrder) {i : Nat} {u v : Update}
    (hi : (s.step i).1 = [.update u])
    (hnext : ∀ {op : Operation} {rest}, .update u :: rest <:+ op.actions →
      rest.head? = some (.update v)) : (s.step i).2.Awaits v := by
  rcases s.step_cases i with he | ⟨loads, op, ops, -, he⟩ | ⟨a, rest, loads, ops, ht, he⟩
  · simp [he] at hi
  · simp [he] at hi
  · obtain ⟨op, hop⟩ := (h _ (List.mem_of_getElem? ht)).suffix
    rw [he] at hi ⊢
    obtain rfl : a = .update u := by simpa using hi
    exact ⟨_, List.mem_set (List.getElem?_eq_some_iff.mp ht).1 _, hnext hop⟩

theorem step_load_of_clears {s : System} {i : Nat} {c : Counter}
    (h : (s.step i).1 = [.update c.clearing]) : (s.step i).2.statistics.load c = 0 := by
  rw [step_statistics, h]
  exact c.load_of_clears s.statistics

theorem Bounds.step {s : System} {denied raised : Nat} (h : s.Bounds denied raised)
    (horder : s.InOrder) (i : Nat) :
    (s.step i).2.Bounds (denied + (s.step i).1.count (.update .countDenied))
      (raised + (s.step i).1.count (.update .countRaised)) := by
  have hd := Counter.load_foldl_le .denied s.statistics (s.step i).1
  have hr := Counter.load_foldl_le .raised s.statistics (s.step i).1
  rw [← step_statistics] at hd hr
  constructor
  · rcases h.denied with hle | hwait
    · exact .inl (Nat.le_trans hd (Nat.add_le_add_right hle _))
    · rcases hwait.step i with hnow | hlater
      · have hzero : (s.step i).2.statistics.denied = 0 := step_load_of_clears (c := .denied) hnow
        exact .inl (by simp [hzero])
      · exact .inr hlater
  · rcases h.raised with hle | hwait | hwait
    · exact .inl (Nat.le_trans hr (Nat.add_le_add_right hle _))
    · rcases hwait.step i with hnow | hlater
      · exact .inr (.inr (horder.awaits_of_step hnow Operation.head_after_clearDenied))
      · exact .inr (.inl hlater)
    · rcases hwait.step i with hnow | hlater
      · have hzero : (s.step i).2.statistics.raised = 0 := step_load_of_clears (c := .raised) hnow
        exact .inl (by simp [hzero])
      · exact .inr (.inr hlater)

theorem Bounds.follow {s : System} {denied raised : Nat} (h : s.Bounds denied raised)
    (horder : s.InOrder) (schedule : List Nat) :
    (s.follow schedule).2.Bounds
      (denied + (s.follow schedule).1.count (.update .countDenied))
      (raised + (s.follow schedule).1.count (.update .countRaised)) := by
  induction schedule generalizing s denied raised with
  | nil => exact h
  | cons i schedule ih =>
    have hrest := ih (h.step horder i) (horder.step i)
    simp only [System.follow, List.count_append, ← Nat.add_assoc]
    exact hrest

/-- When no reset is half way, the failures that the counters show are those counted. -/
theorem Bounds.of_not_clearing {s : System} {denied raised : Nat} (h : s.Bounds denied raised)
    (hclear : ¬ s.IsClearing) :
    s.statistics.denied.toNat ≤ denied ∧ s.statistics.raised.toNat ≤ raised := by
  constructor
  · exact h.denied.resolve_right fun hd => hclear (.inl hd)
  · exact h.raised.resolve_right fun hr => hclear hr

/-- Every failure that the counters show has its call, but for `n` of them, and so has every recording
that is half way. -/
def Covered (s : System) (n : Nat) : Prop :=
  ∃ denied raised, s.Bounds denied raised ∧
    denied + raised + s.halfway ≤ s.statistics.calls.toNat + n

theorem covered_start {before : Statistics} (h : before.snapshot.Consistent)
    (programs : List (List Operation)) : (start before programs).Covered 0 := by
  have hnone : (start before programs).halfway = 0 := by
    apply List.countP_eq_zero.mpr
    intro t ht
    obtain ⟨ops, -, rfl⟩ := List.mem_map.mp ht
    exact Bool.false_ne_true
  have hbounds : (start before programs).Bounds before.denied.toNat before.raised.toNat :=
    ⟨.inl (Nat.le_refl _), .inl (Nat.le_refl _)⟩
  refine ⟨_, _, hbounds, ?_⟩
  rw [hnone]
  exact h

/-- When the calls are cleared, only the recordings that are half way lose theirs: the failures counted
so far are about to be cleared as well. -/
theorem InOrder.covered_of_clears {s : System} (h : s.InOrder) {i : Nat}
    (hi : (s.step i).1 = [.update .clearCalls]) : (s.step i).2.Covered s.halfway := by
  have hwait := h.awaits_of_step hi Operation.head_after_clearCalls
  have hhalf := h.step_halfway i
  rw [hi] at hhalf
  have hhalf : (s.step i).2.halfway ≤ s.halfway := hhalf
  have hbounds : (s.step i).2.Bounds 0 0 := ⟨.inr hwait, .inr (.inl hwait)⟩
  refine ⟨0, 0, hbounds, ?_⟩
  omega

/-- As long as the calls are not cleared again and do not wrap, nothing else loses its call. -/
theorem Covered.follow {s : System} {n : Nat} (h : s.Covered n) (horder : s.InOrder)
    {schedule : List Nat} (hkept : .update .clearCalls ∉ (s.follow schedule).1)
    (hroom : s.statistics.calls.toNat + (s.follow schedule).1.count (.update .countCall) < UInt64.size) :
    (s.follow schedule).2.Covered n := by
  obtain ⟨denied, raised, hbounds, hcalls⟩ := h
  refine ⟨_, _, hbounds.follow horder schedule, ?_⟩
  have hhalf := horder.follow_halfway schedule
  have hgrown : ((s.follow schedule).2.statistics.load .calls).toNat =
      s.statistics.calls.toNat + (s.follow schedule).1.count (.update .countCall) := by
    rw [follow_statistics]
    exact Counter.load_foldl_of_room .calls s.statistics hkept hroom
  rw [countP_fails] at hhalf
  simp only [Statistics.load] at hgrown
  omega

theorem Covered.failures_le {s : System} {n : Nat} (h : s.Covered n) (hclear : ¬ s.IsClearing) :
    s.statistics.denied.toNat + s.statistics.raised.toNat ≤ s.statistics.calls.toNat + n := by
  obtain ⟨denied, raised, hbounds, hcalls⟩ := h
  obtain ⟨hdenied, hraised⟩ := hbounds.of_not_clearing hclear
  omega

/-! ## Where to count from -/

/-- A schedule after which to count: none yet, or one that ends with clearing the calls. The number is
that of the recordings that were half way then. -/
inductive Origin (first : System) : List Nat → Nat → Prop
  | begun : Origin first [] 0
  | cleared (before : List Nat) (i : Nat)
      (h : ((first.follow before).2.step i).1 = [.update .clearCalls]) :
      Origin first (before ++ [i]) (first.follow before).2.halfway

theorem Origin.covered {before : Statistics} {programs : List (List Operation)} {origin : List Nat}
    {n : Nat} (h : (start before programs).Origin origin n) (hstart : before.snapshot.Consistent) :
    ((start before programs).follow origin).2.Covered n := by
  cases h with
  | begun => exact covered_start hstart programs
  | cleared earlier i hi =>
    have horder := (inOrder_start before programs).follow earlier
    rw [follow_append]
    exact horder.covered_of_clears hi

theorem exists_origin (first : System) (schedule : List Nat) :
    ∃ origin since n, schedule = origin ++ since ∧ first.Origin origin n ∧
      .update .clearCalls ∉ ((first.follow origin).2.follow since).1 := by
  induction schedule using List.reverseRecOn with
  | nil => exact ⟨[], [], 0, rfl, .begun, List.not_mem_nil⟩
  | append_singleton schedule i ih =>
    by_cases hi : ((first.follow schedule).2.step i).1 = [.update .clearCalls]
    · exact ⟨schedule ++ [i], [], _, by simp, .cleared schedule i hi, List.not_mem_nil⟩
    · obtain ⟨origin, since, n, rfl, ho, hkept⟩ := ih
      refine ⟨origin, since ++ [i], n, by simp, ho, ?_⟩
      rw [follow_append] at hi ⊢
      intro hmem
      rcases List.mem_append.mp hmem with hmem | hmem
      · exact hkept hmem
      · exact hi (mem_step (by simpa [follow] using hmem))

end System

end HostBridge
