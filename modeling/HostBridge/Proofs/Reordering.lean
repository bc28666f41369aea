import HostBridge.Proofs.Native
import HostBridge.Proofs.SortedEntries

/-! # Keywords in another order

Keywords have their entries in some order, but what a body can rely on is the same in any: the
snapshot, the value for a name, the number of names. Bodies that do the same for reordered keywords,
up to the order of those that they hand on themselves, make calls that do: nothing such a call
answers, counts, reports or leaves behind depends on the order.
-/
namespace HostBridge

/-- The same names and values in any order. -/
def Keywords.Reorders (k l : Keywords) : Prop := k.entries.Perm l.entries

/-! ## What the order does not show in -/

namespace Value
variable {entries others : List (String × Value)}

theorem insertEntry_perm {key : String} {value : Value} (h : key ∉ entries.map Prod.fst) :
    (insertEntry key value entries).Perm ((key, value) :: entries) := by
  induction entries with
  | nil => exact .refl _
  | cons first rest ih =>
    rw [List.map_cons, List.mem_cons, not_or] at h
    obtain ⟨hne, hrest⟩ := h
    rw [insertEntry]
    split
    · exact .refl _
    · exact ((ih hrest).cons first).trans (.swap ..)

theorem sortEntries_perm (h : (entries.map Prod.fst).Nodup) :
    (sortEntries entries).Perm entries := by
  induction entries using List.reverseRecOn with
  | nil => exact .refl _
  | append_singleton rest last ih =>
    rw [List.map_append, List.nodup_append] at h
    obtain ⟨hrest, -, hfresh⟩ := h
    have hlast : last.1 ∉ (sortEntries rest).map Prod.fst := fun hmem =>
      hfresh _ (mem_keys_sortEntries.mp hmem) _ (List.mem_singleton_self _) rfl
    rw [sortEntries, List.foldl_append, List.foldl_cons, List.foldl_nil]
    exact (insertEntry_perm hlast).trans
      (((ih hrest).cons last).trans (List.perm_append_singleton last rest).symm)

theorem sortEntries_eq_of_perm (h : (entries.map Prod.fst).Nodup) (hp : entries.Perm others) :
    sortEntries entries = sortEntries others := by
  have hothers : (others.map Prod.fst).Nodup := (hp.map _).nodup_iff.mp h
  have hperm := ((sortEntries_perm h).trans hp).trans (sortEntries_perm hothers).symm
  refine hperm.eq_of_pairwise ?_ (ascending_sortEntries entries) (ascending_sortEntries others)
  intro e f _ _ hef hfe
  exact absurd hfe (String.lt_asymm hef)

/-- With no key given twice it does not matter that the last value for a key counts. -/
theorem lookup_sortEntries_of_nodup (h : (entries.map Prod.fst).Nodup) (key : String) :
    (sortEntries entries).lookup key = entries.lookup key := by
  rw [sortEntries_eq_of_perm h (List.reverse_perm entries).symm, lookup_sortEntries, latest,
    List.reverse_reverse]

end Value

namespace Keywords.Reorders
variable {k l : Keywords}

theorem size (h : k.Reorders l) : l.size = k.size := h.length_eq.symm

theorem snapshot (h : k.Reorders l) : l.snapshot = k.snapshot :=
  congrArg (Value.mk · .dict) (congrArg Payload.dict (Value.sortEntries_eq_of_perm k.nodup h).symm)

theorem get? (h : k.Reorders l) (name : String) : l.get? name = k.get? name := by
  rw [Keywords.get?, Keywords.get?, ← Value.lookup_sortEntries_of_nodup l.nodup,
    ← Value.lookup_sortEntries_of_nodup k.nodup, Value.sortEntries_eq_of_perm k.nodup h]

end Keywords.Reorders

/-! ## Bodies that do not go by the order -/

/-- Both programs do the same with the same answers, but the keywords of their calls may come in
another order, and the bodies that they make are such programs for reordered keywords. -/
inductive Program.Reorders : Program → Program → Prop where
  | finish (answer : Answer) : Reorders (.finish answer) (.finish answer)
  | panic (payload : Panic) : Reorders (.panic payload) (.panic payload)
  | call (target : Value) (args : List Value) {k l : Keywords} {next next' : Answer → Program}
      (hk : k.Reorders l) (h : ∀ answer, Reorders (next answer) (next' answer)) :
      Reorders (.call target args k next) (.call target args l next')
  | look {next next' : Snapshot → Program} (h : ∀ s, Reorders (next s) (next' s)) :
      Reorders (.look next) (.look next')
  | count (method : String) {next next' : UInt64 → Program}
      (h : ∀ n, Reorders (next n) (next' n)) : Reorders (.count method next) (.count method next')
  | reset {next next' : Program} (h : Reorders next next') : Reorders (.reset next) (.reset next')
  | fetch (cell : Cell) {next next' : Value → Program} (h : ∀ v, Reorders (next v) (next' v)) :
      Reorders (.fetch cell next) (.fetch cell next')
  | keep (cell : Cell) (value : Value) {next next' : Program} (h : Reorders next next') :
      Reorders (.keep cell value next) (.keep cell value next')
  | makeObject (type : HostType) {next next' : Value → Program}
      (h : ∀ v, Reorders (next v) (next' v)) :
      Reorders (.makeObject type next) (.makeObject type next')
  | makeBody {body body' : Behaviour} {next next' : BodyId → Program}
      (hbody : ∀ args {k l : Keywords}, k.Reorders l → Reorders (body args k) (body' args l))
      (h : ∀ id, Reorders (next id) (next' id)) :
      Reorders (.makeBody body next) (.makeBody body' next')
  | makeClosure (name : String) (body : BodyId) {next next' : Value → Program}
      (h : ∀ v, Reorders (next v) (next' v)) :
      Reorders (.makeClosure name body next) (.makeClosure name body next')
  | wrap (method : Method) (settings : NativeSettings) {next next' : Answer → Program}
      (h : ∀ answer, Reorders (next answer) (next' answer)) :
      Reorders (.wrap method settings next) (.wrap method settings next')

def Behaviour.Reorders (b b' : Behaviour) : Prop :=
  ∀ args {k l : Keywords}, k.Reorders l → (b args k).Reorders (b' args l)

/-- No body goes by the order of its keywords. -/
def World.OrderBlind (w : World) : Prop := ∀ b ∈ w.bodies, Behaviour.Reorders b b

/-- The worlds differ in their bodies only, which are the same up to the order of keywords. -/
inductive World.Reorders : World → World → Prop where
  | bodies {w : World} {bodies : Array Behaviour}
      (h : List.Forall₂ Behaviour.Reorders w.bodies.toList bodies.toList) :
      Reorders w { w with bodies := bodies }

/-- The outcomes are the same, and the worlds are up to the order of keywords. -/
structure EndsReordered (plain other : Outcome × World) : Prop where
  outcome : other.1 = plain.1
  world : plain.2.Reorders other.2

def Caller.Reorders (call : Caller) : Prop :=
  ∀ v args {k l : Keywords} {w u : World}, k.Reorders l → w.Reorders u →
    EndsReordered (call v args k w) (call v args l u)

namespace World.Reorders
variable {w u : World}

theorem refl (h : w.OrderBlind) : w.Reorders w :=
  .bodies (List.forall₂_same.mpr fun b hb => h b (Array.mem_toList_iff.mp hb))

theorem body (h : w.Reorders u) (id : BodyId) :
    Option.Rel Behaviour.Reorders w.bodies[id]? u.bodies[id]? := by
  cases h with
  | @bodies others h =>
    rw [← Array.getElem?_toList, ← Array.getElem?_toList]
    change Option.Rel _ w.bodies.toList[id]? others.toList[id]?
    generalize w.bodies.toList = before at h
    generalize others.toList = after at h
    induction h generalizing id with
    | nil => exact .none
    | cons hb _ ih =>
      cases id with
      | zero => exact .some hb
      | succ id => exact ih id

theorem announce (h : w.Reorders u) (m : Method) (args : List Value) {k l : Keywords}
    (hk : k.Reorders l) : (w.announce m args k).Reorders (u.announce m args l) := by
  obtain ⟨hbodies⟩ := h
  rw [World.announce, World.announce, hk.size]
  exact .bodies hbodies

theorem makeBody (h : w.Reorders u) {b b' : Behaviour} (hb : b.Reorders b') :
    (u.makeBody b').1 = (w.makeBody b).1 ∧ (w.makeBody b).2.Reorders (u.makeBody b').2 := by
  obtain ⟨hbodies⟩ := h
  refine ⟨hbodies.length_eq.symm, .bodies ?_⟩
  simpa [World.makeBody] using List.rel_append hbodies (.cons hb .nil)

theorem leave (h : w.Reorders u) (settings : NativeSettings) (m : Method) (ended : HostOutcome) :
    EndsReordered (leave settings m ended w) (leave settings m ended u) := by
  obtain ⟨hbodies⟩ := h
  cases ht : settings.trackStatistics <;> cases ended <;>
    simp only [HostBridge.leave, settle, World.record, ht]
  all_goals exact ⟨rfl, .bodies hbodies⟩

end World.Reorders

section
variable {call : Caller} (hcall : call.Reorders)
include hcall

theorem perform_reorders {p q : Program} (hp : p.Reorders q) {w u : World} (hw : w.Reorders u) :
    EndsReordered (p.perform call w) (q.perform call u) := by
  -- Induction on what both programs still do, from any two worlds that they have come to.
  induction hp generalizing w u with
  | finish answer => cases answer <;> exact ⟨rfl, hw⟩
  | panic payload => exact ⟨rfl, hw⟩
  | @call target args k l next next' hk _ ih =>
    obtain ⟨ho, hv⟩ := hcall target args hk hw
    simp only [Program.perform]
    revert ho hv
    rcases call target args k w with ⟨ended, v⟩
    rcases call target args l u with ⟨ended', v'⟩
    rintro rfl hv
    cases ended' with
    | returned value => exact ih _ hv
    | raised e => exact ih _ hv
    | panicked | overflowed => exact ⟨rfl, hv⟩
  | makeBody hbody _ _ ih =>
    obtain ⟨hid, hv⟩ := hw.makeBody hbody
    simp only [Program.perform, hid]
    exact ih _ hv
  | look _ ih | count _ _ ih | fetch _ _ ih | makeObject _ _ ih | makeClosure _ _ _ ih =>
    obtain ⟨hbodies⟩ := hw
    exact ih _ (.bodies hbodies)
  | reset _ ih | keep _ _ _ ih =>
    obtain ⟨hbodies⟩ := hw
    exact ih (.bodies hbodies)
  | wrap method settings _ ih =>
    obtain ⟨hbodies⟩ := hw
    cases hm : method.isStatic <;> simp only [Program.perform, World.wrap, hm]
    · exact ih _ (.bodies hbodies)
    · exact ih _ (.bodies hbodies)

theorem runBody_reorders (body : BodyId) (args : List Value) {k l : Keywords}
    (hk : k.Reorders l) {w u : World} (hw : w.Reorders u) :
    EndsReordered (runBody call body args k w) (runBody call body args l u) := by
  have hbody := hw.body body
  unfold runBody
  generalize w.bodies[body]? = b at hbody
  generalize u.bodies[body]? = b' at hbody
  cases hbody with
  | none => exact ⟨rfl, hw⟩
  | some hb => exact perform_reorders hcall (hb args hk) hw

theorem callNative_reorders (handle : Handle) (m : Method) (args : List Value) {k l : Keywords}
    (hk : k.Reorders l) {w u : World} (hw : w.Reorders u) :
    EndsReordered (callNative call handle m args k w) (callNative call handle m args l u) := by
  have hs : u.settings handle = w.settings handle := by
    cases hw
    rfl
  have hopened := hw.announce m args hk
  cases hm : m.isAccessible with
  | false =>
    rw [callNative_of_denied hm, callNative_of_denied hm, hs]
    exact hopened.leave _ m _
  | true =>
    obtain ⟨ho, hv⟩ := runBody_reorders hcall m.body args hk hopened
    rcases he : runBody call m.body args k (w.announce m args k) with ⟨ended, v⟩
    rcases he' : runBody call m.body args l (u.announce m args l) with ⟨ended', v'⟩
    simp only [he, he'] at ho hv
    subst ho
    rw [callNative_of_accessible hm he, callNative_of_accessible hm he', hs]
    exact hv.leave _ m _

theorem apply_reorders (c : Callable) (args : List Value) {k l : Keywords}
    (hk : k.Reorders l) {w u : World} (hw : w.Reorders u) :
    EndsReordered (c.apply call args k w) (c.apply call args l u) := by
  match c with
  | .native handle m => exact callNative_reorders hcall handle m args hk hw
  | .bound receiver f => exact apply_reorders f (receiver :: args) hk hw
  | .closure handle name body => exact runBody_reorders hcall body args hk hw
termination_by structural c

end

theorem callWithin_reorders (limit : Nat) : (Value.callWithin limit).Reorders := by
  induction limit with
  | zero =>
    intro v args k l w u _ hw
    exact ⟨rfl, hw⟩
  | succ limit ih =>
    intro v args k l w u hk hw
    cases hc : v.payload with
    | callable c =>
      simp only [Value.callWithin, hc]
      exact apply_reorders ih c args hk hw
    | none | bool | int | float | str | list | dict | object =>
      simp only [Value.callWithin, hc]
      exact ⟨rfl, hw⟩

end HostBridge
