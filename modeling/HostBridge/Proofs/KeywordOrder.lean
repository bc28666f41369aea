import HostBridge.Proofs.Layers
import HostBridge.Proofs.Reordering
import HostBridge.Value.Equality
import HostBridge.Value.Text

/-! # The order of keywords never shows

The snapshot of keywords has their names in ascending order, whatever order they were given in. What
is handed on through natives, bound methods and closures are the keywords themselves, so a body inside
of all these layers gets to see the same snapshot.
-/
namespace HostBridge

/-! ## Keywords given one after another -/

theorem setEntry_of_fresh {name : String} {value : Value} {entries : List (String × Value)}
    (h : name ∉ entries.map Prod.fst) :
    setEntry name value entries = entries ++ [(name, value)] := by
  induction entries with
  | nil => rfl
  | cons entry rest ih =>
    rw [List.map_cons, List.mem_cons, not_or] at h
    rw [setEntry, if_neg h.1, ih h.2, List.cons_append]

theorem Keywords.entries_ofList {xs : List (String × Value)} (h : (xs.map Prod.fst).Nodup) :
    (Keywords.ofList xs).entries = xs := by
  induction xs using List.reverseRecOn with
  | nil => rfl
  | append_singleton rest last ih =>
    rw [List.map_append, List.nodup_append] at h
    obtain ⟨hrest, -, hfresh⟩ := h
    have hlast : last.1 ∉ rest.map Prod.fst := fun hmem =>
      hfresh _ hmem _ (List.mem_singleton_self _) rfl
    have hstep : Keywords.ofList (rest ++ [last]) =
        (Keywords.ofList rest).insert last.1 last.2 := by
      rw [Keywords.ofList, List.foldl_append, List.foldl_cons, List.foldl_nil, Keywords.ofList]
    rw [hstep]
    change setEntry last.1 last.2 (Keywords.ofList rest).entries = _
    rw [ih hrest, setEntry_of_fresh hlast]

theorem Keywords.reorders_ofList {xs ys : List (String × Value)} (h : (xs.map Prod.fst).Nodup)
    (hp : xs.Perm ys) : (Keywords.ofList xs).Reorders (Keywords.ofList ys) := by
  rw [Keywords.Reorders, Keywords.entries_ofList h,
    Keywords.entries_ofList ((hp.map _).nodup_iff.mp h)]
  exact hp

/-! ## Through layers -/

/-- Whatever keywords the body gets with these arguments, it just calls the callable with them and
hands on the answer. -/
def HandsOn (w : World) (body : BodyId) (args : List Value) (f : Callable) (args' : List Value) :
    Prop :=
  ∃ behaviour target, w.bodies[body]? = some behaviour ∧ target.payload = .callable f ∧
    ∀ kwargs, behaviour args kwargs = .call target args' kwargs .finish

/-- A call of the callable with the keywords of the inner body goes down through the layers, the
outermost first, to the inner body. -/
inductive Leads (inner : BodyRun) : List Layer → Callable → List Value → World → Prop where
  | closure (handle : Handle) (name : String) :
      Leads inner [.closure name] (.closure handle name inner.body) inner.args inner.world
  | native {handle : Handle} {m : Method} {w : World} (reach : m.isAccessible = true)
      (hbody : inner.body = m.body) (hw : inner.world = w.announce m inner.args inner.kwargs) :
      Leads inner [.native (w.settings handle) m] (.native handle m) inner.args w
  | throughBound {layers : List Layer} {receiver : Value} {f : Callable} {args : List Value}
      {w : World} (rest : Leads inner layers f (receiver :: args) w) :
      Leads inner (.bound receiver :: layers) (.bound receiver f) args w
  | throughClosure {layers : List Layer} {handle : Handle} {name : String} {body : BodyId}
      {f : Callable} {args args' : List Value} {w : World} (hands : HandsOn w body args f args')
      (rest : Leads inner layers f args' w) :
      Leads inner (.closure name :: layers) (.closure handle name body) args w
  | throughNative {layers : List Layer} {handle : Handle} {m : Method} {f : Callable}
      {args args' : List Value} {w : World} (reach : m.isAccessible = true)
      (hands : HandsOn (w.announce m args inner.kwargs) m.body args f args')
      (rest : Leads inner layers f args' (w.announce m args inner.kwargs)) :
      Leads inner (.native (w.settings handle) m :: layers) (.native handle m) args w

theorem HandsOn.run_eq {w : World} {body : BodyId} {args args' : List Value} {f : Callable}
    (h : HandsOn w body args f args') (n : Nat) (kwargs : Keywords) :
    runBody (Value.callWithin (n + 1)) body args kwargs w =
      f.apply (Value.callWithin n) args' kwargs w := by
  obtain ⟨behaviour, target, hb, htarget, hcall⟩ := h
  simp only [runBody, hb, hcall, Program.perform, Value.callWithin, htarget]
  rcases f.apply (Value.callWithin n) args' kwargs w with ⟨o, w'⟩
  cases o <;> rfl

theorem World.announce_of_size {w : World} {m : Method} {args : List Value} {k l : Keywords}
    (h : l.size = k.size) : w.announce m args l = w.announce m args k := by
  rw [World.announce, World.announce, h]

open Layer

namespace Leads
variable {inner : BodyRun} {layers : List Layer} {c : Callable} {args : List Value} {w : World}

/-- Only the number of keywords is reported on the way. -/
theorem with_kwargs (h : Leads inner layers c args w) {l : Keywords}
    (hl : l.size = inner.kwargs.size) : Leads { inner with kwargs := l } layers c args w := by
  induction h with
  | closure handle name => exact @closure { inner with kwargs := l } handle name
  | native reach hbody hw => exact .native reach hbody (hw.trans (World.announce_of_size hl).symm)
  | throughBound _ ih => exact .throughBound ih
  | throughClosure hands _ ih => exact .throughClosure hands ih
  | throughNative reach hands _ ih =>
    rw [← World.announce_of_size hl] at hands ih
    exact .throughNative reach hands ih

/-- However the inner body ends, its end comes up through all layers. -/
theorem apply_eq (h : Leads inner layers c args w) (spare : Nat) :
    ∃ n, n + 1 = depth layers + spare ∧
      c.apply (Value.callWithin n) args inner.kwargs w =
        ascendAll layers (inner.run (Value.callWithin spare)) := by
  -- Each layer with a body takes one from the limit, and gives it back to what is outside of it.
  induction h with
  | closure handle name => exact ⟨spare, Nat.add_comm .., rfl⟩
  | native reach hbody hw =>
    refine ⟨spare, Nat.add_comm .., ?_⟩
    rw [BodyRun.run, hbody, hw]
    exact callNative_of_accessible reach rfl
  | throughBound _ ih => exact ih
  | throughClosure hands _ ih =>
    obtain ⟨n, hn, hf⟩ := ih
    refine ⟨n + 1, ?_, (hands.run_eq n _).trans hf⟩
    rw [hn, depth_cons rfl]
    omega
  | throughNative reach hands _ ih =>
    obtain ⟨n, hn, hf⟩ := ih
    refine ⟨n + 1, ?_, callNative_of_accessible reach ((hands.run_eq n _).trans hf)⟩
    rw [hn, depth_cons rfl]
    omega

theorem call_eq {v : Value} (hv : v.payload = .callable c) (h : Leads inner layers c args w)
    (spare : Nat) :
    v.callWithin (depth layers + spare) args inner.kwargs w =
      ascendAll layers (inner.run (Value.callWithin spare)) := by
  obtain ⟨n, hn, he⟩ := h.apply_eq spare
  rw [← hn]
  simp only [Value.callWithin, hv, he]

end Leads

/-! ## Nothing shows -/

/-- Nothing tells the keywords apart, except their order itself. -/
structure Keywords.Indistinguishable (k l : Keywords) : Prop where
  size : l.size = k.size
  get? : ∀ name, l.get? name = k.get? name
  snapshot : l.snapshot = k.snapshot
  display : l.snapshot.display = k.snapshot.display
  repr : l.snapshot.repr = k.snapshot.repr
  equality : ∀ v : Value, l.snapshot.eq v = k.snapshot.eq v ∧ v.eq l.snapshot = v.eq k.snapshot
  /-- Called through layers with these or those keywords, the inner body gets the same arguments in
  the same world, and these or those keywords. -/
  layers : ∀ {inner : BodyRun} {layers : List Layer} {v : Value} {c : Callable} {args : List Value}
    {w : World}, v.payload = .callable c → inner.kwargs = k → Leads inner layers c args w →
    ∀ spare,
      v.callWithin (depth layers + spare) args k w =
        ascendAll layers (inner.run (Value.callWithin spare)) ∧
      v.callWithin (depth layers + spare) args l w =
        ascendAll layers ({ inner with kwargs := l }.run (Value.callWithin spare))
  /-- As long as no body goes by the order, no call does, through whatever it passes. -/
  calls : ∀ (v : Value) (args : List Value) {w : World} (limit : Nat), w.OrderBlind →
    EndsReordered (v.callWithin limit args k w) (v.callWithin limit args l w)

theorem Keywords.Reorders.indistinguishable {k l : Keywords} (h : k.Reorders l) :
    k.Indistinguishable l where
  size := h.size
  get? := h.get?
  snapshot := h.snapshot
  display := by rw [h.snapshot]
  repr := by rw [h.snapshot]
  equality v := by rw [h.snapshot]; exact ⟨rfl, rfl⟩
  layers hv hk hl spare := by
    subst hk
    exact ⟨hl.call_eq hv spare, (hl.with_kwargs h.size).call_eq hv spare⟩
  calls v args _ limit hw := callWithin_reorders limit v args h (.refl hw)

/-- The snapshot of keywords has exactly their names and values, with the names ascending, in
whatever order the entries come. So two ways of giving the same keywords, with no name given twice,
make no difference: not to snapshots, not to a body that gets the keywords through any layers, and
not to calls of whatever else does not go by the order. -/
theorem keyword_order_never_shows {xs ys : List (String × Value)} (hn : (xs.map Prod.fst).Nodup)
    (hp : xs.Perm ys) :
    (∀ (kwargs : Keywords) (order : List (String × Value)), order.Perm kwargs.entries →
      Value.ofEntries order = kwargs.snapshot ∧
      ∃ sorted, kwargs.snapshot = .mk (.dict sorted) .dict ∧ sorted.Perm kwargs.entries ∧
        Value.Ascending sorted) ∧
    (Keywords.ofList xs).entries.Perm xs ∧ (Keywords.ofList ys).entries.Perm xs ∧
    (Keywords.ofList xs).Indistinguishable (Keywords.ofList ys) := by
  have hys : (ys.map Prod.fst).Nodup := (hp.map _).nodup_iff.mp hn
  refine ⟨fun kwargs order ho => ⟨?_, ?_⟩, ?_, ?_, (Keywords.reorders_ofList hn hp).indistinguishable⟩
  · rw [Value.ofEntries, Value.sortEntries_eq_of_perm ((ho.map _).nodup_iff.mpr kwargs.nodup) ho]
    rfl
  · exact ⟨Value.sortEntries kwargs.entries, rfl, Value.sortEntries_perm kwargs.nodup,
      Value.ascending_sortEntries kwargs.entries⟩
  · rw [Keywords.entries_ofList hn]
  · rw [Keywords.entries_ofList hys]
    exact hp.symm

/-! Keywords in two orders, called through a bound native around a native around a closure around a
native whose body answers the snapshot. -/

def seeing : Behaviour := fun _ kwargs => .give kwargs.snapshot

def givenPairs : List (String × Value) :=
  [("size", .ofInt 3), ("Ångström", .ofBool true), ("Color", .ofString "red")]

def seeingRun (kwargs : Keywords) : BodyRun :=
  ⟨0, [Value.none], kwargs, (((nestedWorld seeing).announce fronting [Value.none] kwargs).announce
    shielding [Value.none] kwargs).announce bursting [Value.none] kwargs⟩

theorem leads_seeing (kwargs : Keywords) :
    Leads (seeingRun kwargs) nestedLayers (.bound Value.none (.native 3 fronting)) []
      (nestedWorld seeing) := by
  have hl : Leads (seeingRun kwargs) _ (.bound Value.none (.native 3 fronting)) []
      (nestedWorld seeing) :=
    .throughBound (.throughNative rfl ⟨_, _, rfl, rfl, fun _ => rfl⟩
      (.throughNative rfl ⟨_, _, rfl, rfl, fun _ => rfl⟩
        (.throughClosure ⟨_, _, rfl, rfl, fun _ => rfl⟩ (.native rfl rfl rfl))))
  exact hl

theorem forwarding_reorders (f : Callable) : Behaviour.Reorders (forwarding f) (forwarding f) :=
  fun _ _ _ hk => .call _ _ hk .finish

theorem seeing_reorders : Behaviour.Reorders seeing seeing := by
  intro args k l hk
  rw [seeing, seeing, hk.snapshot]
  exact .finish _

theorem orderBlind_seeing : (nestedWorld seeing).OrderBlind := by
  simp only [World.OrderBlind, nestedWorld, List.forall_mem_cons, ← Array.mem_toList_iff]
  exact ⟨seeing_reorders, forwarding_reorders _, forwarding_reorders _, forwarding_reorders _, by simp⟩

def seeingCallee : Value := .ofCallable (.bound Value.none (.native 3 fronting))

def seeingCall (kwargs : Keywords) : Outcome × World :=
  seeingCallee.callWithin 4 [] kwargs (nestedWorld seeing)

theorem keyword_order_never_shows_seeing :
    (seeingCall (.ofList givenPairs.reverse)).1 = .returned (.mk (.dict
      [("Color", .ofString "red"), ("size", .ofInt 3), ("Ångström", .ofBool true)]) .dict) ∧
    EndsReordered (seeingCall (.ofList givenPairs)) (seeingCall (.ofList givenPairs.reverse)) := by
  obtain ⟨-, -, -, h⟩ :=
    keyword_order_never_shows (by decide) givenPairs.reverse_perm.symm
  have hcallee : seeingCallee.payload = .callable (.bound Value.none (.native 3 fronting)) := rfl
  have hinner := (h.layers hcallee rfl (leads_seeing _) 0).2
  have hsnapshot : (Keywords.ofList givenPairs).snapshot = .mk (.dict
      [("Color", .ofString "red"), ("size", .ofInt 3), ("Ångström", .ofBool true)]) .dict := by
    rfl
  refine ⟨?_, h.calls _ _ 4 orderBlind_seeing⟩
  calc (seeingCall (.ofList givenPairs.reverse)).1
      = .returned (Keywords.ofList givenPairs.reverse).snapshot := congrArg Prod.fst hinner
    _ = _ := by rw [h.snapshot, hsnapshot]

end HostBridge
