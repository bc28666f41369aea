import HostBridge.Proofs.Native

/-! # Layers of a call

A call may pass through many natives, bound methods and closures before it comes to a body that does
more than pass it on. It goes down through these layers, that body runs, and its end comes up through
the same layers: bound methods and closures hand it on, each native takes its leave.
-/
namespace HostBridge

inductive Layer where
  | native (settings : NativeSettings) (method : Method)
  | bound (receiver : Value)
  | closure (name : String)

structure BodyRun where
  body : BodyId
  args : List Value
  kwargs : Keywords
  world : World

def BodyRun.run (r : BodyRun) (call : Caller) : Outcome × World :=
  runBody call r.body r.args r.kwargs r.world

/-- On these arguments the body just calls the callable, and passes on what that raises. -/
def Forwards (w : World) (body : BodyId) (args : List Value) (kwargs : Keywords) (f : Callable)
    (args' : List Value) (kwargs' : Keywords) : Prop :=
  ∃ behaviour target next, w.bodies[body]? = some behaviour ∧
    behaviour args kwargs = .call target args' kwargs' next ∧ target.payload = .callable f ∧
    ∀ e, next (.error e) = .raise e

/-- Applying the callable goes down through the layers, the outermost first, to the inner body. Every
native on the way is accessible. -/
inductive Descends (inner : BodyRun) :
    List Layer → Callable → List Value → Keywords → World → Prop where
  | closure (handle : Handle) (name : String) :
      Descends inner [.closure name] (.closure handle name inner.body) inner.args inner.kwargs
        inner.world
  | native {handle : Handle} {m : Method} {w : World} (reach : m.isAccessible = true)
      (hbody : inner.body = m.body) (hw : inner.world = w.announce m inner.args inner.kwargs) :
      Descends inner [.native (w.settings handle) m] (.native handle m) inner.args inner.kwargs w
  | throughBound {layers : List Layer} {receiver : Value} {f : Callable} {args : List Value}
      {kwargs : Keywords} {w : World} (rest : Descends inner layers f (receiver :: args) kwargs w) :
      Descends inner (.bound receiver :: layers) (.bound receiver f) args kwargs w
  | throughClosure {layers : List Layer} {handle : Handle} {name : String} {body : BodyId}
      {f : Callable} {args args' : List Value} {kwargs kwargs' : Keywords} {w : World}
      (forwards : Forwards w body args kwargs f args' kwargs')
      (rest : Descends inner layers f args' kwargs' w) :
      Descends inner (.closure name :: layers) (.closure handle name body) args kwargs w
  | throughNative {layers : List Layer} {handle : Handle} {m : Method} {f : Callable}
      {args args' : List Value} {kwargs kwargs' : Keywords} {w : World}
      (reach : m.isAccessible = true)
      (forwards : Forwards (w.announce m args kwargs) m.body args kwargs f args' kwargs')
      (rest : Descends inner layers f args' kwargs' (w.announce m args kwargs)) :
      Descends inner (.native (w.settings handle) m :: layers) (.native handle m) args kwargs w

namespace Layer

def isNative : Layer → Bool
  | native .. => true
  | bound _ | closure _ => false

/-- Natives and closures have a body in progress while the call is below them. -/
def hasBody : Layer → Bool
  | native .. | closure _ => true
  | bound _ => false

def ascend : Layer → Outcome × World → Outcome × World
  | native settings m, ended => leave settings m (m.take settings ended.1) ended.2
  | bound _, ended | closure _, ended => ended

def ascendAll (layers : List Layer) (ended : Outcome × World) : Outcome × World :=
  layers.foldr ascend ended

def depth (layers : List Layer) : Nat := layers.countP hasBody

def natives (layers : List Layer) : Nat := layers.countP isNative

theorem ascendAll_native (settings : NativeSettings) (m : Method) (layers : List Layer)
    (ended : Outcome × World) :
    ascendAll (native settings m :: layers) ended =
      leave settings m (m.take settings (ascendAll layers ended).1) (ascendAll layers ended).2 := rfl

theorem ascendAll_append (outer below : List Layer) (ended : Outcome × World) :
    ascendAll (outer ++ below) ended = ascendAll outer (ascendAll below ended) :=
  List.foldr_append

theorem natives_native (settings : NativeSettings) (m : Method) (layers : List Layer) :
    natives (native settings m :: layers) = natives layers + 1 := List.countP_cons_of_pos rfl

theorem depth_cons {l : Layer} (hl : l.hasBody = true) (layers : List Layer) :
    depth (l :: layers) = depth layers + 1 := List.countP_cons_of_pos hl

end Layer

open Layer

def Outcome.isReturned : Outcome → Bool
  | returned _ => true
  | raised _ | panicked _ | overflowed => false

theorem isReturned_ascend (l : Layer) {ended : Outcome × World}
    (h : ended.1.isReturned = false) : (l.ascend ended).1.isReturned = false := by
  rcases ended with ⟨o, w⟩
  cases l with
  | bound | closure => exact h
  | native settings m =>
    rw [ascend, leave_answer]
    cases o with
    | returned v => cases h
    | raised e => rfl
    | panicked p => cases hc : settings.catchPanics <;> simp [Method.take, hc] <;> rfl
    | overflowed => rfl

theorem isReturned_ascendAll (layers : List Layer) {ended : Outcome × World}
    (h : ended.1.isReturned = false) : (ascendAll layers ended).1.isReturned = false := by
  induction layers with
  | nil => exact h
  | cons l rest ih => exact isReturned_ascend l ih

theorem Forwards.run_eq {w : World} {body : BodyId} {args args' : List Value}
    {kwargs kwargs' : Keywords} {f : Callable} {n : Nat} {ended : Outcome × World}
    (hf : Forwards w body args kwargs f args' kwargs')
    (he : f.apply (Value.callWithin n) args' kwargs' w = ended)
    (ho : ended.1.isReturned = false) :
    runBody (Value.callWithin (n + 1)) body args kwargs w = ended := by
  obtain ⟨behaviour, target, next, hb, hcall, htarget, hnext⟩ := hf
  have hc : target.callWithin (n + 1) args' kwargs' w = ended := by
    simp only [Value.callWithin, htarget, he]
  rcases ended with ⟨o, w'⟩
  simp only [runBody, hb, hcall, Program.perform, hc]
  cases o with
  | returned v => cases ho
  | raised e => simp only [hnext]; rfl
  | panicked p => rfl
  | overflowed => rfl

/-- The end of the inner body comes up through all layers, unless it is a value, which a layer may
still change. -/
theorem Descends.apply_eq {inner : BodyRun} {layers : List Layer} {c : Callable}
    {args : List Value} {kwargs : Keywords} {w : World} (hd : Descends inner layers c args kwargs w)
    {spare : Nat} {ended : Outcome × World} (hr : inner.run (Value.callWithin spare) = ended)
    (ho : ended.1.isReturned = false) :
    ∃ n, n + 1 = depth layers + spare ∧
      c.apply (Value.callWithin n) args kwargs w = ascendAll layers ended := by
  -- Each layer with a body takes one from the limit, and gives it back to what is outside of it.
  induction hd with
  | closure handle name => exact ⟨spare, Nat.add_comm .., hr⟩
  | native reach hbody hw =>
    refine ⟨spare, Nat.add_comm .., ?_⟩
    rw [BodyRun.run, hbody, hw] at hr
    exact callNative_of_accessible reach hr
  | throughBound _ ih => exact ih
  | throughClosure forwards _ ih =>
    obtain ⟨n, hn, hf⟩ := ih
    refine ⟨n + 1, ?_, forwards.run_eq hf (isReturned_ascendAll _ ho)⟩
    rw [hn, depth, depth, List.countP_cons_of_pos rfl]
    omega
  | throughNative reach forwards _ ih =>
    obtain ⟨n, hn, hf⟩ := ih
    refine ⟨n + 1, ?_, callNative_of_accessible reach
      (forwards.run_eq hf (isReturned_ascendAll _ ho))⟩
    rw [hn, depth, depth, List.countP_cons_of_pos rfl]
    omega

theorem Descends.call_eq {inner : BodyRun} {layers : List Layer} {v : Value} {c : Callable}
    {args : List Value} {kwargs : Keywords} {w : World} (hv : v.payload = .callable c)
    (hd : Descends inner layers c args kwargs w) {spare : Nat} {ended : Outcome × World}
    (hr : inner.run (Value.callWithin spare) = ended) (ho : ended.1.isReturned = false) :
    v.callWithin (depth layers + spare) args kwargs w = ascendAll layers ended := by
  obtain ⟨n, hn, he⟩ := hd.apply_eq hr ho
  rw [← hn]
  simp only [Value.callWithin, hv, he]

/-! ## Layers around any body

A bound native around a native around a closure around a native; only the native in the middle
catches panics.
-/

def forwarding (f : Callable) : Behaviour := fun args kwargs =>
  .call (Value.ofCallable f) args kwargs .finish

def bursting : Method := ⟨"demo.Host", "burst", .isPublic, false, true, 0⟩

def shielding : Method := ⟨"demo.Host", "shield", .isPrivate, true, true, 2⟩

def fronting : Method := ⟨"demo.Host", "front", .isPublic, false, true, 3⟩

def nestedWorld (innermost : Behaviour) : World :=
  { World.initial with
    constructions := #[.native bursting { catchPanics := false }, .closure "through" 1,
      .native shielding {}, .native fronting { catchPanics := false }]
    bodies := #[innermost, forwarding (.native 0 bursting), forwarding (.closure 1 "through" 1),
      forwarding (.native 2 shielding)] }

def nestedLayers : List Layer :=
  [.bound Value.none, .native { catchPanics := false } fronting, .native {} shielding,
    .closure "through", .native { catchPanics := false } bursting]

def nestedCall (innermost : Behaviour) : Outcome × World :=
  (Value.ofCallable (.bound Value.none (.native 3 fronting))).callWithin 4 [] .empty
    (nestedWorld innermost)

def nestedRun (innermost : Behaviour) : BodyRun :=
  ⟨0, [Value.none], .empty, (((nestedWorld innermost).announce fronting [Value.none] .empty).announce
    shielding [Value.none] .empty).announce bursting [Value.none] .empty⟩

theorem descends_nested (innermost : Behaviour) :
    Descends (nestedRun innermost) nestedLayers (.bound Value.none (.native 3 fronting)) [] .empty
      (nestedWorld innermost) := by
  have hd : Descends (nestedRun innermost) _ (.bound Value.none (.native 3 fronting)) [] .empty
      (nestedWorld innermost) :=
    .throughBound (.throughNative rfl ⟨_, _, _, rfl, rfl, rfl, fun _ => rfl⟩
      (.throughNative rfl ⟨_, _, _, rfl, rfl, rfl, fun _ => rfl⟩
        (.throughClosure ⟨_, _, _, rfl, rfl, rfl, fun _ => rfl⟩ (.native rfl rfl rfl))))
  exact hd

end HostBridge
