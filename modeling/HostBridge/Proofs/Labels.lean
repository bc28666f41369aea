import HostBridge.Call.Invoke
import HostBridge.Conversion.Shape
import HostBridge.Proofs.Equality
import HostBridge.Value.Text

/-! # Host types that nothing shows

Apart from being asked for, the host type of a value shows only if the value is a host object, in its
type name and its text. Values are compared with all other host types taken away: what a function says
of a value it says of the value without them.
-/
namespace HostBridge

/-- The host type as far as it shows. -/
def Payload.shownHost (p : Payload) (host : HostType) : HostType := match p with
  | .object _ _ => host
  | _ => .unit

mutual

/-- The value without the host types that do not show, at every depth. -/
def Value.unlabelled (v : Value) : Value :=
  match v with
  | .mk p host => .mk p.unlabelled (p.shownHost host)
termination_by structural v

def Payload.unlabelled (p : Payload) : Payload :=
  match p with
  | .list items => .list (unlabelledItems items)
  | .dict entries => .dict (unlabelledEntries entries)
  | .callable c => .callable c.unlabelled
  | p => p
termination_by structural p

def Callable.unlabelled (c : Callable) : Callable :=
  match c with
  | .bound receiver f => .bound receiver.unlabelled f.unlabelled
  | c => c
termination_by structural c

def unlabelledItems (items : List Value) : List Value :=
  match items with
  | [] => []
  | v :: rest => v.unlabelled :: unlabelledItems rest
termination_by structural items

def unlabelledEntries (entries : List (String × Value)) : List (String × Value) :=
  match entries with
  | [] => []
  | e :: rest => unlabelledEntry e :: unlabelledEntries rest
termination_by structural entries

def unlabelledEntry (e : String × Value) : String × Value :=
  match e with
  | (key, v) => (key, v.unlabelled)
termination_by structural e

end

theorem unlabelledItems_eq (items : List Value) : unlabelledItems items = items.map Value.unlabelled := by
  induction items with
  | nil => rfl
  | cons v rest ih => rw [unlabelledItems, ih, List.map_cons]

theorem unlabelledEntries_eq (entries : List (String × Value)) :
    unlabelledEntries entries = entries.map unlabelledEntry := by
  induction entries with
  | nil => rfl
  | cons e rest ih => rw [unlabelledEntries, ih, List.map_cons]

/-! ## Equality -/

mutual

theorem Value.eq_unlabelled (v w : Value) : v.unlabelled.eq w = v.eq w := by
  match v, w with
  | .mk p _, .mk q _ => simp only [Value.unlabelled, Value.eq, Payload.eq_unlabelled p q]
termination_by structural v

theorem Payload.eq_unlabelled (p q : Payload) : p.unlabelled.eq q = p.eq q := by
  match p with
  | .list xs => cases q <;> simp only [Payload.unlabelled, Payload.eq, equalItems_unlabelled xs]
  | .dict xs => cases q <;> simp only [Payload.unlabelled, Payload.eq, equalEntries_unlabelled xs]
  | .callable c =>
    cases q <;> simp only [Payload.unlabelled, Payload.eq, Callable.sameTarget_unlabelled c]
  | .none | .bool _ | .int _ | .float _ | .str _ | .object _ _ => rfl
termination_by structural p

theorem Callable.sameTarget_unlabelled (c d : Callable) :
    c.unlabelled.sameTarget d = c.sameTarget d := by
  match c with
  | .bound r f =>
    cases d <;> simp only [Callable.unlabelled, Callable.sameTarget, Value.eq_unlabelled r,
      Callable.sameTarget_unlabelled f]
  | .native _ _ | .closure _ _ _ => rfl
termination_by structural c

theorem equalItems_unlabelled (xs ys : List Value) :
    equalItems (unlabelledItems xs) ys = equalItems xs ys := by
  match xs with
  | [] => rfl
  | x :: xs =>
    cases ys <;> simp only [unlabelledItems, equalItems, Value.eq_unlabelled x,
      equalItems_unlabelled xs]
termination_by structural xs

theorem equalEntries_unlabelled (xs ys : List (String × Value)) :
    equalEntries (unlabelledEntries xs) ys = equalEntries xs ys := by
  match xs with
  | [] => rfl
  | x :: xs =>
    cases ys <;> simp only [unlabelledEntries, equalEntries, equalEntry_unlabelled x,
      equalEntries_unlabelled xs]
termination_by structural xs

theorem equalEntry_unlabelled (x y : String × Value) :
    equalEntry (unlabelledEntry x) y = equalEntry x y := by
  match x with
  | (k, v) => simp only [unlabelledEntry, equalEntry, Value.eq_unlabelled v]
termination_by structural x

end

/-! ## Text -/

theorem Callable.typeName_unlabelled (c : Callable) : c.unlabelled.typeName = c.typeName := by
  cases c <;> rfl

theorem Callable.name_unlabelled (c : Callable) : c.unlabelled.name = c.name := by
  match c with
  | .bound _ f => exact f.name_unlabelled
  | .native _ _ | .closure _ _ _ => rfl
termination_by structural c

theorem Callable.text_unlabelled (c : Callable) : c.unlabelled.text = c.text := by
  rw [Callable.text, Callable.typeName_unlabelled, Callable.name_unlabelled, Callable.text]

mutual

theorem Value.represented_unlabelled (v : Value) : v.unlabelled.represented = v.represented := by
  match v with
  | .mk p host =>
    simp only [Value.unlabelled, Value.represented, Payload.represented_unlabelled p host]
termination_by structural v

theorem Payload.represented_unlabelled (p : Payload) (host : HostType) :
    p.unlabelled.represented (p.shownHost host) = p.represented host := by
  match p with
  | .list items =>
    simp only [Payload.unlabelled, Payload.represented, representedItems_unlabelled items]
  | .dict entries =>
    simp only [Payload.unlabelled, Payload.represented, representedEntries_unlabelled entries]
  | .callable c => simp only [Payload.unlabelled, Payload.represented, c.text_unlabelled]
  | .none | .int _ | .float _ | .str _ | .object _ _ => rfl
  | .bool b => cases b <;> rfl
termination_by structural p

theorem representedItems_unlabelled (items : List Value) :
    representedItems (unlabelledItems items) = representedItems items := by
  match items with
  | [] => rfl
  | [v] => simp only [unlabelledItems, representedItems, Value.represented_unlabelled v]
  | v :: w :: rest =>
    have hrest := representedItems_unlabelled (w :: rest)
    simp only [unlabelledItems] at hrest
    simp only [unlabelledItems, representedItems, Value.represented_unlabelled v, hrest]
termination_by structural items

theorem representedEntries_unlabelled (entries : List (String × Value)) :
    representedEntries (unlabelledEntries entries) = representedEntries entries := by
  match entries with
  | [] => rfl
  | [e] => simp only [unlabelledEntries, representedEntries, representedEntry_unlabelled e]
  | e :: f :: rest =>
    have hrest := representedEntries_unlabelled (f :: rest)
    simp only [unlabelledEntries] at hrest
    simp only [unlabelledEntries, representedEntries, representedEntry_unlabelled e, hrest]
termination_by structural entries

theorem representedEntry_unlabelled (e : String × Value) :
    representedEntry (unlabelledEntry e) = representedEntry e := by
  match e with
  | (key, v) => simp only [unlabelledEntry, representedEntry, Value.represented_unlabelled v]
termination_by structural e

end

/-! ## Looking at a value -/

namespace Value
variable (v : Value)

theorem payload_unlabelled : v.unlabelled.payload = v.payload.unlabelled := by
  rcases v with ⟨p, host⟩
  rw [unlabelled, payload, payload]

theorem isNone_unlabelled : v.unlabelled.isNone = v.isNone := by
  rw [isNone, isNone, payload_unlabelled]
  cases v.payload <;> rfl

theorem isCallable_unlabelled : v.unlabelled.isCallable = v.isCallable := by
  rw [isCallable, isCallable, payload_unlabelled]
  cases v.payload <;> rfl

theorem asBool_unlabelled : v.unlabelled.asBool = v.asBool := by
  rw [asBool, asBool, payload_unlabelled]
  cases v.payload <;> rfl

theorem asInt_unlabelled : v.unlabelled.asInt = v.asInt := by
  rw [asInt, asInt, payload_unlabelled]
  cases v.payload <;> rfl

theorem asFloat_unlabelled : v.unlabelled.asFloat = v.asFloat := by
  rw [asFloat, asFloat, payload_unlabelled]
  cases v.payload <;> rfl

theorem asString_unlabelled : v.unlabelled.asString = v.asString := by
  rw [asString, asString, payload_unlabelled]
  cases v.payload <;> rfl

theorem asList_unlabelled : v.unlabelled.asList = v.asList.map unlabelledItems := by
  rw [asList, asList, payload_unlabelled]
  cases v.payload <;> rfl

theorem asDict_unlabelled : v.unlabelled.asDict = v.asDict.map unlabelledEntries := by
  rw [asDict, asDict, payload_unlabelled]
  cases v.payload <;> rfl

theorem asCallable_unlabelled : v.unlabelled.asCallable = v.asCallable.map Callable.unlabelled := by
  rw [asCallable, asCallable, payload_unlabelled]
  cases v.payload <;> rfl

theorem holds_unlabelled : v.unlabelled.holds = v.holds := by
  funext type
  rw [holds, holds, payload_unlabelled]
  cases v.payload <;> rfl

theorem isTruthy_unlabelled : v.unlabelled.isTruthy = v.isTruthy := by
  rw [isTruthy, isTruthy, payload_unlabelled]
  cases v.payload with
  | list items => simp only [Payload.unlabelled, unlabelledItems_eq, List.isEmpty_map]
  | dict entries => simp only [Payload.unlabelled, unlabelledEntries_eq, List.isEmpty_map]
  | none | bool | int | float | str | callable | object => rfl

theorem typeName_unlabelled : v.unlabelled.typeName = v.typeName := by
  rcases v with ⟨p, host⟩
  cases p with
  | callable c => exact c.typeName_unlabelled
  | none | bool | int | float | str | list | dict | object => rfl

theorem shown_unlabelled : v.unlabelled.shown = v.shown := by
  rw [shown, shown, payload_unlabelled, represented_unlabelled]
  cases v.payload <;> rfl

theorem display_unlabelled : v.unlabelled.display = v.display := by
  rw [display, shown_unlabelled, display]

theorem repr_unlabelled : v.unlabelled.repr = v.repr := by
  rw [repr, represented_unlabelled, repr]

/-- Who calls what is no callable is told so by its type name. -/
theorem call_of_not_isCallable {v : Value} (hv : v.isCallable = false) (args : List Value)
    (kwargs : Keywords) (w : World) :
    v.call args kwargs w =
      (.raised (.typeError ("'" ++ v.typeName ++ "' object is not callable")), w) := by
  rcases v with ⟨p, host⟩
  cases p with
  | callable => cases hv
  | none | bool | int | float | str | list | dict | object => rfl

end Value

/-! ## Reading -/

namespace Shape

/-- What was read, without the host types that do not show. -/
def unlabelled : (s : Shape) → s.Host → s.Host
  | object, v => v.unlabelled
  | bool, b => b
  | int, i => i
  | float, x => x
  | str, s => s
  | list of, as => as.map of.unlabelled
  | option of, a => a.map of.unlabelled

theorem orMismatch_unlabelled {α : Type} (s : Shape) (v : Value) (a : Option α) :
    s.orMismatch v.unlabelled a = (s.orMismatch v a).map id := by
  cases a with
  | none => simp only [orMismatch, Value.typeName_unlabelled, Except.map]
  | some a => rfl

theorem readEach_unlabelled {α : Type} {read : Value → Except ReadError α} {f : α → α}
    (hread : ∀ v : Value, read v.unlabelled = (read v).map f) (items : List Value) :
    readEach read (unlabelledItems items) = (readEach read items).map (List.map f) := by
  induction items with
  | nil => rfl
  | cons v rest ih =>
    rw [unlabelledItems, readEach, readEach, hread, ih]
    cases read v with
    | error e => rfl
    | ok a => cases readEach read rest <;> rfl

theorem read_unlabelled (s : Shape) (v : Value) :
    s.read v.unlabelled = (s.read v).map s.unlabelled := by
  -- Induction on the shape: the elements of a list are read by a smaller one.
  induction s generalizing v with
  | object => rfl
  | bool =>
    rw [read, read, Value.asBool_unlabelled]
    exact orMismatch_unlabelled bool v v.asBool
  | int =>
    rw [read, read, Value.asInt_unlabelled]
    exact orMismatch_unlabelled int v v.asInt
  | float =>
    rw [read, read, Value.asFloat_unlabelled]
    exact orMismatch_unlabelled float v v.asFloat
  | str =>
    rw [read, read, Value.asString_unlabelled]
    exact orMismatch_unlabelled str v v.asString
  | list of ih =>
    rw [read, read, Value.asList_unlabelled, Value.typeName_unlabelled]
    cases v.asList with
    | none => rfl
    | some items => exact readEach_unlabelled ih items
  | option of ih =>
    rw [read, read, Value.isNone_unlabelled, ih]
    cases v.isNone with
    | true => rfl
    | false => cases of.read v <;> rfl

end Shape

/-! ## Observations -/

/-- Nothing that looks at the values, apart from their host types, tells them apart. What is got out
of them is the same up to host types that do not show. -/
structure Value.Indistinguishable (v w : Value) : Prop where
  self : v.eq w = v.eq v
  others : ∀ u : Value, v.eq u = w.eq u ∧ u.eq v = u.eq w
  isTruthy : v.isTruthy = w.isTruthy
  typeName : v.typeName = w.typeName
  display : v.display = w.display
  repr : v.repr = w.repr
  isNone : v.isNone = w.isNone
  isCallable : v.isCallable = w.isCallable
  asBool : v.asBool = w.asBool
  asInt : v.asInt = w.asInt
  asFloat : v.asFloat = w.asFloat
  asString : v.asString = w.asString
  asList : v.asList.map (·.map unlabelled) = w.asList.map (·.map unlabelled)
  asDict : v.asDict.map (·.map unlabelledEntry) = w.asDict.map (·.map unlabelledEntry)
  asCallable : v.asCallable.map Callable.unlabelled = w.asCallable.map Callable.unlabelled
  holds : v.holds = w.holds
  payload : v.payload.unlabelled = w.payload.unlabelled
  read : ∀ s : Shape, (s.read v).map s.unlabelled = (s.read w).map s.unlabelled
  call : v.isCallable = false → ∀ (args : List Value) (kwargs : Keywords) (world : World),
    v.call args kwargs world =
        (.raised (.typeError ("'" ++ v.typeName ++ "' object is not callable")), world) ∧
      w.call args kwargs world = v.call args kwargs world

/-- What cannot see host types that do not show says the same of values that differ in them only. -/
theorem Value.observed_eq {α : Sort*} {f : Value → α} (hf : ∀ v : Value, f v.unlabelled = f v)
    {v w : Value} (h : v.unlabelled = w.unlabelled) : f v = f w := by
  rw [← hf v, h, hf w]

/-- Values that differ only in the host types of parts that are no host objects, at any depth, cannot
be told apart but by asking for these host types. -/
theorem labels_are_inert {v w : Value} (h : v.unlabelled = w.unlabelled) :
    v.Indistinguishable w where
  self := by
    have hw := Value.observed_eq (f := fun t => t.eq v) (fun t => Value.eq_unlabelled t v) h
    rw [Value.eq_comm v w]
    exact hw.symm
  others := by
    intro u
    have hu := Value.observed_eq (f := fun t => t.eq u) (fun t => Value.eq_unlabelled t u) h
    exact ⟨hu, by rw [Value.eq_comm u v, Value.eq_comm u w, hu]⟩
  isTruthy := Value.observed_eq Value.isTruthy_unlabelled h
  typeName := Value.observed_eq Value.typeName_unlabelled h
  display := Value.observed_eq Value.display_unlabelled h
  repr := Value.observed_eq Value.repr_unlabelled h
  isNone := Value.observed_eq Value.isNone_unlabelled h
  isCallable := Value.observed_eq Value.isCallable_unlabelled h
  asBool := Value.observed_eq Value.asBool_unlabelled h
  asInt := Value.observed_eq Value.asInt_unlabelled h
  asFloat := Value.observed_eq Value.asFloat_unlabelled h
  asString := Value.observed_eq Value.asString_unlabelled h
  asList := by
    have hlist := congrArg Value.asList h
    rw [Value.asList_unlabelled, Value.asList_unlabelled] at hlist
    simpa only [funext unlabelledItems_eq] using hlist
  asDict := by
    have hdict := congrArg Value.asDict h
    rw [Value.asDict_unlabelled, Value.asDict_unlabelled] at hdict
    simpa only [funext unlabelledEntries_eq] using hdict
  asCallable := by
    have hcallable := congrArg Value.asCallable h
    rwa [Value.asCallable_unlabelled, Value.asCallable_unlabelled] at hcallable
  holds := Value.observed_eq Value.holds_unlabelled h
  payload := by
    have hpayload := congrArg Value.payload h
    rwa [Value.payload_unlabelled, Value.payload_unlabelled] at hpayload
  read := by
    intro s
    have hread := congrArg s.read h
    rwa [Shape.read_unlabelled, Shape.read_unlabelled] at hread
  call := by
    intro hv args kwargs world
    have hname := Value.observed_eq Value.typeName_unlabelled h
    have hw : w.isCallable = false := by
      rw [← hv]
      exact (Value.observed_eq Value.isCallable_unlabelled h).symm
    have hcall := Value.call_of_not_isCallable hv args kwargs world
    refine ⟨hcall, ?_⟩
    rw [hcall, Value.call_of_not_isCallable hw, hname]

/-! A list with a bound method and a host object in it, and the same with other host types. -/

def greeter (receiver : Value) (host : HostType) : Value :=
  .mk (.callable (.bound receiver (.closure 3 "greet" 0))) host

def mixedList (number text bound whole : HostType) : Value :=
  .mk (.list [.mk (.int 7) number, greeter (.mk (.str "Ann") text) bound,
    Value.ofObject 5 ⟨"demo::Point"⟩]) whole

theorem labels_are_inert_nested :
    (let plain := mixedList .int .string .bound .list
    let other := mixedList .unit .bool .closure ⟨"demo::Point"⟩
    plain.unlabelled = other.unlabelled ∧ plain.host ≠ other.host ∧ plain.repr = other.repr) ∧
    ∀ s : Shape, (s.read (mixedList .int .string .bound .list)).map s.unlabelled =
      (s.read (mixedList .unit .bool .closure ⟨"demo::Point"⟩)).map s.unlabelled := by
  have hsame := labels_are_inert (v := mixedList .int .string .bound .list)
    (w := mixedList .unit .bool .closure ⟨"demo::Point"⟩) rfl
  exact ⟨⟨rfl, by decide, hsame.repr⟩, hsame.read⟩

end HostBridge
