import HostBridge.Value.Basic

/-! # Equality of values

Two values are equal when their payloads are; the host type does not count. An integer equals the
number it is rounded to. Natives, closures and host objects are compared by handle, bound methods by
receiver and function, so equality of values and identity of callables refer to each other.
-/
namespace HostBridge

mutual

def Value.eq (v w : Value) : Bool :=
  match v, w with
  | .mk p _, .mk q _ => p.eq q
termination_by structural v

def Payload.eq (p q : Payload) : Bool :=
  match p, q with
  | .none, .none => true
  | .bool a, .bool b => a == b
  | .int a, .int b => a == b
  | .float x, .float y => x.eq y
  | .int a, .float y => (Binary64.ofInt a.toInt).eq y
  | .float x, .int b => (Binary64.ofInt b.toInt).eq x
  | .str s, .str t => s == t
  | .list xs, .list ys => equalItems xs ys
  | .dict xs, .dict ys => equalEntries xs ys
  | .callable a, .callable b => a.sameTarget b
  | .object h _, .object k _ => h == k
  | _, _ => false
termination_by structural p

/-- Both are the same wrapped target with the same receivers. -/
def Callable.sameTarget (a b : Callable) : Bool :=
  match a, b with
  | .native h _, .native k _ => h == k
  | .bound r f, .bound s g => r.eq s && f.sameTarget g
  | .closure h _ _, .closure k _ _ => h == k
  | _, _ => false
termination_by structural a

def equalItems (xs ys : List Value) : Bool :=
  match xs, ys with
  | [], [] => true
  | x :: xs, y :: ys => x.eq y && equalItems xs ys
  | _, _ => false
termination_by structural xs

def equalEntries (xs ys : List (String × Value)) : Bool :=
  match xs, ys with
  | [], [] => true
  | x :: xs, y :: ys => equalEntry x y && equalEntries xs ys
  | _, _ => false
termination_by structural xs

def equalEntry (x y : String × Value) : Bool :=
  match x, y with
  | (k, v), (l, w) => k == l && v.eq w
termination_by structural x

end

/-- Both are natives and wrap one method handle. -/
def Callable.sameMethod? (a b : Callable) : Option Bool :=
  match a, b with
  | .native h _, .native k _ => some (h == k)
  | _, _ => none

end HostBridge
