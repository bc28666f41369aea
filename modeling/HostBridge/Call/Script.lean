import HostBridge.Call.Program
import HostBridge.Conversion.Shape

/-! # Scripted bodies

A small stock of bodies given as data: arithmetic on arguments, bodies that show what they were
given, that return, raise or panic, that pass a call on, and that do something else at each call.
-/
namespace HostBridge

inductive Script where
  | add
  | echo
  | count
  | first
  | nothing
  | greet
  | describe
  | applyFirst
  | look
  | reset
  | panics (p : Panic)
  | returns (v : Value)
  | raises (e : Exception)
  | argument (index : Nat) (shape : Shape)
  | keyword (name : String)
  | forward (target : Value)
  /-- One part after another at successive calls; the last part repeats. -/
  | cycle (cell : Cell) (parts : List Script)

namespace Script

def reading {α : Type} (result : Except ReadError α) (next : α → Program) : Program :=
  match result with
  | .ok a => next a
  | .error e => .raise e.exception

def counter (n : UInt64) : Value := Value.ofInt n.toInt64

/-- The sum of the arguments that count as integers, each times the scale. -/
def scaledSum (args : List Value) (scale : Int64) : Int64 :=
  args.foldl (fun sum v => match v.asInt with
    | some i => sum + i * scale
    | none => sum) 0

def scale (kwargs : Keywords) : Int64 :=
  ((kwargs.get? "scale").bind Value.asInt).getD 1

def turn (behaviours : List Behaviour) (n : Nat) : Behaviour :=
  (behaviours[min n (behaviours.length - 1)]?).getD fun _ _ => .give Value.none

mutual

def behaviour (s : Script) : Behaviour :=
  match s with
  | add => fun args _ =>
    reading (Shape.int.argument args 0) fun a =>
      reading (Shape.int.argument args 1) fun b => .give (Value.ofInt (Int64.add a b))
  | echo => fun args kwargs => .give (Value.ofList [Value.ofList args, kwargs.snapshot])
  | count => fun args _ => .give (Value.ofInt (Int64.ofNat args.length))
  | first => fun args _ => reading (Shape.object.convertArgument args 0) .give
  | nothing => fun _ _ => .give Value.none
  | greet => fun _ _ => .give (Value.ofString "hello")
  | describe => fun args kwargs =>
    .give (Value.ofList
      [Value.ofList args, kwargs.snapshot, Value.ofInt (scaledSum args (scale kwargs))])
  | applyFirst => fun args kwargs =>
    reading (Shape.object.convertArgument args 0) fun target =>
      .call target (args.drop 1) kwargs .finish
  | look => fun _ _ => .look fun s =>
    .give (Value.ofList [counter s.calls, counter s.denied, counter s.raised])
  | reset => fun _ _ => .reset (.give Value.none)
  | panics p => fun _ _ => .panic p
  | returns v => fun _ _ => .give v
  | raises e => fun _ _ => .raise e
  | argument index shape => fun args _ => reading (shape.convertArgument args index) .give
  | keyword name => fun _ kwargs => match kwargs.get? name with
    | some v => .give v
    | none => .raise (.raised .keyError name)
  | forward target => fun args kwargs => .call target args kwargs .finish
  | cycle cell parts => fun args kwargs =>
    .fetch cell fun kept =>
      let n := (kept.asInt.getD 0).toInt.toNat
      .keep cell (Value.ofInt (Int64.ofNat (n + 1))) (turn (behaviours parts) n args kwargs)
termination_by structural s

def behaviours (parts : List Script) : List Behaviour :=
  match parts with
  | [] => []
  | s :: rest => s.behaviour :: behaviours rest
termination_by structural parts

end

end Script

end HostBridge
