import HostBridge.Number.Text
import HostBridge.Text.Quoted
import HostBridge.Value.Basic

/-! # Values as text

A value is represented with texts between quotes, at every depth; the keys of a dict stand between
quotes as they are. A value is shown as it is represented, except that a text is shown bare.
-/
namespace HostBridge

mutual

def Value.represented (v : Value) : List Char :=
  match v with
  | .mk p host => p.represented host
termination_by structural v

def Payload.represented (p : Payload) (host : HostType) : List Char :=
  match p with
  | .none => "None".toList
  | .bool true => "True".toList
  | .bool false => "False".toList
  | .int i => (toString i.toInt).toList
  | .float x => (x.text .value).toList
  | .str s => (Text.quoted s).toList
  | .list items => '[' :: representedItems items
  | .dict entries => '\x7b' :: representedEntries entries
  | .callable c => c.text.toList
  | .object _ _ => '<' :: host.short.toList ++ " object>".toList
termination_by structural p

def representedItems (items : List Value) : List Char :=
  match items with
  | [] => [']']
  | [v] => v.represented ++ [']']
  | v :: rest => v.represented ++ ',' :: ' ' :: representedItems rest
termination_by structural items

def representedEntries (entries : List (String × Value)) : List Char :=
  match entries with
  | [] => ['\x7d']
  | [e] => representedEntry e ++ ['\x7d']
  | e :: rest => representedEntry e ++ ',' :: ' ' :: representedEntries rest
termination_by structural entries

def representedEntry (e : String × Value) : List Char :=
  match e with
  | (key, v) => '\'' :: key.toList ++ '\'' :: ':' :: ' ' :: v.represented
termination_by structural e

end

namespace Value

def shown (v : Value) : List Char := match v.payload with
  | .str s => s.toList
  | _ => v.represented

def display (v : Value) : String := String.ofList v.shown

def repr (v : Value) : String := String.ofList v.represented

def debug (v : Value) : String := "DynamicValue(" ++ v.repr ++ " as " ++ v.host.name ++ ")"

end Value

end HostBridge
