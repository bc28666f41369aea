import HostBridge.Text.Shown

/-! # Escaped text

Text between double quotes in which every character can be seen: the two characters that would be
misread and the usual controls have short escapes, whatever else does not show itself is written
by its code point. Records, log fields and configuration errors use this form.
-/
namespace HostBridge.Text

def hexDigits (n : Nat) : List Char := Nat.toDigits 16 n

def byCodePoint (c : Char) : List Char :=
  ['\\', 'u', '\x7b'] ++ hexDigits c.toNat ++ ['\x7d']

def escapedChar (c : Char) : List Char :=
  if c = '\x00' then ['\\', '0']
  else if c = '\t' then ['\\', 't']
  else if c = '\r' then ['\\', 'r']
  else if c = '\n' then ['\\', 'n']
  else if c = '"' then ['\\', '"']
  else if c = '\\' then ['\\', '\\']
  else if isShown c then [c]
  else byCodePoint c

def escaped (s : String) : String :=
  String.ofList ('"' :: s.toList.flatMap escapedChar ++ ['"'])

end HostBridge.Text
