/-! # Quoted text

Text between single quotes. A quote or a backslash inside is written with a backslash before it and
everything else as it is, so the closing quote is the first bare one.
-/
namespace HostBridge.Text

def quotedChar (c : Char) : List Char :=
  if c = '\\' then ['\\', '\\'] else if c = '\'' then ['\\', '\''] else [c]

def quotedBody (cs : List Char) : List Char := cs.flatMap quotedChar

def quoted (s : String) : String :=
  String.ofList ('\'' :: quotedBody s.toList ++ ['\''])

end HostBridge.Text
