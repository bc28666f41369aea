/-! # Records

A record is written as its name and its fields between braces, in order. A record that keeps a field
to itself ends in two points.
-/
namespace HostBridge.Text

structure RecordField where
  name : String
  text : String

def RecordField.write (f : RecordField) : String := f.name ++ ": " ++ f.text

def braced (name : String) (parts : List String) : String :=
  name ++ " \x7b " ++ ", ".intercalate parts ++ " \x7d"

def record (name : String) (fields : List RecordField) : String :=
  braced name (fields.map RecordField.write)

def openRecord (name : String) (fields : List RecordField) : String :=
  braced name (fields.map RecordField.write ++ [".."])

def truthWord (b : Bool) : String := if b then "true" else "false"

end HostBridge.Text
