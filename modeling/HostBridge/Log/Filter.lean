import HostBridge.Log.Settings

/-! # Filters

A filter is a list of directives. Each allows the records of a source up to a level; of the
directives that speak of a record's source the one that names it most closely decides, and of two
for one source the later.
-/
namespace HostBridge

structure Directive where
  /-- The beginning of the source's name; without one, every source is meant. -/
  target : Option String
  most : Option Level
deriving DecidableEq, Repr

abbrev Filter := List Directive

namespace Directive

def speaksOf (d : Directive) (source : String) : Bool :=
  match d.target with
  | none => true
  | some target => target.toList.isPrefixOf source.toList

def closeness (d : Directive) : Nat :=
  match d.target with
  | none => 0
  | some target => target.toList.length + 1

def allows (d : Directive) (level : Level) : Bool :=
  match d.most with
  | none => false
  | some most => level.rank ≤ most.rank

/-- The bounds that words and digits name; one of them shows nothing. -/
def bound? (word : String) : Option (Option Level) :=
  if word.map Char.toLower = "off" || word = "0" then some none
  else match word.toList with
    | [c] => if c.isDigit then (Level.ofRank? (c.toNat - 48)).map some else none
    | _ => (Level.ofName? word).map some

def isTargetChar (c : Char) : Bool := c.isAlphanum || c = '_' || c = ':' || c = '-'

/-- A directive: a bound, a source, or a source and its bound. A source alone is shown in full. -/
def ofText? (text : String) : Option Directive :=
  let target := text.toList.takeWhile (· != '=')
  if target.isEmpty || !target.all isTargetChar then none
  else
    match text.toList.dropWhile (· != '=') with
    | [] =>
      match bound? text with
      | some most => some ⟨none, most⟩
      | none => some ⟨some text, some .trace⟩
    | [_] => some ⟨some (String.ofList target), some .trace⟩
    | _ :: bound =>
      (bound? (String.ofList bound)).map fun most => ⟨some (String.ofList target), most⟩

end Directive

namespace Filter

def deciding (source : String) : Filter → Option Directive
  | [] => none
  | d :: rest =>
    match deciding source rest with
    | some later =>
      if d.speaksOf source && later.closeness < d.closeness then some d else some later
    | none => if d.speaksOf source then some d else none

def shows (f : Filter) (source : String) (level : Level) : Bool :=
  match f.deciding source with
  | some d => d.allows level
  | none => false

def source : String := "pyhost"

def upTo (level : Level) : Filter := [⟨some source, some level⟩]

/-- The filter that a text describes: directives between commas. No directive at all shows errors. -/
def ofText? (text : String) : Option Filter :=
  let parts := (text.splitOn ",").filter (· != "")
  if parts.isEmpty then some [⟨none, some .error⟩] else parts.mapM Directive.ofText?

/-- The filter under which a log is set up. One that the environment asks for in vain is as none. -/
def choose (env : Environment) (level : Level) : Filter :=
  (env.filter.bind ofText?).getD (upTo level)

end Filter

end HostBridge
