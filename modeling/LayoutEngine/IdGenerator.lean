import LayoutEngine.Entries
import LayoutEngine.IdTable
import LayoutEngine.Numeral

/-!
# Numbers in machine words

An `IdTable` says which names have numbers. An `IdGenerator` is how a host keeps such a table in
words of 32 bits: the numbers by name, the names in order, and a counter with the number that the
next new name gets. Numbering a name has no result if the counter would leave the words.

A host makes one call after another (`IdGenerator.Call`): two kinds of them number a name, all
others look something up.
-/

namespace LayoutEngine

namespace Word

/-- The sum of two words, if it is a word. -/
def add? (a b : Int32) : Option Int32 :=
  if Numeral.fitsSigned 32 (a.toInt + b.toInt) then some (a + b) else none

/-- The difference of two words, if it is a word. -/
def sub? (a b : Int32) : Option Int32 :=
  if Numeral.fitsSigned 32 (a.toInt - b.toInt) then some (a - b) else none

/-- The place in a list that a word stands for; none for negative ones. -/
def place? (a : Int32) : Option Nat := if 0 ≤ a.toInt then some a.toInt.toNat else none

end Word

/-- Numbers for names and names for numbers, which are of 32 bits, and the number that comes next.
-/
structure IdGenerator where
  numbers : List (String × Int32)
  names : List String
  next : Int32
deriving DecidableEq, Repr

namespace IdGenerator

/-- The number of the first name. -/
def firstNumber : Int32 := 1

/-- The generator that has numbered nothing. -/
def empty : IdGenerator := ⟨[], [], firstNumber⟩

/-- How many names have got a number. -/
def size (g : IdGenerator) : Nat := g.names.length

/-- The number of a name that has one. -/
def get? (name : String) (g : IdGenerator) : Option Int32 := Entries.get? name g.numbers

/-- The number of a name, and the generator that has given it, unless the counter would leave the
words. -/
def intern? (name : String) (g : IdGenerator) : Option (Int32 × IdGenerator) :=
  match g.get? name with
  | some id => some (id, g)
  | none =>
    (Word.add? g.next 1).map fun next =>
      (g.next, ⟨Entries.put name g.next g.numbers, g.names ++ [name], next⟩)

/-- The name that a number was given to. -/
def nameOf? (id : Int32) (g : IdGenerator) : Option String := do
  let offset ← Word.sub? id firstNumber
  let place ← Word.place? offset
  g.names[place]?

/-- The number of the view with a name, and the generator that has given it. -/
def internView? (name : String) (g : IdGenerator) : Option (Int32 × IdGenerator) :=
  g.intern? (IdTable.viewKey name)

/-- The number of the view with a name, if it has one. -/
def viewId? (name : String) (g : IdGenerator) : Option Int32 := g.get? (IdTable.viewKey name)

/-- The name of the view that a number was given to; none for the numbers of attributes. -/
def viewNameOf? (id : Int32) (g : IdGenerator) : Option String := do
  let key ← g.nameOf? id
  let name ← Text.after? IdTable.viewLead key.toList
  return String.ofList name

/-- What a host asks of a generator. -/
inductive Call where
  | intern (name : String)
  | internView (name : String)
  | get (name : String)
  | viewId (name : String)
  | nameOf (id : Int32)
  | viewNameOf (id : Int32)
  | size
deriving DecidableEq, Repr

/-- What a host is answered. -/
inductive Answer where
  | number (id : Int32)
  | number? (id : Option Int32)
  | name? (name : Option String)
  | size (names : Nat)
deriving DecidableEq, Repr

namespace Call

/-- The name under which a call numbers, if it does. -/
def key? : Call → Option String
  | intern name => some name
  | internView name => some (IdTable.viewKey name)
  | get _ | viewId _ | nameOf _ | viewNameOf _ | size => none

/-- The answer to a call, and the generator after it, unless the counter would leave the words. -/
def perform (call : Call) (g : IdGenerator) : Option (Answer × IdGenerator) :=
  match call with
  | intern name => (g.intern? name).map fun (id, g) => (.number id, g)
  | internView name => (g.internView? name).map fun (id, g) => (.number id, g)
  | get name => some (.number? (g.get? name), g)
  | viewId name => some (.number? (g.viewId? name), g)
  | nameOf id => some (.name? (g.nameOf? id), g)
  | viewNameOf id => some (.name? (g.viewNameOf? id), g)
  | size => some (.size g.size, g)

end Call

/-- The generator after calls, one by one, unless the counter would leave the words. -/
def run? (calls : List Call) : Option IdGenerator :=
  calls.foldlM (fun g call => (call.perform g).map Prod.snd) empty

end IdGenerator

end LayoutEngine
