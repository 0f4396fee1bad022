import WidgetShorthand.LoadError
import WidgetShorthand.Text.Name

/-!
# Symbol tables

A table maps the long forms of one category to short forms and back. It is loaded symbol by symbol:
short forms are identifiers, long forms are not empty, and neither is used twice. When all symbols
are in, no short form may be the beginning of another one of its category. It is enough to compare
neighbours in sorted order, since everything between a text and a text that it begins begins with it
as well.
-/

namespace WidgetShorthand

/-- The symbols of one category in the order in which they were loaded. -/
structure Table where
  category : Category
  /-- Long forms with their short forms. -/
  pairs : List (String × String)
  deriving DecidableEq

namespace Table

def empty (category : Category) : Table :=
  ⟨category, []⟩

def shortFor? (t : Table) (long : String) : Option String :=
  (t.pairs.find? (·.1 == long)).map (·.2)

def longFor? (t : Table) (short : String) : Option String :=
  (t.pairs.find? (·.2 == short)).map (·.1)

def hasShort (t : Table) (short : String) : Bool :=
  (t.longFor? short).isSome

def size (t : Table) : Nat :=
  t.pairs.length

/-- Adds a pair behind the others. -/
def insert (t : Table) (long short : String) : Except LoadError Table :=
  if !Text.isIdentifier short then .error (.invalidShortForm t.category short)
  else if long.isEmpty then .error (.emptyLongForm t.category short)
  else match t.longFor? short with
    | some existing => .error (.duplicateShortForm t.category short long existing)
    | none =>
      if (t.shortFor? long).isSome then .error (.duplicateLongForm t.category long)
      else .ok ⟨t.category, t.pairs ++ [(long, short)]⟩

/-- The order of texts by their UTF-8 bytes. -/
def textLE (a b : String) : Bool :=
  decide (a ≤ b)

def sortedShorts (t : Table) : List String :=
  (t.pairs.map (·.2)).mergeSort textLE

/-- The first two neighbours of which one begins with the other. -/
def findPrefix? : List String → Option (String × String)
  | a :: b :: rest =>
    if a.toList.isPrefixOf b.toList then some (a, b) else findPrefix? (b :: rest)
  | _ => none

def checkPrefixes (t : Table) : Except LoadError Unit :=
  match findPrefix? t.sortedShorts with
  | some (short, other) => .error (.shortFormPrefix t.category short other)
  | none => .ok ()

/-- The symbols of a table, sorted by their short forms. -/
def symbols (t : Table) : List Symbol :=
  (t.pairs.mergeSort fun p q => textLE p.2 q.2).map fun (long, short) => ⟨t.category, long, short⟩

end Table

/-- The tables of the four categories. -/
structure Symbols where
  types : Table
  properties : Table
  keywords : Table
  literals : Table
  deriving DecidableEq

namespace Symbols

/-- Tables without symbols: every name is written out. -/
def empty : Symbols :=
  ⟨.empty .type, .empty .property, .empty .keyword, .empty .literal⟩

def table (s : Symbols) : Category → Table
  | .type => s.types
  | .property => s.properties
  | .keyword => s.keywords
  | .literal => s.literals

def setTable (s : Symbols) (t : Table) : Category → Symbols
  | .type => { s with types := t }
  | .property => { s with properties := t }
  | .keyword => { s with keywords := t }
  | .literal => { s with literals := t }

def insert (s : Symbols) (symbol : Symbol) : Except LoadError Symbols :=
  ((s.table symbol.category).insert symbol.long symbol.short).map fun t =>
    s.setTable t symbol.category

/-- Loads symbols into tables; the first one that does not fit is the error. -/
def ofList (symbols : List Symbol) : Except LoadError Symbols := do
  let s ← symbols.foldlM insert empty
  Category.all.forM fun category => (s.table category).checkPrefixes
  return s

/-- All symbols, by category and then by short form. -/
def toList (s : Symbols) : List Symbol :=
  Category.all.flatMap fun category => (s.table category).symbols

def size (s : Symbols) : Nat :=
  Category.all.foldr (fun category n => (s.table category).size + n) 0

end Symbols

end WidgetShorthand
