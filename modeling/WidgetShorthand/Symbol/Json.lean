import WidgetShorthand.Json.Parse
import WidgetShorthand.Json.Print
import WidgetShorthand.Json.Record
import WidgetShorthand.Symbol.Table

/-!
# Symbol tables in JSON

The file form of symbol tables: a record with the list of all symbols. What is written lists the
symbols by category and short form; what is read may have any order.
-/

namespace WidgetShorthand

def Category.ofName? : String → Option Category
  | "type" => some .type
  | "property" => some .property
  | "keyword" => some .keyword
  | "literal" => some .literal
  | _ => none

def Symbol.ofJson? : Nat → Json → Option Symbol
  | 0, _ => none
  | levels + 1, j => do
    let found ← j.fields? ["category", "long", "short"]
    let category ← Json.required found "category" fun j =>
      (Json.name? levels j).bind Category.ofName?
    let long ← Json.required found "long" Json.text?
    let short ← Json.required found "short" Json.text?
    return ⟨category, long, short⟩

def Symbol.toJson (s : Symbol) : Json :=
  .object [Json.field "category" (Json.ofString s.category.name),
    Json.field "long" (Json.ofString s.long), Json.field "short" (Json.ofString s.short)]

namespace Symbols

/-- The symbols that a file lists. -/
def listOfJson? : Nat → Json → Option (List Symbol)
  | 0, _ => none
  | levels + 1, j => do
    let found ← j.fields? ["entries"]
    Json.required found "entries" (Json.list Symbol.ofJson? levels)

/-- Loads tables from the text of a file. -/
def ofText (text : String) : Except LoadError Symbols :=
  match (Json.parse? text).bind (listOfJson? Json.nestingLimit) with
  | some symbols => ofList symbols
  | none => .error .malformed

def toJson (s : Symbols) : Json :=
  .object [Json.field "entries" (.array (s.toList.map Symbol.toJson))]

/-- The text of the file that holds the tables. -/
def toText (s : Symbols) : String :=
  Json.prettyText s.toJson

end Symbols

end WidgetShorthand
