import WidgetShorthand.Json.Parse
import WidgetShorthand.Json.Print
import WidgetShorthand.Registry.Basic
import WidgetShorthand.Text.Timestamp
import WidgetShorthand.Tree.Json

/-!
# Registry files

The file form of a registry: a record with the version of the form, the time of writing, and the
patterns in the order of their registration. A registry keeps no times; the caller says what time it
is when a file is written, and that time stands everywhere in it. Reading checks every pattern like
one that comes from outside, and finds the number of the next id from the ids alone.
-/

namespace WidgetShorthand

/-- The one version that is read and written. -/
def fileVersion : Nat :=
  1

/-! ## Reading -/

def timestamp? (j : Json) : Option String :=
  j.text?.filter Text.isTimestamp

def Description.ofJson? : Nat → Json → Option Description
  | 0, _ => none
  | levels + 1, j => do
    let found ← j.fields? ["name", "description", "category", "tags", "version"]
    let standard := Description.default
    let name ← Json.orElse found "name" standard.name Json.text?
    let text ← Json.orElse found "description" standard.text Json.text?
    let category ← Json.orElse found "category" standard.category Json.text?
    let tags ← Json.orElse found "tags" standard.tags (Json.texts levels)
    let version ← Json.orElse found "version" standard.version Json.text?
    return ⟨name, text, category, tags, version⟩

def Entry.ofJson? : Nat → Json → Option Entry
  | 0, _ => none
  | levels + 1, j => do
    let found ← j.fields?
      ["fingerprint", "reference_id", "parameter_slots", "example", "registered_at", "meta"]
    let fingerprint ← Json.required found "fingerprint" Json.text?
    let id ← Json.required found "reference_id" Json.text?
    let slots ← Json.required found "parameter_slots" (Json.list slotPathOfJson? levels)
    let sample ← Json.required found "example" (Widget.ofJson? levels)
    let _ ← Json.required found "registered_at" timestamp?
    let about ← Json.orElse found "meta" .default (Description.ofJson? levels)
    return ⟨fingerprint, id, slots, sample, about⟩

namespace Registry

/-- Version and patterns of a file. -/
def recordOfJson? : Nat → Json → Option (Nat × List Entry)
  | 0, _ => none
  | levels + 1, j => do
    let found ← j.fields? ["version", "saved_at", "entries"]
    let version ← Json.required found "version" (Json.nat? (UInt32.size - 1))
    let _ ← Json.required found "saved_at" timestamp?
    let entries ← Json.required found "entries" (Json.list Entry.ofJson? levels)
    return (version, entries)

/-- Loads a registry from the text of a file. -/
def ofText (text : String) : Except LoadError Registry :=
  match (Json.parse? text).bind (recordOfJson? Json.nestingLimit) with
  | none => .error .malformed
  | some (version, entries) =>
    if version = fileVersion then ofEntries entries else .error (.unsupportedVersion version)

end Registry

/-! ## Writing -/

def Description.toJson (d : Description) : Json :=
  .object [Json.field "name" (Json.ofString d.name),
    Json.field "description" (Json.ofString d.text),
    Json.field "category" (Json.ofString d.category), Json.field "tags" (textsToJson d.tags),
    Json.field "version" (Json.ofString d.version)]

def Entry.toJson (now : Text.Timestamp) (e : Entry) : Json :=
  .object [Json.field "fingerprint" (Json.ofString e.fingerprint),
    Json.field "reference_id" (Json.ofString e.id),
    Json.field "parameter_slots" (.array (e.slots.map slotPathToJson)),
    Json.field "example" e.sample.toJson,
    Json.field "registered_at" (Json.ofString now.text),
    Json.field "meta" e.about.toJson]

namespace Registry

def toJson (now : Text.Timestamp) (r : Registry) : Json :=
  .object [Json.field "version" (Json.ofNat fileVersion),
    Json.field "saved_at" (Json.ofString now.text),
    Json.field "entries" (.array (r.entries.map (Entry.toJson now)))]

/-- The text of the file that holds the registry. -/
def toText (now : Text.Timestamp) (r : Registry) : String :=
  Json.prettyText (r.toJson now)

end Registry

end WidgetShorthand
