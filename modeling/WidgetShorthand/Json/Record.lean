import WidgetShorthand.Json.Basic

/-!
# Records in JSON

How a value of a known type is read from JSON. A record is an object in which every known field
stands at most once and unknown ones are passed over, or an array of its fields in their order. A
choice is an object with the name of the alternative as its only key; an alternative that carries
nothing is also written as its name alone.

Only what is looked at has to make sense: a string must have a text, a number must be in range, and
at most `nestingLimit` arrays and objects may be open at once. Readers count the arrays and objects
that may still be opened, and recurse on that count.
-/

namespace WidgetShorthand.Json

/-- The number of arrays and objects that may be open at once. -/
def nestingLimit : Nat :=
  127

/-! ## Atoms -/

def text? : Json → Option String
  | .string s => s
  | _ => none

def bool? : Json → Option Bool
  | .bool b => some b
  | _ => none

/-- An unsigned integer up to `limit`. -/
def nat? (limit : Nat) : Json → Option Nat
  | .number n => n.toNat? limit
  | _ => none

/-- An unsigned integer of 64 bits. -/
def word? : Json → Option Nat :=
  nat? maxWord

def float? : Json → Option Float
  | .number n => n.toFloat?
  | _ => none

/-- A value that may be missing: `null` stands for nothing. -/
def optional (read : Json → Option α) : Json → Option (Option α)
  | .null => some none
  | j => (read j).map some

/-! ## Arrays -/

/-- An array whose items are all read in the same way; it may open `levels` arrays and objects. -/
def list (read : Nat → Json → Option α) : Nat → Json → Option (List α)
  | levels + 1, .array items => items.mapM (read levels)
  | _, _ => none

/-- An array of texts. -/
def texts : Nat → Json → Option (List String) :=
  list fun _ => text?

/-! ## Records -/

/-- A field of a record that was found. -/
structure Found where
  name : String
  value : Json

/-- The known members of an object in their order; none when a key has no text or a known key is
repeated. -/
def knownMembers (names : List String) : List Member → Option (List Found)
  | [] => some []
  | ⟨none, _⟩ :: _ => none
  | ⟨some key, j⟩ :: rest => do
    let found ← knownMembers names rest
    if names.contains key then
      if found.any (·.name == key) then none else some (⟨key, j⟩ :: found)
    else some found

/-- The fields of a record with the given names. -/
def fields? (names : List String) : Json → Option (List Found)
  | .object members => knownMembers names members
  | .array items =>
    if items.length ≤ names.length then some (List.zipWith Found.mk names items) else none
  | _ => none

/-- A field that must be present. -/
def required (found : List Found) (name : String) (read : Json → Option α) : Option α :=
  match found.find? (·.name == name) with
  | some field => read field.value
  | none => none

/-- A field with a default for the case that it is missing. -/
def orElse (found : List Found) (name : String) (fallback : α) (read : Json → Option α) :
    Option α :=
  match found.find? (·.name == name) with
  | some field => read field.value
  | none => some fallback

/-! ## Choices -/

/-- The name and the content of an alternative. -/
def choice? : Json → Option (String × Json)
  | .object [⟨some name, j⟩] => some (name, j)
  | _ => none

/-- The name of an alternative that carries nothing. -/
def name? : Nat → Json → Option String
  | _, .string s => s
  | _ + 1, .object [⟨some name, .null⟩] => some name
  | _, _ => none

/-! ## Values that are looked at as a whole -/

mutual

/-- Whether every string has a text, every number is in range, and `levels` suffice. -/
def sound : Nat → Json → Bool
  | _, .null => true
  | _, .bool _ => true
  | _, .number n => n.isInRange
  | _, .string s => s.isSome
  | 0, .array _ => false
  | levels + 1, .array items => soundItems levels items
  | 0, .object _ => false
  | levels + 1, .object members => soundMembers levels members

def soundItems (levels : Nat) : List Json → Bool
  | [] => true
  | j :: rest => sound levels j && soundItems levels rest

def soundMembers (levels : Nat) : List Member → Bool
  | [] => true
  | ⟨key, j⟩ :: rest => key.isSome && sound levels j && soundMembers levels rest

end

end WidgetShorthand.Json
