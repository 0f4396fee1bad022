import WidgetShorthand.Registry.Entry
import WidgetShorthand.Text.Basic

/-!
# The pattern registry

A registry is a list of patterns that only ever grows at its end. No id and no fingerprint occurs
twice in it, so what a reference means never changes once it has a meaning. Patterns registered
without an id get one of the form `w` and a number; the registry keeps the number to try first.
-/

namespace WidgetShorthand

/-- A pattern together with its shape, which similarity searches compare. -/
structure Registered where
  entry : Entry
  shape : List Token
  deriving DecidableEq

/-- The registered patterns, oldest first, and the number of the next id. -/
structure Registry where
  items : List Registered
  nextNumber : Nat
  deriving DecidableEq

/-- The number of an id that looks like a minted one: a `w` and a decimal number of 64 bits. -/
def mintedNumber? (id : String) : Option Nat :=
  match id.toList with
  | 'w' :: digits =>
    if !digits.isEmpty && digits.all Char.isDigit then
      let n := Text.decimalValue digits
      if n < UInt64.size then some n else none
    else none
  | _ => none

/-- The id with a number. -/
def mintedId (n : Nat) : String :=
  "w" ++ toString n

namespace Registry

def empty : Registry :=
  ⟨[], 1⟩

/-- The patterns in the order of their registration. -/
def entries (r : Registry) : List Entry :=
  r.items.map (·.entry)

def ids (r : Registry) : List String :=
  r.entries.map (·.id)

def size (r : Registry) : Nat :=
  r.items.length

/-- The pattern with a fingerprint. -/
def lookup? (r : Registry) (fingerprint : String) : Option Entry :=
  r.entries.find? (·.fingerprint == fingerprint)

/-- The pattern with an id. -/
def get? (r : Registry) (id : String) : Option Entry :=
  r.entries.find? (·.id == id)

def contains (r : Registry) (id : String) : Bool :=
  (r.get? id).isSome

/-- Adds a pattern whose id and fingerprint are new. -/
def push (r : Registry) (e : Entry) : Registry :=
  let nextNumber := match mintedNumber? e.id with
    | some n => max r.nextNumber (min (n + 1) (UInt64.size - 1))
    | none => r.nextNumber
  ⟨r.items ++ [⟨e, e.sample.shape⟩], nextNumber⟩

/-- The first free id from a number on; none when the number after the last word would be the next
one to try. `tries` bounds the search. -/
def mintFrom (r : Registry) : Nat → Nat → Option String
  | 0, _ => none
  | tries + 1, n =>
    if !r.contains (mintedId n) then some (mintedId n)
    else if n + 1 < UInt64.size then r.mintFrom tries (n + 1)
    else none

/-- A free id. Of one more numbers than there are patterns one is free, so the search fails only
where the words end. -/
def mint? (r : Registry) : Option String :=
  r.mintFrom (r.size + 1) r.nextNumber

/-- Registers a widget under a minted id, unless its shape is registered already. The answer is the
id of its shape; there is none when a number for it is missing. -/
def register (r : Registry) (w : Widget) : Option (String × Registry) :=
  match r.lookup? w.fingerprint with
  | some e => some (e.id, r)
  | none => r.mint?.map fun id => (id, r.push (.ofWidget id w .default))

/-- Registers a widget under an id of the caller's choice. -/
def registerAs (r : Registry) (id : String) (w : Widget) (about : Description) :
    Except LoadError Registry :=
  if !Text.isReferenceId id then .error (.invalidReferenceId id)
  else if r.contains id then .error (.duplicateReferenceId id)
  else match r.lookup? w.fingerprint with
    | some first => .error (.duplicateFingerprint w.fingerprint first.id id)
    | none => .ok (r.push (.ofWidget id w about))

/-- Registers widgets one after the other. The answer lists their ids; there is none when a number
is missing on the way, but what is registered by then stays so. -/
def registerAll (r : Registry) : List Widget → Option (List String) × Registry
  | [] => (some [], r)
  | w :: ws =>
    match r.register w with
    | some (id, r) =>
      let (ids, r) := r.registerAll ws
      (ids.map (id :: ·), r)
    | none => (none, r)

/-- Accepts a pattern that comes from outside. -/
def accept (r : Registry) (e : Entry) : Except LoadError Registry := do
  e.check
  if r.contains e.id then throw (.duplicateReferenceId e.id)
  match r.lookup? e.fingerprint with
  | some first => throw (.duplicateFingerprint e.fingerprint first.id e.id)
  | none => return r.push e

/-- A registry of patterns that come from outside; the first one that does not fit is the error. -/
def ofEntries (entries : List Entry) : Except LoadError Registry :=
  entries.foldlM accept empty

end Registry

end WidgetShorthand
