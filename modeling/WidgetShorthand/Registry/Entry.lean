import WidgetShorthand.LoadError
import WidgetShorthand.Text.Name
import WidgetShorthand.Tree.Token
import WidgetShorthand.Tree.Slot

/-!
# Patterns

A pattern is a widget that documents may refer to by an id. The sample widget supplies every value
that a reference leaves out; the slots are the places where a reference may put another one.
-/

namespace WidgetShorthand

/-- What is said about a pattern. -/
structure Description where
  name : String
  text : String
  category : String
  tags : List String
  version : String
  deriving DecidableEq, Repr

/-- The description of a pattern of which nothing is said. -/
def Description.default : Description :=
  ⟨"", "", "general", [], "1.0.0"⟩

/-- A registered pattern. -/
structure Entry where
  fingerprint : String
  id : String
  slots : List SlotPath
  sample : Widget
  about : Description
  deriving DecidableEq

namespace Entry

/-- The entry for a sample widget: its fingerprint and slots are the computed ones. -/
def ofWidget (id : String) (sample : Widget) (about : Description) : Entry :=
  ⟨sample.fingerprint, id, sample.slots, sample, about⟩

/-- The number of arguments that a reference may have. -/
def arity (e : Entry) : Nat :=
  e.slots.length

/-- The name to show: the described one, or the id when there is none. -/
def displayName (e : Entry) : String :=
  if e.about.name.isEmpty then e.id else e.about.name

/-- Checks an entry that comes from outside against its sample. -/
def check (e : Entry) : Except LoadError Unit :=
  if !Text.isReferenceId e.id then .error (.invalidReferenceId e.id)
  else if e.slots ≠ e.sample.slots then .error (.slotMismatch e.id)
  else if e.sample.fingerprint ≠ e.fingerprint then
    .error (.fingerprintMismatch e.id e.fingerprint e.sample.fingerprint)
  else .ok ()

end Entry

end WidgetShorthand
