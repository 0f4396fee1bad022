import WidgetShorthand.Registry.Basic
import WidgetShorthand.Tree.Query

/-!
# Mining for patterns

Widgets of one shape that occur again and again in a tree are worth a pattern. Mining collects them
in a buffer, and committing the buffer registers them. A buffer holds no shape twice.
-/

namespace WidgetShorthand

/-- A widget that waits for its registration, with its fingerprint. -/
structure Pending where
  fingerprint : String
  widget : Widget
  deriving DecidableEq

/-- Widgets that wait for their registration, oldest first. -/
structure Buffer where
  pending : List Pending
  deriving DecidableEq

namespace Buffer

def empty : Buffer :=
  ⟨[]⟩

def fingerprints (b : Buffer) : List String :=
  b.pending.map (·.fingerprint)

def widgets (b : Buffer) : List Widget :=
  b.pending.map (·.widget)

def size (b : Buffer) : Nat :=
  b.pending.length

/-- Adds a widget; none when its shape is waiting already. -/
def push? (b : Buffer) (w : Widget) : Option Buffer :=
  if b.fingerprints.contains w.fingerprint then none
  else some ⟨b.pending ++ [⟨w.fingerprint, w⟩]⟩

end Buffer

/-- The first one of each fingerprint. -/
def firstOfEach : List Pending → List Pending
  | [] => []
  | p :: ps => p :: (firstOfEach ps).filter (·.fingerprint != p.fingerprint)

/-- The widgets of a tree whose shape has at least `minTokens` tokens, in pre-order. -/
def candidates (tree : Node) (minTokens : Nat) : List Pending :=
  tree.widgets.filterMap fun w =>
    let shape := w.shape
    if shape.length < minTokens then none else some ⟨fingerprintTokens shape, w⟩

namespace Registry

/-- The shapes that occur at least twice in a tree, have at least `minTokens` tokens and are not
registered, each with its first occurrence. -/
def mine (r : Registry) (tree : Node) (minTokens : Nat) : Buffer :=
  let found := candidates tree minTokens
  ⟨(firstOfEach found).filter fun p =>
    2 ≤ found.countP (·.fingerprint == p.fingerprint) && (r.lookup? p.fingerprint).isNone⟩

/-- Registers one widget of a buffer and appends its id to the ids so far. -/
def commitOne (state : List String × Registry) (w : Widget) : Option (List String × Registry) :=
  let (ids, r) := state
  match r.lookup? w.fingerprint with
  | some e => some (ids ++ [e.id], r)
  | none => r.mint?.map fun id => (ids ++ [id], r.push (.ofWidget id w .default))

/-- Registers a whole buffer. The answer lists the ids in the order of the buffer. When a number is
missing for one widget, nothing is registered at all. -/
def commit (r : Registry) (b : Buffer) : Option (List String × Registry) :=
  b.widgets.foldlM commitOne ([], r)

end Registry

end WidgetShorthand
