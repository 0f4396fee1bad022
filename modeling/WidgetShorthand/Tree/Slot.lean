import WidgetShorthand.Tree.Basic

/-!
# Slots

A slot is the place of a scalar inside a widget, addressed by a path of steps. `Widget.slots` lists
the slots in pre-order, properties before children, which is also the order of the anonymous slots
among the tokens of the shape. A path can lead to any value, not only to a scalar: `Widget.at?`
gives the value there, and `Widget.replace?` puts another one in its place.
-/

namespace WidgetShorthand

/-- A step of a path. A property is addressed by its position and its key together. -/
inductive Step where
  | property (index : Nat) (key : String)
  | item (index : Nat)
  | child (index : Nat)
  deriving DecidableEq, Repr

/-- A path from a widget to a value inside it. -/
abbrev SlotPath : Type :=
  List Step

mutual

/-- The paths of all scalars in a widget. -/
def Widget.slots : Widget → List SlotPath
  | ⟨_, ps, cs⟩ => propertySlots 0 ps ++ childSlots 0 cs

/-- The slots of properties that are numbered from `index` on. -/
def propertySlots (index : Nat) : List Property → List SlotPath
  | [] => []
  | ⟨key, v⟩ :: ps => v.slots.map (.property index key :: ·) ++ propertySlots (index + 1) ps

def childSlots (index : Nat) : List Widget → List SlotPath
  | [] => []
  | c :: cs => c.slots.map (.child index :: ·) ++ childSlots (index + 1) cs

def Value.slots : Value → List SlotPath
  | .scalar _ => [[]]
  | .widget w => w.slots
  | .list items => itemSlots 0 items

def itemSlots (index : Nat) : List Value → List SlotPath
  | [] => []
  | v :: vs => v.slots.map (.item index :: ·) ++ itemSlots (index + 1) vs

end

/-- The value of the property at a position, if it has that key. -/
def Widget.propertyAt? (w : Widget) (index : Nat) (key : String) : Option Value :=
  match w.properties[index]? with
  | some p => if p.key = key then some p.value else none
  | none => none

/-- The value at the end of a path that starts at a value. A path never ends at a child widget,
which is no value. -/
def Value.at? : SlotPath → Value → Option Value
  | [], v => some v
  | .property i key :: rest, .widget w => (w.propertyAt? i key).bind (Value.at? rest)
  | .child i :: step :: rest, .widget w =>
    w.children[i]?.bind fun c => Value.at? (step :: rest) (.widget c)
  | .item i :: rest, .list items => items[i]?.bind (Value.at? rest)
  | _, _ => none

/-- The value at the end of a path, if the path leads to one. -/
def Widget.at? (w : Widget) (path : SlotPath) : Option Value :=
  if path.isEmpty then none else (Value.widget w).at? path

/-- A value with another one in the place that a path leads to. -/
def Value.replace? (new : Value) : SlotPath → Value → Option Value
  | [], _ => some new
  | .property i key :: rest, .widget w =>
    (w.propertyAt? i key).bind fun v =>
      (Value.replace? new rest v).map fun v' =>
        .widget ⟨w.typeName, w.properties.set i ⟨key, v'⟩, w.children⟩
  | .child i :: step :: rest, .widget w =>
    w.children[i]?.bind fun c =>
      match Value.replace? new (step :: rest) (.widget c) with
      | some (.widget c') => some (.widget ⟨w.typeName, w.properties, w.children.set i c'⟩)
      | _ => none
  | .item i :: rest, .list items =>
    items[i]?.bind fun v =>
      (Value.replace? new rest v).map fun v' => .list (items.set i v')
  | _, _ => none

/-- A widget with another value in the place that a path leads to, if it leads to one. -/
def Widget.replace? (w : Widget) (path : SlotPath) (new : Value) : Option Widget :=
  if path.isEmpty then none
  else match Value.replace? new path (.widget w) with
    | some (.widget w') => some w'
    | _ => none

end WidgetShorthand
