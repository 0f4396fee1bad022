/-!
# Symbols

A symbol stands for a longer name. Every symbol belongs to one of four categories, and a name is
only ever looked up in its own category.
-/

namespace WidgetShorthand

/-- What a symbol abbreviates. -/
inductive Category where
  | type
  | property
  | keyword
  | literal
  deriving DecidableEq, Repr

/-- The categories in the order in which symbols are listed. -/
def Category.all : List Category :=
  [.type, .property, .keyword, .literal]

def Category.name : Category → String
  | .type => "type"
  | .property => "property"
  | .keyword => "keyword"
  | .literal => "literal"

/-- A long form and the short form that stands for it. -/
structure Symbol where
  category : Category
  long : String
  short : String
  deriving DecidableEq, Repr

end WidgetShorthand
