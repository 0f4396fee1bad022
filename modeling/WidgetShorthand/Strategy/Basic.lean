/-!
# Strategies

The four ways of writing a tree. They differ in two independent choices: whether layout is left out
and known literals are folded, and whether registered patterns are referred to.
-/

namespace WidgetShorthand

inductive Strategy where
  | minimal
  | aggressive
  | patternReference
  | hybrid
  deriving DecidableEq, Repr

namespace Strategy

def all : List Strategy :=
  [.minimal, .aggressive, .patternReference, .hybrid]

def name : Strategy → String
  | .minimal => "minimal"
  | .aggressive => "aggressive"
  | .patternReference => "pattern_reference"
  | .hybrid => "hybrid"

/-- Whether line ends between declarations are left out. -/
def elidesLayout : Strategy → Bool
  | .aggressive | .hybrid => true
  | .minimal | .patternReference => false

/-- Whether identifiers and expressions with a literal symbol are written as that symbol. -/
def foldsLiterals : Strategy → Bool
  | .aggressive | .hybrid => true
  | .minimal | .patternReference => false

/-- Whether widgets of a registered shape are written as references. -/
def usesPatterns : Strategy → Bool
  | .patternReference | .hybrid => true
  | .minimal | .aggressive => false

end Strategy

/-- Where the selection of a strategy draws its lines. -/
structure Thresholds where
  /-- The share of registered widgets from which references are worthwhile. -/
  patternHitRatio : Float
  /-- The number of nodes from which a tree is large. -/
  aggressiveMinNodes : Nat
  /-- The depth from which a tree is large. -/
  deepTreeDepth : Nat

def Thresholds.default : Thresholds :=
  ⟨0.25, 24, 6⟩

end WidgetShorthand
