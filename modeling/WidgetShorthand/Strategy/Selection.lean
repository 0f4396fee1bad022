import WidgetShorthand.Decimal
import WidgetShorthand.Registry.Basic
import WidgetShorthand.Strategy.Basic
import WidgetShorthand.Text.Basic
import WidgetShorthand.Tree.Query

/-!
# Selecting a strategy

A strategy follows from the metrics by two independent questions. References are used when enough of
the widgets are registered, and layout is left out when the tree is large, by nodes or by depth. A
tree without widgets is always written in the plainest way.
-/

namespace WidgetShorthand

/-! ## Metrics -/

/-- The measurements of a tree, against a registry, that a strategy is selected by. -/
structure Metrics where
  nodeCount : Nat
  /-- The number of widgets, those in value position included. -/
  subtreeCount : Nat
  /-- The deepest nesting of widgets. -/
  maxDepth : Nat
  /-- The number of widgets whose shape is registered. -/
  registryHits : Nat
  /-- The number of shapes that occur more than once. -/
  repeatedSubtrees : Nat
  /-- How often each widget type occurs, in the order of the names. -/
  widgetFrequency : List (String × Nat)
  deriving DecidableEq, Repr

namespace Metrics

/-- The number of distinct names that occur more than once. -/
def countRepeated (names : List String) : Nat :=
  names.eraseDups.countP fun name => 1 < names.count name

def ofTree (tree : Node) (r : Registry) : Metrics :=
  let widgets := tree.widgets
  let fingerprints := widgets.map Widget.fingerprint
  ⟨tree.nodeCount, widgets.length, tree.depth,
    fingerprints.countP fun fingerprint => (r.lookup? fingerprint).isSome,
    countRepeated fingerprints, Text.tally (widgets.map (·.typeName))⟩

/-- The share of registered widgets; zero when there are no widgets. -/
def hitRatio (m : Metrics) : Float :=
  if m.subtreeCount = 0 then 0.0
  else Float.ofNat m.registryHits / Float.ofNat m.subtreeCount

/-- Whether `a` comes before `b` among the most common widget types: greater counts first, then by
name. -/
def moreCommon (a b : String × Nat) : Bool :=
  b.2 < a.2 || (b.2 == a.2 && decide (a.1 ≤ b.1))

/-- The `n` most common widget types with their counts. -/
def mostCommon (m : Metrics) (n : Nat) : List (String × Nat) :=
  (m.widgetFrequency.mergeSort moreCommon).take n

end Metrics

/-! ## Decisions -/

/-- Why a strategy was selected. -/
inductive Reason where
  | noWidgets
  /-- Enough widgets are registered, and the tree is large or not. -/
  | registryHits (large : Bool)
  | manyNodes
  | deepNesting
  | smallTree
  /-- The strategy was set and not selected. -/
  | configured
  deriving DecidableEq, Repr

/-- A selected strategy and what it is based on. -/
structure Decision where
  strategy : Strategy
  reason : Reason
  metrics : Metrics
  thresholds : Thresholds

namespace Thresholds

def isLargeByNodes (t : Thresholds) (m : Metrics) : Bool :=
  t.aggressiveMinNodes ≤ m.nodeCount

def isLargeByDepth (t : Thresholds) (m : Metrics) : Bool :=
  t.deepTreeDepth ≤ m.maxDepth

def isLarge (t : Thresholds) (m : Metrics) : Bool :=
  t.isLargeByNodes m || t.isLargeByDepth m

/-- The strategy for a tree with the given metrics. -/
def decide (t : Thresholds) (m : Metrics) : Strategy × Reason :=
  if m.subtreeCount = 0 then (.minimal, .noWidgets)
  else if t.patternHitRatio ≤ m.hitRatio then
    if t.isLarge m then (.hybrid, .registryHits true) else (.patternReference, .registryHits false)
  else if t.isLargeByNodes m then (.aggressive, .manyNodes)
  else if t.isLargeByDepth m then (.aggressive, .deepNesting)
  else (.minimal, .smallTree)

/-- The decision for given metrics. -/
def decision (t : Thresholds) (m : Metrics) : Decision :=
  let (strategy, reason) := t.decide m
  ⟨strategy, reason, m, t⟩

/-- The decision for a tree and a registry. -/
def select (t : Thresholds) (tree : Node) (r : Registry) : Decision :=
  t.decision (.ofTree tree r)

end Thresholds

namespace Decision

def sizeText (m : Metrics) : String :=
  s!"nodes={m.nodeCount} depth={m.maxDepth}"

def hitsText (t : Thresholds) (m : Metrics) : String :=
  s!"registry hits {m.registryHits}/{m.subtreeCount} " ++
    s!"({Decimal.showFixed m.hitRatio} >= {Decimal.showFixed t.patternHitRatio})"

/-- The reason in words, with the numbers that matter. -/
def reasoning (d : Decision) : String :=
  let m := d.metrics
  let t := d.thresholds
  match d.reason with
  | .noWidgets => "no widget subtrees"
  | .registryHits true => hitsText t m ++ " | large tree: " ++ sizeText m
  | .registryHits false => hitsText t m
  | .manyNodes => s!"large tree: {m.nodeCount} >= {t.aggressiveMinNodes} nodes"
  | .deepNesting => s!"large tree: depth {m.maxDepth} >= {t.deepTreeDepth}"
  | .smallTree => "small tree: " ++ sizeText m
  | .configured => "configured: " ++ d.strategy.name

end Decision

end WidgetShorthand
