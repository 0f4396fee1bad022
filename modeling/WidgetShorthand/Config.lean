import WidgetShorthand.Json.Parse
import WidgetShorthand.Json.Record
import WidgetShorthand.LoadError
import WidgetShorthand.Strategy.Basic

/-!
# Configuration

The settings of a codec, their defaults, and their JSON form. A similarity threshold below one makes
documents lossy: widgets are then written as references to patterns that are merely alike.
-/

namespace WidgetShorthand

structure Config where
  /-- The file of the symbol tables; the stock vocabulary when there is none. -/
  symbolTablePath : Option String
  /-- The file of the registry, which need not exist yet; an empty registry when there is none. -/
  registryPath : Option String
  /-- The strategy for all documents; selected for each document when there is none. -/
  strategy : Option Strategy
  thresholds : Thresholds
  similarityThreshold : Float
  registerPatterns : Bool
  minPatternTokens : Nat
  maxDepth : Nat

/-- The depth limit that holds when no other one is set. -/
def defaultMaxDepth : Nat :=
  256

namespace Config

def default : Config :=
  ⟨none, none, none, .default, 1.0, false, 6, defaultMaxDepth⟩

/-- Whether a number is a share of a whole. -/
def isShare (x : Float) : Bool :=
  0.0 ≤ x && x ≤ 1.0

/-- Checks the ranges of the settings. -/
def check (c : Config) : Except LoadError Unit :=
  if !isShare c.similarityThreshold then
    .error (.invalidConfig (.similarityThreshold c.similarityThreshold))
  else if !isShare c.thresholds.patternHitRatio then
    .error (.invalidConfig (.patternHitRatio c.thresholds.patternHitRatio))
  else if c.maxDepth = 0 then .error (.invalidConfig .zeroDepth)
  else .ok ()

end Config

/-! ## JSON form -/

def Strategy.ofName? : String → Option Strategy
  | "minimal" => some .minimal
  | "aggressive" => some .aggressive
  | "pattern_reference" => some .patternReference
  | "hybrid" => some .hybrid
  | _ => none

def Strategy.ofJson? (levels : Nat) (j : Json) : Option Strategy :=
  (Json.name? levels j).bind Strategy.ofName?

def Thresholds.ofJson? : Nat → Json → Option Thresholds
  | 0, _ => none
  | _ + 1, j => do
    let found ← j.fields? ["pattern_hit_ratio", "aggressive_min_nodes", "deep_tree_depth"]
    let standard := Thresholds.default
    let ratio ← Json.orElse found "pattern_hit_ratio" standard.patternHitRatio Json.float?
    let nodes ← Json.orElse found "aggressive_min_nodes" standard.aggressiveMinNodes Json.word?
    let depth ← Json.orElse found "deep_tree_depth" standard.deepTreeDepth Json.word?
    return ⟨ratio, nodes, depth⟩

namespace Config

def fieldNames : List String :=
  ["symbol_table_path", "registry_path", "strategy", "thresholds", "similarity_threshold",
    "register_patterns", "min_pattern_tokens", "max_depth"]

/-- Settings that are left out have their defaults. -/
def ofJson? : Nat → Json → Option Config
  | 0, _ => none
  | levels + 1, j => do
    let found ← j.fields? fieldNames
    let tables ← Json.orElse found "symbol_table_path" none (Json.optional Json.text?)
    let registry ← Json.orElse found "registry_path" none (Json.optional Json.text?)
    let strategy ← Json.orElse found "strategy" none (Json.optional (Strategy.ofJson? levels))
    let thresholds ← Json.orElse found "thresholds" .default (Thresholds.ofJson? levels)
    let similarity ← Json.orElse found "similarity_threshold" default.similarityThreshold
      Json.float?
    let register ← Json.orElse found "register_patterns" default.registerPatterns Json.bool?
    let minTokens ← Json.orElse found "min_pattern_tokens" default.minPatternTokens Json.word?
    let maxDepth ← Json.orElse found "max_depth" default.maxDepth Json.word?
    return ⟨tables, registry, strategy, thresholds, similarity, register, minTokens, maxDepth⟩

/-- Loads a configuration from a text and checks it. -/
def ofText (text : String) : Except LoadError Config := do
  match (Json.parse? text).bind (ofJson? Json.nestingLimit) with
  | none => throw .malformed
  | some c =>
    c.check
    return c

end Config

end WidgetShorthand
