import WidgetShorthand.Decimal
import WidgetShorthand.Symbol.Basic
import WidgetShorthand.Text.Message

/-!
# Errors of loading

What can be wrong with symbol tables, with pattern registries and with a configuration. Loading is
all or nothing: the first thing that is wrong ends it.
-/

namespace WidgetShorthand

/-- What can be wrong with a configuration. -/
inductive ConfigFault where
  | similarityThreshold (value : Float)
  | patternHitRatio (value : Float)
  | zeroDepth
  /-- The registry is to be saved and the configuration names no place for it. -/
  | noRegistryPath

inductive LoadError where
  | duplicateShortForm (category : Category) (short long existing : String)
  | duplicateLongForm (category : Category) (long : String)
  | shortFormPrefix (category : Category) (short other : String)
  | invalidShortForm (category : Category) (short : String)
  | emptyLongForm (category : Category) (short : String)
  | duplicateReferenceId (id : String)
  | invalidReferenceId (id : String)
  | fingerprintMismatch (id recorded computed : String)
  | slotMismatch (id : String)
  | duplicateFingerprint (fingerprint first second : String)
  | unsupportedVersion (version : Nat)
  | invalidConfig (fault : ConfigFault)
  | missingFile (path : String)
  /-- A text is no JSON, or not the JSON of the expected record. -/
  | malformed

def ConfigFault.message : ConfigFault → String
  | .similarityThreshold value =>
    "similarity_threshold must be within [0, 1], got " ++ Decimal.showShortest value
  | .patternHitRatio value =>
    "pattern_hit_ratio must be within [0, 1], got " ++ Decimal.showShortest value
  | .zeroDepth => "max_depth must be positive"
  | .noRegistryPath => "no registry_path configured"

def LoadError.message : LoadError → String
  | .duplicateShortForm category short long existing =>
    s!"Duplicate {category.name} short form '{short}' for '{long}' (already used by '{existing}')"
  | .duplicateLongForm category long => s!"Duplicate {category.name} long form '{long}'"
  | .shortFormPrefix category short other =>
    s!"{category.name} short form '{short}' is a prefix of '{other}'"
  | .invalidShortForm category short => s!"Invalid {category.name} short form '{short}'"
  | .emptyLongForm category short => s!"Empty {category.name} long form for short form '{short}'"
  | .duplicateReferenceId id => s!"Duplicate reference id: {id}"
  | .invalidReferenceId id => s!"Invalid reference id: {Text.showText id}"
  | .fingerprintMismatch id recorded computed =>
    s!"Fingerprint mismatch for '{id}': recorded {recorded}, computed {computed}"
  | .slotMismatch id => s!"Parameter slots of '{id}' do not match its example subtree"
  | .duplicateFingerprint fingerprint first second =>
    s!"Fingerprint {fingerprint} registered twice ('{first}' and '{second}')"
  | .unsupportedVersion version => s!"Unsupported registry file version: {version}"
  | .invalidConfig fault => "Invalid configuration: " ++ fault.message
  | .missingFile path => s!"No file at {path}"
  | .malformed => "Not a readable record"

end WidgetShorthand
