import WidgetShorthand.Dart.Source
import WidgetShorthand.Document.Decode
import WidgetShorthand.Document.Encode
import WidgetShorthand.Strategy.Selection
import WidgetShorthand.Text.Blank
import WidgetShorthand.Tree.Distance
import WidgetShorthand.Tree.Token
import WidgetShorthand.Validation.Diff

/-!
# Validating round trips

A tree is written, read back and compared with itself. The result says whether nothing was lost,
whether writing again gives the same document, and whether the Dart sources agree.

Two source texts are equivalent when they have the same words, however these are spaced. Otherwise
their similarity is the one of the sequences of their words.
-/

namespace WidgetShorthand

/-! ## Comparing sources -/

structure SourceComparison where
  equivalent : Bool
  similarity : Float

/-- The words of a source text. -/
def sourceWords (s : String) : List String :=
  (Text.words s.toList).map String.ofList

def compareSources (a b : String) : SourceComparison :=
  let wordsA := sourceWords a
  let wordsB := sourceWords b
  if wordsA = wordsB then ⟨true, 1.0⟩ else ⟨false, Sequence.similarity wordsA wordsB⟩

/-! ## Trees and what is read back -/

/-- What trees are validated with. -/
structure Validator where
  symbols : Symbols
  registry : Registry
  /-- The strategy for all trees; selected for each tree when there is none. -/
  strategy : Option Strategy
  thresholds : Thresholds
  options : EncodeOptions

structure Validation where
  /-- The tree that was read back is the one that was written. -/
  reversible : Bool
  /-- The tree that was read back is written as the same document. -/
  idempotent : Bool
  sourceEquivalent : Bool
  /-- The similarity of the tokens of both trees. -/
  similarity : Float
  diffs : List Diff
  strategy : Strategy
  document : String

/-- The outcome for several trees. -/
structure BatchValidation where
  results : List Validation
  /-- The trees that could not be written, by their numbers. -/
  rejected : List (Nat × EncodeError)

namespace Validator

def strategyFor (v : Validator) (tree : Node) : Strategy :=
  v.strategy.getD (v.thresholds.select tree v.registry).strategy

/-- Validation never collects patterns. -/
def encoder (v : Validator) (strategy : Strategy) : Encoder :=
  ⟨v.symbols, v.registry, strategy, { v.options with registerPatterns := false }⟩

def decoder (v : Validator) : Decoder :=
  ⟨v.symbols, v.registry, v.options.maxDepth⟩

/-- The result for a document that cannot be read. -/
def undecodable (strategy : Strategy) (document : String) (e : ParseError) : Validation :=
  ⟨false, false, false, 0.0, [⟨"root", .undecodable e.message⟩], strategy, document⟩

/-- Whether a tree is written as a certain document. -/
def writesAs (e : Encoder) (tree : Node) (document : String) : Bool :=
  match e.encode tree with
  | .ok again => again.document = document
  | .error _ => false

/-- The result for a tree that was written as a document and read back as `back`. -/
def compared (e : Encoder) (tree back : Node) (document : String) : Validation :=
  let diffs := diff tree back
  let sources :=
    compareSources (Dart.source Dart.defaultIndent tree) (Dart.source Dart.defaultIndent back)
  ⟨diffs.isEmpty, writesAs e back document, sources.equivalent,
    Sequence.similarity tree.tokens back.tokens, diffs, e.strategy, document⟩

def validate (v : Validator) (tree : Node) : Except EncodeError Validation := do
  let e := v.encoder (v.strategyFor tree)
  let encoded ← e.encode tree
  match v.decoder.decode encoded.document with
  | .ok back => return compared e tree back encoded.document
  | .error fault => return undecodable e.strategy encoded.document fault

/-- Validates trees that are numbered from `index` on. A tree that cannot be written is rejected and
does not stop the others. -/
def validateFrom (v : Validator) (index : Nat) : List Node → BatchValidation
  | [] => ⟨[], []⟩
  | tree :: trees =>
    let batch := v.validateFrom (index + 1) trees
    match v.validate tree with
    | .ok result => ⟨result :: batch.results, batch.rejected⟩
    | .error e => ⟨batch.results, (index, e) :: batch.rejected⟩

def validateAll (v : Validator) (trees : List Node) : BatchValidation :=
  v.validateFrom 0 trees

end Validator

namespace BatchValidation

/-- The number of trees that came back unchanged. -/
def passed (b : BatchValidation) : Nat :=
  b.results.countP (·.reversible)

/-- The number of trees that were changed or rejected. -/
def failed (b : BatchValidation) : Nat :=
  b.results.countP (!·.reversible) + b.rejected.length

def allPassed (b : BatchValidation) : Bool :=
  b.failed == 0

end BatchValidation

end WidgetShorthand
