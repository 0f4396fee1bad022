import WidgetShorthand.Config
import WidgetShorthand.Registry.File
import WidgetShorthand.Symbol.Json
import WidgetShorthand.Symbol.Vocabulary
import WidgetShorthand.Validation.RoundTrip

/-!
# The codec

Tables, registry and configuration behind one handle. Compressing may register the patterns that it
finds, so it also gives the codec to go on with; everything else leaves the codec as it is. Files
are only ever seen as texts: the caller says what a path holds and stores what is to be saved.
-/

namespace WidgetShorthand

structure Codec where
  symbols : Symbols
  registry : Registry
  config : Config

/-- A compressed tree, with its length against the length of its Dart source. -/
structure Compression where
  output : String
  strategy : Strategy
  sourceLength : Nat
  compressedLength : Nat
  references : Nat
  /-- The ids of the patterns that were registered on the way. -/
  minted : List String

namespace Compression

/-- By how many per cent the document is shorter than the source. -/
def reduction (c : Compression) : Float :=
  if c.sourceLength = 0 then 0.0
  else (1.0 - Float.ofNat c.compressedLength / Float.ofNat c.sourceLength) * 100.0

/-- The document's share of the length of the source. -/
def ratio (c : Compression) : Float :=
  if c.sourceLength = 0 then 1.0
  else Float.ofNat c.compressedLength / Float.ofNat c.sourceLength

/-- An estimate of the saved tokens, at four bytes to a token. -/
def tokenSavings (c : Compression) : Nat :=
  c.sourceLength / 4 - c.compressedLength / 4

end Compression

namespace Codec

/-- The stock vocabulary and the default configuration. -/
def withStockSymbols (r : Registry) : Codec :=
  ⟨.stock, r, .default⟩

/-- Loads the tables that a configuration names; their file has to exist. -/
def loadSymbols (c : Config) (files : String → Option String) : Except LoadError Symbols :=
  match c.symbolTablePath with
  | none => .ok .stock
  | some path =>
    match files path with
    | some text => Symbols.ofText text
    | none => .error (.missingFile path)

/-- Loads the registry of a file; a file that does not exist yet is an empty registry. -/
def registryOfFile (file : Option String) : Except LoadError Registry :=
  match file with
  | some text => Registry.ofText text
  | none => .ok .empty

/-- A codec for a configuration, with everything loaded that it names. -/
def ofConfig (c : Config) (files : String → Option String) : Except LoadError Codec := do
  c.check
  let symbols ← loadSymbols c files
  let registry ← registryOfFile (c.registryPath.bind files)
  return ⟨symbols, registry, c⟩

/-- The configured strategy, or the selected one. -/
def selectStrategy (c : Codec) (tree : Node) : Decision :=
  match c.config.strategy with
  | some strategy => ⟨strategy, .configured, .ofTree tree c.registry, c.config.thresholds⟩
  | none => c.config.thresholds.select tree c.registry

def encoder (c : Codec) (strategy : Strategy) : Encoder :=
  ⟨c.symbols, c.registry, strategy, c.config.encodeOptions⟩

def decoder (c : Codec) : Decoder :=
  ⟨c.symbols, c.registry, c.config.maxDepth⟩

/-- The first half of a compression: the tree is written with the registry as it is. -/
def write (c : Codec) (tree : Node) : Except EncodeError Encoded :=
  (c.encoder (c.selectStrategy tree).strategy).encode tree

/-- The second half: the patterns that were found are registered. The registry may be another one by
then. Without numbers for all of them there is no answer, and none is registered. -/
def finish (c : Codec) (tree : Node) (encoded : Encoded) : Option (Compression × Codec) :=
  (c.registry.commit encoded.minted).map fun (ids, registry) =>
    let source := Dart.source Dart.defaultIndent tree
    (⟨encoded.document, encoded.strategy, source.utf8ByteSize, encoded.document.utf8ByteSize,
      encoded.references, ids⟩, { c with registry := registry })

/-- Writes a tree and registers the patterns that were found in it. -/
def compress (c : Codec) (tree : Node) : Except EncodeError (Option (Compression × Codec)) :=
  (c.write tree).map (c.finish tree)

def decompress (c : Codec) (document : String) : Except ParseError Node :=
  c.decoder.decode document

/-- The Dart source of a document. -/
def toSource (c : Codec) (document : String) : Except ParseError String :=
  (c.decompress document).map (Dart.source Dart.defaultIndent)

def validator (c : Codec) : Validator :=
  ⟨c.symbols, c.registry, c.config.strategy, c.config.thresholds, c.config.encodeOptions⟩

def validate (c : Codec) (tree : Node) : Except EncodeError Validation :=
  c.validator.validate tree

/-- The path of the registry and the text to store there. -/
def registryFile (c : Codec) (now : Text.Timestamp) : Except LoadError (String × String) :=
  match c.config.registryPath with
  | some path => .ok (path, c.registry.toText now)
  | none => .error (.invalidConfig .noRegistryPath)

end Codec

end WidgetShorthand
