import WidgetShorthand.Codec
import WidgetShorthand.Document.ByteDecode
import WidgetShorthand.Registry.Stock
import WidgetShorthand.Proofs.Success
import WidgetShorthand.Proofs.TokenEnds
import WidgetShorthand.Proofs.TableLookup
import WidgetShorthand.Proofs.Reading
import WidgetShorthand.Proofs.TokenReading
import WidgetShorthand.Proofs.SameShape
import WidgetShorthand.Proofs.Filling
import WidgetShorthand.Proofs.Echo
import WidgetShorthand.Proofs.WidgetReading
import WidgetShorthand.Proofs.DeclarationReading
import WidgetShorthand.Proofs.DocumentReading
import WidgetShorthand.Proofs.RegistryGrowth
import WidgetShorthand.Proofs.RegistryRuns
import WidgetShorthand.Proofs.LaterRegistries
import WidgetShorthand.Proofs.DepthCounting
import WidgetShorthand.Proofs.JsonReading
import WidgetShorthand.Proofs.RecordReading
import WidgetShorthand.Proofs.RegistryFiles
import WidgetShorthand.Proofs.RoundTrip
import WidgetShorthand.Proofs.Sessions
import WidgetShorthand.Proofs.WritingAgain
import WidgetShorthand.Proofs.NormalForm
import WidgetShorthand.Proofs.SpelledScalars
import WidgetShorthand.Proofs.Validation
import WidgetShorthand.Proofs.CheckedNames
import WidgetShorthand.Proofs.Fingerprints
import WidgetShorthand.Proofs.BufferCommits
import WidgetShorthand.Proofs.Minting
import WidgetShorthand.Proofs.LayoutAndFolding
import WidgetShorthand.Proofs.Progress
import WidgetShorthand.Proofs.DecodingEnds
import WidgetShorthand.Proofs.RepeatedShapes
import WidgetShorthand.Proofs.SlotOrder
import WidgetShorthand.Proofs.FaultPlaces
import WidgetShorthand.Proofs.ScalarTexts
import WidgetShorthand.Proofs.ReferenceExpansion
import WidgetShorthand.Proofs.EditDistance
import WidgetShorthand.Proofs.SimilaritySearch
import WidgetShorthand.Proofs.PositiveFloats
import WidgetShorthand.Proofs.TreeDifferences
import WidgetShorthand.Proofs.TreeTokens
import WidgetShorthand.Proofs.TableLoading
import WidgetShorthand.Proofs.TableFiles
import WidgetShorthand.Proofs.RegistryLoading
import WidgetShorthand.Proofs.TextEndings
import WidgetShorthand.Proofs.CutTexts
import WidgetShorthand.Proofs.CutTokens
import WidgetShorthand.Proofs.CutValues
import WidgetShorthand.Proofs.CutDocuments
import WidgetShorthand.Proofs.SigilLayout
import WidgetShorthand.Proofs.Lexemes
import WidgetShorthand.Proofs.SameTokens
import WidgetShorthand.Proofs.TokenBlindness
import WidgetShorthand.Proofs.LayoutBetweenTokens
import WidgetShorthand.Proofs.TextPositions
import WidgetShorthand.Proofs.TreeMetrics
import WidgetShorthand.Proofs.StringLiterals
import WidgetShorthand.Proofs.Indentation
import WidgetShorthand.Proofs.TokenExtents
import WidgetShorthand.Proofs.ByteScans
import WidgetShorthand.Proofs.ByteTokens
import WidgetShorthand.Proofs.ByteDocuments
import WidgetShorthand.Proofs.CursorBoundaries
