import SourceOutline.Main
import SourceOutline.Proofs.BareHeads
import SourceOutline.Proofs.CarriageReturns
import SourceOutline.Proofs.ClassNesting
import SourceOutline.Proofs.ClosingBraces
import SourceOutline.Proofs.CommentSummaries
import SourceOutline.Proofs.DeclarationRoundTrip
import SourceOutline.Proofs.DefaultChains
import SourceOutline.Proofs.DefaultExports
import SourceOutline.Proofs.EncodedTexts
import SourceOutline.Proofs.ExportSpans
import SourceOutline.Proofs.ExportedElements
import SourceOutline.Proofs.ExportedNames
import SourceOutline.Proofs.Fallible
import SourceOutline.Proofs.FileSelection
import SourceOutline.Proofs.FirstMatch
import SourceOutline.Proofs.Grouping
import SourceOutline.Proofs.ImportedNames
import SourceOutline.Proofs.LeadingNewlines
import SourceOutline.Proofs.LineComments
import SourceOutline.Proofs.MethodBlocks
import SourceOutline.Proofs.MethodSearch
import SourceOutline.Proofs.NameLists
import SourceOutline.Proofs.RecordKeys
import SourceOutline.Proofs.ReportedOutlines
import SourceOutline.Proofs.ScanSettings
import SourceOutline.Proofs.StatementHeaders
