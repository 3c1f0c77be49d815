import TagHarvest.Main
import TagHarvest.Proofs.Conversion.Failure
import TagHarvest.Proofs.Harvest.Again
import TagHarvest.Proofs.Harvest.RoundTrip
import TagHarvest.Proofs.Harvest.Sound
import TagHarvest.Proofs.Header.Acceptance
import TagHarvest.Proofs.Header.ParentLink
import TagHarvest.Proofs.Header.Reference
import TagHarvest.Proofs.Conversion.Matches
import TagHarvest.Proofs.Delimited.Reader
import TagHarvest.Proofs.Delimited.Slice
import TagHarvest.Proofs.Delimited.Boundary
import TagHarvest.Proofs.Delimited.RoundTrip
import TagHarvest.Proofs.Json.Codec
import TagHarvest.Proofs.Record.Document
import TagHarvest.Proofs.Cell.Spelling
import TagHarvest.Proofs.Tagging.Growth
import TagHarvest.Proofs.Tagging.Columns
import TagHarvest.Proofs.Json.Merging
import TagHarvest.Proofs.Json.Printer
import TagHarvest.Proofs.Directive.Form
import TagHarvest.Proofs.Directive.Codec
import TagHarvest.Proofs.Directive.RoundTrip
import TagHarvest.Proofs.Record.Lineage
import TagHarvest.Proofs.Record.Kinship
import TagHarvest.Proofs.Tagging.Scope
import TagHarvest.Proofs.Tagging.Layout
import TagHarvest.Proofs.Tagging.Succession
import TagHarvest.Proofs.Record.Difference
import TagHarvest.Proofs.Record.Overwriting
import TagHarvest.Proofs.Conversion.Unused
import TagHarvest.Proofs.Conversion.TableOrder
import TagHarvest.Proofs.Harvest.Propagation
import TagHarvest.Proofs.Harvest.Division
import TagHarvest.Proofs.Header.Globals
import TagHarvest.Proofs.Tagging.Recognition
import TagHarvest.Proofs.Conversion.Pairing
import TagHarvest.Proofs.Conversion.Interruption
import TagHarvest.Proofs.Conversion.Atomicity
import TagHarvest.Proofs.Conversion.FieldRenaming
import TagHarvest.Proofs.Header.Assembly
import TagHarvest.Proofs.Directive.Worksheet
import TagHarvest.Proofs.Header.QualifiedRow
import TagHarvest.Proofs.Header.Marker
import TagHarvest.Proofs.Expression
import TagHarvest.Proofs.Directive.ColumnOrder
import TagHarvest.Proofs.Record.Closeness
import TagHarvest.Proofs.Record.Ascent
import TagHarvest.Proofs.Directive.Folding
import TagHarvest.Proofs.Header.FaultLocation
import TagHarvest.Proofs.Pattern.Replacement
