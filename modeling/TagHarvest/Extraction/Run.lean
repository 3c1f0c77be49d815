/-
Extraction: sources are loaded, tagged and harvested one after the other into one store; conversion runs
once over the whole store; and last come the tables to keep and to drop.
-/
import TagHarvest.Conversion.Run
import TagHarvest.Extraction.Error
import TagHarvest.Harvest
import TagHarvest.Tagging.Apply

namespace TagHarvest

structure ExtractionOptions where
  rules : HarvestRules := {}
  /-- Whether warnings are kept from the log. -/
  silent : Bool := false
  /-- The tables to keep, all if there are none. -/
  keep : List String := []
  /-- The tables to drop. -/
  drop : List String := []

/-- What a source gave. -/
structure SourceReport where
  source : String
  sheet : String
  count : HarvestCount
  /-- How many headers were tagged by directives. -/
  tagged : Nat
  deriving DecidableEq, Repr

structure Extraction where
  store : Store
  sources : List SourceReport
  /-- The report of the conversion, if there was one. -/
  conversion : Option ConversionReport

def Extraction.summary (x : Extraction) : String :=
  s!"Extracted: {x.sources.length} sources, {x.store.size} tables, {x.store.recordCount} records"

/-- What is kept between the steps of an extraction. -/
structure ExtractionState where
  harvest : Harvest
  diagnostics : Diagnostics

/-- A part of an extraction, which may fail and then keeps the diagnostics. -/
abbrev Extracting := EStateM ExtractionError ExtractionState

namespace Extracting

/-- Goes on with a result, or fails. -/
def ofExcept {α ε : Type} (wrap : ε → ExtractionError) : Except ε α → Extracting α
  | .ok a => return a
  | .error e => throw (wrap e)

section

variable [PatternSyntax] (m : Matchers)

/-- Tags a worksheet; without tagging groups it stays as it is. -/
def tag (d : Directives) (sheet : Worksheet) : Extracting (Worksheet × TaggingSummary) := do
  let o := sheet.applyTagging m.finds d.tagging (← get).diagnostics
  modify fun s => { s with diagnostics := o.diagnostics }
  let summary ← ofExcept .tagging o.result
  return (o.sheet, summary)

/-- Takes a source into the store. -/
def source (view : FileView) (d : Directives) (rules : HarvestRules) (text : String) :
    Extracting SourceReport := do
  let sheet ← ofExcept .source (view.worksheet text)
  let (sheet, summary) ← tag m d sheet
  let (result, harvest) := (← get).harvest.worksheet rules sheet
  modify fun s => { s with harvest }
  let count ← ofExcept .tag result
  if count.headers = 0 then
    let warning := s!"No '#tags' header found in {sheet.source}:{sheet.name}"
    modify fun s => { s with diagnostics := s.diagnostics.warn warning }
  return ⟨sheet.source, sheet.name, count, summary.headers⟩

/-- Converts the store, if there are conversion directives. -/
def convert (d : Directives) : Extracting (Option ConversionReport) := do
  if d.conversion.isEmpty then return none
  let s ← get
  let c := s.harvest.store.applyConversion m d.conversion s.diagnostics
  set (⟨{ s.harvest with store := c.store }, c.diagnostics⟩ : ExtractionState)
  some <$> ofExcept .directive c.result

/-- Extracts sources by directives. -/
def sources (view : FileView) (d : Directives) (options : ExtractionOptions)
    (texts : List String) : Extracting Extraction := do
  if texts.isEmpty then throw .noSources
  let reports ← texts.mapM (source m view d options.rules)
  let conversion ← convert m d
  return ⟨(← get).harvest.store.select options.keep options.drop, reports, conversion⟩

end

end Extracting

/-- Extracts sources, and tells the diagnostics. -/
def FileView.extract [PatternSyntax] (view : FileView) (m : Matchers) (d : Directives) (options : ExtractionOptions)
    (texts : List String) : Except ExtractionError Extraction × Diagnostics :=
  let start : ExtractionState := ⟨{ store := .empty }, { silent := options.silent }⟩
  match Extracting.sources m view d options texts start with
  | .ok x s => (.ok x, s.diagnostics)
  | .error e s => (.error e, s.diagnostics)

end TagHarvest
