/-
Why an extraction fails: the stage that failed, with its cause.
-/
import TagHarvest.Directive.Error
import TagHarvest.Source.Load
import TagHarvest.Tagging.HeaderTest

namespace TagHarvest

inductive ExtractionError where
  | source (e : SourceError)
  | tag (e : TagError)
  | directive (e : DirectiveError)
  | tagging (e : TaggingError)
  /-- A document of directives cannot be read from its file. -/
  | file (fault : FileFault)
  | noSources
  deriving DecidableEq, Repr

def ExtractionError.message : ExtractionError → String
  | source e => s!"Source error: {e.message}"
  | tag e => e.message
  | directive e => s!"Directive error: {e.message}"
  | tagging e => s!"Tagging error: {e.message}"
  | file fault => s!"IO error: {fault.message}"
  | noSources => "No tagged sources to extract"

end TagHarvest
