/-
The actions of commands on the files they see. Stores go to the output or into a file, everything else to
the log.
-/
import TagHarvest.Command.Action
import TagHarvest.Command.Basic
import TagHarvest.Extraction.Directives
import TagHarvest.Extraction.Run
import TagHarvest.Record.Difference
import TagHarvest.Record.Document

namespace TagHarvest.Command

/-- Goes on with a result, or fails with its message. -/
def orFail {α ε : Type} (message : ε → String) (r : Except ε α) (next : α → List Action) :
    List Action :=
  match r with
  | .ok a => next a
  | .error e => [.fail (message e)]

/-- The store of a document, or what is wrong with the file. -/
def readStore (view : FileView) (path : String) : Except String Store :=
  match view.text path with
  | .error fault => .error fault.message
  | .ok text =>
    match Store.ofDocument? text with
    | some s => .ok s
    | none => .error s!"'{path}' is not the document of a store"

def withStore (view : FileView) (path : String) (next : Store → List Action) : List Action :=
  orFail id (readStore view path) next

/-- Tells how two stores differ. -/
def tellDifferences (left right : Store) : List Action :=
  let d := left.differences right
  if d.isIdentical then [.tell "✅ Stores are identical"]
  else .tell "🔍 Differences:" :: d.lines.map fun line => .tell s!"   {line}"

/-- Writes a document to a file, or to the output. -/
def deliver (document : String) (output : Option String) : List Action :=
  match output with
  | some path => [.save path document, .tell s!"💾 Output written to: {path}"]
  | none => [.print document]

def tellSource (r : SourceReport) : Action :=
  .tell (s!"📄 {r.source}:{r.sheet}: {r.count.rows} rows, {r.count.headers} headers, " ++
    s!"{r.count.records} records")

def tellConversion (r : ConversionReport) : List Action :=
  .tell s!"⚙️  {r.summary}" ::
    r.unused.map fun u => .tell s!"   ⚠️  Unused directive: {u.display}"

/-- The directives of an extraction: conversion from one document, tagging from another. -/
def directives (view : FileView) (c : ExtractCommand) : Except ExtractionError Directives := do
  let conversion ← match c.conversion with
    | some text => (view.directives text).map (·.conversion)
    | none => .ok .empty
  let tagging ← match c.tagging with
    | some text => (view.directives text).map (·.tagging)
    | none => .ok []
  return { conversion, tagging }

def extractionOptions (c : ExtractCommand) : ExtractionOptions where
  rules := { propagate := c.propagate }
  silent := c.silent
  keep := c.keep
  drop := c.drop

/-- What is told and delivered of an extraction. -/
def report (view : FileView) (c : ExtractCommand) (x : Extraction) : List Action :=
  x.sources.map tellSource ++
    (x.conversion.map tellConversion).getD [] ++
    (match c.compareWith with
      | some path => withStore view path (tellDifferences x.store)
      | none => []) ++
    (if c.lineage then [.tell x.store.lineageDocument] else []) ++
    deliver x.store.document c.output ++
    [.tell s!"✨ {x.summary}"]

def extractActions (view : FileView) (c : ExtractCommand) : List Action :=
  orFail ExtractionError.message (directives view c) fun d =>
    orFail ExtractionError.message
      (view.extract .standard d (extractionOptions c) c.sources).1 (report view c)

def mergeActions (view : FileView) (paths : List String) (output : Option String) : List Action :=
  orFail id (paths.mapM (readStore view)) fun stores =>
    let merged := stores.foldl Store.merge .empty
    .tell (s!"📦 Merged {paths.length} stores: {merged.size} tables, " ++
      s!"{merged.recordCount} records") :: deliver merged.document output

/-- The actions of a command. -/
def actions (view : FileView) : Command → List Action
  | extract c => extractActions view c
  | compare first second =>
    withStore view first fun left => withStore view second fun right => tellDifferences left right
  | merge paths output => mergeActions view paths output
  | lineage path => withStore view path fun s => [.print s.lineageDocument]

/-- How the program is used. -/
def usage : String := "\n".intercalate [
  "Extracts records from tagged worksheets.",
  "",
  "Commands:",
  "  extract SOURCE... [-c DIRECTIVES] [-t DIRECTIVES] [-o OUTPUT] [--compare STORE] [--lineage]",
  "          [--keep TABLE...] [--delete TABLE...] [--no-propagate] [-s]",
  "  compare STORE STORE",
  "  merge STORE STORE... [-o OUTPUT]",
  "  lineage STORE",
  "  help"]

/-- The actions that arguments call for. -/
def argumentActions (view : FileView) (texts : List String) : List Action :=
  match ofArguments texts with
  | .ok c => c.actions view
  | .error .help => [.print usage]
  | .error (.fault f) => [.stop 2 s!"error: {f.message}"]

/-- The paths that a reference may be meant as. -/
def referencePaths (text : String) : List String :=
  text :: (SourceReference.cutSheet? text).toList.map Prod.fst

/-- The paths of the files that a command may read. -/
def paths : Command → List String
  | extract c =>
    (c.sources ++ c.conversion.toList ++ c.tagging.toList).flatMap referencePaths ++
      c.compareWith.toList
  | compare first second => [first, second]
  | merge paths _ => paths
  | lineage path => [path]

end TagHarvest.Command
