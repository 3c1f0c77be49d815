/-
Blocks of a worksheet without tags: a header row that fits the descriptions of a tagging group, and the
data rows below it down to the next blank row or `#tags` row. A header that already has an `#ignore` row
and a `#tags` row right below it keeps them, and its data rows begin after them.
-/
import TagHarvest.Directive.Document
import TagHarvest.Tagging.HeaderTest

namespace TagHarvest

/-- A description with the test that it stands for. -/
structure Description where
  header : HeaderDescription
  test : HeaderTest

/-- Where the values of a description come from. -/
inductive ValueSource where
  | column (index : Nat)
  | computed (e : Expression)

namespace Description

def compile [PatternSyntax] (d : HeaderDescription) : Except TaggingError Description :=
  (HeaderTest.ofText d.header).map fun t => ⟨d, t⟩

section

variable (finds : Pattern → String → Bool)

/-- The first column that passes exactly, or else the first that passes loosely, among those left. -/
def column? (t : HeaderTest) (taken : List Nat) (row : Row) : Option Nat :=
  let free := (List.range row.length).filter fun c => !taken.contains c
  free.find? (fun c => t.exact finds (row.cell c)) <|> free.find? fun c => t.loose finds (row.cell c)

/-- The source of a test in a header row whose columns are partly taken. -/
def source? (t : HeaderTest) (taken : List Nat) (row : Row) : Option ValueSource :=
  match t with
  | .computed e =>
    if HeaderTest.computes finds e (HeaderTest.headerRecord row) then some (.computed e) else none
  | t => (column? finds t taken row).map .column

/-- The columns taken once a source is found. -/
def taking (taken : List Nat) : Option ValueSource → List Nat
  | some (.column c) => c :: taken
  | _ => taken

/-- The sources of descriptions, in turn; none as soon as a required one has no source. -/
def sources? : (taken : List Nat) → List Description → Row → Option (List (Option ValueSource))
  | _, [], _ => some []
  | taken, d :: ds, row =>
    let source := source? finds d.test taken row
    if source.isNone && d.header.required then none
    else (sources? (taking taken source) ds row).map (source :: ·)

/-- The sources in a row that is a header of the descriptions: at least one of them has a source. -/
def matchHeader? (ds : List Description) (row : Row) : Option (List (Option ValueSource)) :=
  match sources? finds [] ds row with
  | some sources => if sources.any Option.isSome then some sources else none
  | none => none

end

end Description

/-- A header row and the data rows below it. -/
structure Block where
  /-- The index of the header row. -/
  header : Nat
  /-- Whether an `#ignore` row and a `#tags` row follow the header. -/
  tagged : Bool
  /-- The number of data rows. -/
  length : Nat
  /-- The source of each description. -/
  sources : List (Option ValueSource)

namespace Block

/-- The index of the first data row. -/
def start (b : Block) : Nat := if b.tagged then b.header + 3 else b.header + 1

/-- The index of the first row below the block. -/
def stop (b : Block) : Nat := b.start + b.length

/-- True if an `#ignore` row and a `#tags` row come first. -/
def hasLabels : List Row → Bool
  | a :: b :: _ => a.isIgnore && b.isTags
  | _ => false

/-- The rows after the labels that come first, if they do. -/
def afterLabels (rows : List Row) : List Row := if hasLabels rows then rows.drop 2 else rows

/-- The rows before the first one that is blank or a `#tags` row. -/
def dataRows (rows : List Row) : List Row := rows.takeWhile fun r => !r.isBlank && !r.isTags

theorem length_afterLabels (rows : List Row) : (afterLabels rows).length ≤ rows.length := by
  unfold afterLabels
  split <;> simp

theorem length_dataRows (rows : List Row) : (dataRows rows).length ≤ rows.length :=
  (List.takeWhile_sublist _).length_le

section

variable (finds : Pattern → String → Bool) (ds : List Description) (exclusion : Option HeaderTest)

/-- The sources of a row outside all tagged blocks, if it is a header. -/
def candidate? (row : Row) : Option (List (Option ValueSource)) :=
  if row.isIgnore || exclusion.any (·.passesRow finds row) then none
  else Description.matchHeader? finds ds row

/--
The blocks among the rows from an index on, top down. In the scope of a `#tags` row, which ends at a
blank row, nothing is a header.
-/
def find : (index : Nat) → (inScope : Bool) → List Row → List Block
  | _, _, [] => []
  | index, inScope, row :: below =>
    if row.isTags then find (index + 1) true below
    else if row.isBlank then find (index + 1) false below
    else match if inScope then none else candidate? finds ds exclusion row with
    | none => find (index + 1) inScope below
    | some sources =>
      let under := afterLabels below
      let b : Block := ⟨index, hasLabels below, (dataRows under).length, sources⟩
      b :: find b.stop false (under.drop b.length)
termination_by _ _ rows => rows.length
decreasing_by
  · simp only [List.length_cons]; omega
  · simp only [List.length_cons]; omega
  · simp only [List.length_cons]; omega
  · have := length_afterLabels below
    simp only [List.length_cons, List.length_drop]; omega

end

end Block
end TagHarvest
