/-
Documents of stores. A value of a field is a string or an array of strings, which tells scalars from lists,
and the three levels above it are objects in the order of their maps; so a document gives back its store,
read from the text itself or from a value made of it.
-/
import TagHarvest.Record.Document
import TagHarvest.Proofs.Json.Codec

namespace TagHarvest

theorem FieldValue.lossless (depth : Nat) : Json.Lossless toJson ofJson? (depth + 1) where
  read_write v := by
    cases v with
    | scalar s => rfl
    | list l =>
      have hlist := (Json.lossless_string depth).list.read_write l
      show (Json.list? Json.string? (.array (l.map .string))).map FieldValue.list = _
      rw [hlist]
      rfl
  distinct v := by
    cases v with
    | scalar s => exact .string s
    | list l => exact (Json.lossless_string depth).list.distinct l
  fits v := by
    cases v with
    | scalar s => exact .string s
    | list l => exact (Json.lossless_string depth).list.fits l

namespace Store

theorem lossless (depth : Nat) : Json.Lossless toJson ofJson? (depth + 4) :=
  (FieldValue.lossless depth).textMap.textMap.textMap

/--
Every store comes back from its document, with its tables, records, fields and items in their order and
with scalars apart from lists of one item; also when the text is first made a value with merged members.
-/
theorem document_lossless (s : Store) :
    ofDocument? s.document = some s ∧
      ((Json.read? s.document).map Json.merged).bind ofJson? = some s :=
  (lossless 123).read?_pretty s

end Store
end TagHarvest
