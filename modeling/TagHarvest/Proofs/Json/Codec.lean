/-
Ways of writing values as JSON that lose nothing: the value is read back, also when the repeated members of
objects are merged first, since there are none, and also from its pretty text. Texts, flags, lists of values
and ordered maps are written so.
-/
import TagHarvest.Json.Codec
import TagHarvest.Proofs.Json.Merging
import TagHarvest.Proofs.Json.Printer

namespace TagHarvest.Json

variable {α β : Type}

/-- Values are written as JSON that is read back, repeats no name, and is at most `depth` containers deep. -/
structure Lossless (write : α → Json) (read : Json → Option α) (depth : Nat) : Prop where
  read_write : ∀ a, read (write a) = some a
  distinct : ∀ a, (write a).Distinct
  fits : ∀ a, Fits depth (write a)

theorem Lossless.sound {write : α → Json} {read : Json → Option α} {depth : Nat}
    (h : Lossless write read depth) (a : α) : (write a).Distinct ∧ Fits depth (write a) :=
  ⟨h.distinct a, h.fits a⟩

/-! ## Lists and maps -/

/-- A list is read back item by item. -/
theorem mapM_map_eq_some {f : α → β} {g : β → Option α} (h : ∀ a, g (f a) = some a) (l : List α) :
    (l.map f).mapM g = some l := by
  induction l with
  | nil => rfl
  | cons a l ih =>
    rw [List.map_cons, List.mapM_cons, h, ih]
    rfl

theorem lossless_string (depth : Nat) : Lossless string string? depth :=
  ⟨fun _ => rfl, .string, .string⟩

theorem lossless_bool (depth : Nat) : Lossless bool bool? depth :=
  ⟨fun _ => rfl, .bool, .bool⟩

theorem Lossless.list {write : α → Json} {read : Json → Option α} {depth : Nat}
    (h : Lossless write read depth) : Lossless (fun l => array (l.map write)) (list? read) (depth + 1) where
  read_write l := mapM_map_eq_some h.read_write l
  distinct _ := .array (List.forall_mem_map.2 fun a _ => h.distinct a)
  fits _ := .array (List.forall_mem_map.2 fun a _ => h.fits a)

theorem lossless_strings (depth : Nat) : Lossless ofStrings strings? (depth + 1) :=
  (lossless_string depth).list

/-- A map is read back with its entries in their order, if its keys are told by their names. -/
theorem Lossless.map [DecidableEq α] {name : α → String} {key : String → Option α}
    (hkey : ∀ a, key (name a) = some a) {write : β → Json} {read : Json → Option β} {depth : Nat}
    (h : Lossless write read depth) : Lossless (ofMap name write) (map? key read) (depth + 1) where
  read_write m := by
    have hentries : (m.entries.map fun e => (name e.1, write e.2)).mapM
        (fun e => do return (← key e.1, ← read e.2)) = some m.entries :=
      mapM_map_eq_some (fun e => by simp [hkey, h.read_write]) m.entries
    show Option.map OrderedMap.ofList (List.mapM _ (m.entries.map fun e => (name e.1, write e.2))) = some m
    rw [hentries]
    exact congrArg some (OrderedMap.ext (OrderedMap.entries_ofList m.nodup))
  distinct m := by
    have hname : Function.Injective name := fun a b hab =>
      Option.some.inj ((hkey a).symm.trans ((congrArg key hab).trans (hkey b)))
    refine .object ?_ (List.forall_mem_map.2 fun e _ => h.distinct e.2)
    have hnames : (m.entries.map fun e => (name e.1, write e.2)).map Prod.fst =
        (m.entries.map Prod.fst).map name := by
      rw [List.map_map, List.map_map]
      rfl
    rw [hnames]
    exact m.nodup.map hname
  fits m := .object (List.forall_mem_map.2 fun e _ => h.fits e.2)

theorem Lossless.textMap {write : β → Json} {read : Json → Option β} {depth : Nat}
    (h : Lossless write read depth) : Lossless (ofTextMap write) (textMap? read) (depth + 1) :=
  h.map fun _ => rfl

/-- What is written without loss is read from its pretty text, merged or not. -/
theorem Lossless.read?_pretty {write : α → Json} {read : Json → Option α} (h : Lossless write read depthLimit)
    (a : α) : (read? (write a).pretty).bind read = some a ∧
      ((read? (write a).pretty).map Json.merged).bind read = some a := by
  rw [Json.read?_pretty (h.fits a), Option.map_some, Option.bind_some, Option.bind_some,
    (h.distinct a).merged_eq]
  exact ⟨h.read_write a, h.read_write a⟩

end TagHarvest.Json
