/-
What a merge leaves alone. A value holds another if it has all of its texts, a record holds another if its
fields hold the other's, and a store holds a record if the one under its id does. At each of these levels
merging makes held what it adds, keeps what was held, and changes nothing that is held already. So a list of
records changes a store exactly if it has one that the store does not hold, and never changes it twice.
-/
import TagHarvest.Proofs.Record.Sound

namespace TagHarvest

/-! ## Steps that add up -/

/-- Steps that make hold what they add, keep what holds, and change nothing if it holds already. -/
structure Absorbing {α β : Type} (f : α → β → α) (Holds : α → β → Prop) : Prop where
  gains : ∀ a b, Holds (f a b) b
  keeps : ∀ a b c, Holds a c → Holds (f a b) c
  fixed : ∀ a b, Holds a b → f a b = a

namespace Absorbing

variable {α β : Type} {f : α → β → α} {Holds : α → β → Prop}

theorem foldl_keeps (h : Absorbing f Holds) {a : α} {c : β} (hc : Holds a c) (l : List β) :
    Holds (l.foldl f a) c :=
  List.foldlRecOn (motive := fun a => Holds a c) l f hc fun _ ha _ _ => h.keeps _ _ c ha

theorem foldl_gains (h : Absorbing f Holds) (a : α) {l : List β} {b : β} (hb : b ∈ l) :
    Holds (l.foldl f a) b := by
  induction l generalizing a with
  | nil => cases hb
  | cons c l ih =>
    rcases List.mem_cons.1 hb with rfl | hb
    · exact h.foldl_keeps (h.gains a b) l
    · exact ih (f a c) hb

theorem foldl_fixed (h : Absorbing f Holds) {a : α} {l : List β} (hl : ∀ b ∈ l, Holds a b) :
    l.foldl f a = a := by
  induction l with
  | nil => rfl
  | cons b l ih =>
    rw [List.foldl_cons, h.fixed a b (hl b List.mem_cons_self)]
    exact ih fun c hc => hl c (List.mem_cons_of_mem b hc)

/-- Many steps change nothing exactly if all that they add holds already. -/
theorem foldl_eq_self_iff (h : Absorbing f Holds) {a : α} {l : List β} :
    l.foldl f a = a ↔ ∀ b ∈ l, Holds a b :=
  ⟨fun he _ hb => he ▸ h.foldl_gains a hb, h.foldl_fixed⟩

end Absorbing

/-! ## Values -/

namespace FieldValue

variable {v w : FieldValue}

theorem absorbing_addNew :
    Absorbing (fun (seen : List String) s => if s ∈ seen then seen else seen ++ [s])
      (fun seen s => s ∈ seen) where
  gains seen s := by
    split
    · assumption
    · exact List.mem_append_right _ (List.mem_singleton_self s)
  keeps seen s t ht := by
    split
    · exact ht
    · exact List.mem_append_left _ ht
  fixed seen s hs := if_pos hs

/-- The value has all texts of another. -/
def Holds (v w : FieldValue) : Prop := w.texts ⊆ v.texts

/-- Whatever its shape becomes, a merged value has the texts of before and after them the new ones. -/
theorem texts_merge (v w : FieldValue) : (v.merge w).texts = addNew v.texts w.texts := by
  unfold merge
  split
  · rename_i h
    rw [← h]
    exact (absorbing_addNew.foldl_fixed fun s hs => hs).symm
  · cases v with
    | list l => rfl
    | scalar s =>
      dsimp only
      split
      · rename_i t ht
        exact ht.symm
      · rfl

theorem merge_eq_self_of_holds (h : v.Holds w) : v.merge w = v := by
  unfold merge
  split
  · rfl
  · have hnew : addNew v.texts w.texts = v.texts := absorbing_addNew.foldl_fixed fun s hs => h hs
    cases v with
    | list l => exact congrArg list hnew
    | scalar s =>
      change addNew [s] w.texts = [s] at hnew
      dsimp only
      rw [hnew]

theorem absorbing_merge : Absorbing merge Holds where
  gains v w s hs := by
    rw [texts_merge]
    exact mem_addNew.2 (.inr hs)
  keeps v w u hu s hs := by
    rw [texts_merge]
    exact mem_addNew.2 (.inl (hu hs))
  fixed v w := merge_eq_self_of_holds

end FieldValue

/-! ## Records -/

namespace Record

/-- The field is there, and holds the value. -/
def HoldsField (r : Record) (f : String × FieldValue) : Prop :=
  ∃ v, r.get? f.1 = some v ∧ v.Holds f.2

/-- Every field of `other` is there, and holds the value it has in `other`. -/
def Holds (r other : Record) : Prop := ∀ f ∈ other.entries, r.HoldsField f

theorem absorbing_alter :
    Absorbing (fun (r : Record) (f : String × FieldValue) =>
      r.alter f.1 fun | some v => v.merge f.2 | none => f.2) HoldsField where
  gains r f := by
    refine ⟨_, OrderedMap.get?_alter_self r f.1 _, ?_⟩
    cases OrderedMap.get? r f.1 with
    | none => exact fun _ hs => hs
    | some v => exact FieldValue.absorbing_merge.gains v f.2
  keeps r f g := by
    rintro ⟨v, hv, hg⟩
    by_cases hk : f.1 = g.1
    · refine ⟨v.merge f.2, ?_, FieldValue.absorbing_merge.keeps v f.2 g.2 hg⟩
      rw [← hk] at hv ⊢
      rw [OrderedMap.get?_alter_self, hv]
    · exact ⟨v, by rw [OrderedMap.get?_alter_of_ne r _ hk, hv], hg⟩
  fixed r f := by
    rintro ⟨v, hv, hf⟩
    exact OrderedMap.alter_of_get? hv (FieldValue.absorbing_merge.fixed v f.2 hf)

theorem absorbing_absorb : Absorbing absorb Holds where
  gains r _ _ hf := absorbing_alter.foldl_gains r hf
  keeps _ other _ h f hf := absorbing_alter.foldl_keeps (h f hf) other.entries
  fixed _ _ h := absorbing_alter.foldl_fixed h

theorem holds_refl (r : Record) : r.Holds r :=
  fun f hf => ⟨f.2, OrderedMap.get?_of_mem hf, fun _ hs => hs⟩

end Record

/-! ## Stores -/

namespace Store

/-- The record that stands under the record's id in the table holds the record. -/
def Holds (s : Store) (e : String × Record) : Prop :=
  ∀ id, e.2.id? = some id → ∃ old, s.record? e.1 id = some old ∧ old.Holds e.2

variable {s : Store} {table name : String} {r : Record}

theorem table?_updateTable (s : Store) (table name : String) (f : Table → Table) :
    (s.updateTable table f).table? name =
      if table = name then some (f (s.tableOrEmpty table)) else s.table? name :=
  OrderedMap.get?_insert s table name _

theorem get?_tableOrEmpty (s : Store) (table id : String) :
    (s.tableOrEmpty table).get? id = s.record? table id := by
  unfold tableOrEmpty record?
  cases s.table? table <;> rfl

/-- What a record becomes when the row's record `r` is merged into it. -/
theorem record?_mergeRecord {id : String} (hid : r.id? = some id) (key : String) :
    (s.mergeRecord table r).record? name key =
      if table = name ∧ id = key then
        some (match s.record? table id with
          | none => r
          | some old => old.absorb r)
      else s.record? name key := by
  unfold mergeRecord
  rw [hid]
  show ((s.updateTable table _).table? name).bind _ = _
  rw [table?_updateTable]
  by_cases hn : table = name
  · subst hn
    rw [if_pos rfl, Option.bind_some, OrderedMap.get?_alter, get?_tableOrEmpty]
    by_cases hk : id = key
    · subst hk
      exact (if_pos rfl).trans (if_pos ⟨rfl, rfl⟩).symm
    · rw [if_neg hk, if_neg fun h => hk h.2]
      exact get?_tableOrEmpty s table key
  · rw [if_neg hn, if_neg fun h => hn h.1]
    rfl

theorem mergeRecord_of_none (h : r.id? = none) : s.mergeRecord table r = s := by
  unfold mergeRecord
  rw [h]

theorem mergeRecord_of_holds (h : s.Holds (table, r)) : s.mergeRecord table r = s := by
  cases hid : r.id? with
  | none => exact mergeRecord_of_none hid
  | some id =>
    obtain ⟨old, hold, hr⟩ := h id hid
    obtain ⟨t, ht, hold⟩ := record?_eq_some_iff.1 hold
    have htable : s.tableOrEmpty table = t := by
      unfold tableOrEmpty
      rw [ht]; rfl
    unfold mergeRecord
    rw [hid]
    show s.insert table (OrderedMap.alter (s.tableOrEmpty table) id _) = s
    rw [htable, OrderedMap.alter_of_get? hold (Record.absorbing_absorb.fixed old r hr)]
    exact OrderedMap.insert_of_get? ht

theorem absorbing_mergeRecord :
    Absorbing (fun (s : Store) (e : String × Record) => s.mergeRecord e.1 e.2) Holds where
  gains s e id hid := by
    refine ⟨_, by rw [record?_mergeRecord hid, if_pos ⟨rfl, rfl⟩], ?_⟩
    cases s.record? e.1 id with
    | none => exact Record.holds_refl e.2
    | some old => exact Record.absorbing_absorb.gains old e.2
  keeps s e g hg id hid := by
    obtain ⟨old, hold, hr⟩ := hg id hid
    cases he : e.2.id? with
    | none => exact ⟨old, by rw [mergeRecord_of_none he]; exact hold, hr⟩
    | some key =>
      by_cases hk : e.1 = g.1 ∧ key = id
      · refine ⟨old.absorb e.2, ?_, Record.absorbing_absorb.keeps old e.2 g.2 hr⟩
        rw [record?_mergeRecord he, if_pos hk, hk.1, hk.2, hold]
      · exact ⟨old, by rw [record?_mergeRecord he, if_neg hk]; exact hold, hr⟩
  fixed s e := mergeRecord_of_holds

/-- Merges records with their tables, one after the other. -/
def mergeAll (s : Store) (es : List (String × Record)) : Store :=
  es.foldl (fun s e => s.mergeRecord e.1 e.2) s

/-- Records change a store exactly if it does not hold all of them. -/
theorem mergeAll_eq_self_iff {es : List (String × Record)} : s.mergeAll es = s ↔ ∀ e ∈ es, s.Holds e :=
  absorbing_mergeRecord.foldl_eq_self_iff

theorem holds_mergeAll (s : Store) {es : List (String × Record)} {e : String × Record} (he : e ∈ es) :
    (s.mergeAll es).Holds e :=
  absorbing_mergeRecord.foldl_gains s he

theorem mergeAll_append (s : Store) (es fs : List (String × Record)) :
    s.mergeAll (es ++ fs) = (s.mergeAll es).mergeAll fs :=
  List.foldl_append

/-- The same records change nothing a second time. -/
theorem mergeAll_mergeAll (s : Store) (es : List (String × Record)) :
    (s.mergeAll es).mergeAll es = s.mergeAll es :=
  mergeAll_eq_self_iff.2 fun _ he => holds_mergeAll s he

end Store
end TagHarvest
