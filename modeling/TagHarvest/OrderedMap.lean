/-
Maps that keep their entries in the order of first insertion. `insert` replaces a present key where it
stands and adds an absent one at the end; `erase` closes the gap; `place` moves a key to a position.
The keys of a map are distinct, which the type carries, so `get?` reads the only entry of its key.
-/

namespace TagHarvest

/-- A list of entries with distinct keys. -/
structure OrderedMap (α : Type) (β : Type) where
  entries : List (α × β)
  nodup : (entries.map Prod.fst).Nodup

namespace OrderedMap

variable {α β γ : Type}

@[ext] theorem ext {m n : OrderedMap α β} (h : m.entries = n.entries) : m = n := by
  cases m; cases n; cases h; rfl

instance [DecidableEq α] [DecidableEq β] : DecidableEq (OrderedMap α β) := fun m n =>
  if h : m.entries = n.entries then isTrue (ext h) else isFalse fun e => h (e ▸ rfl)

def empty : OrderedMap α β := ⟨[], List.nodup_nil⟩

instance : Inhabited (OrderedMap α β) := ⟨empty⟩
instance : EmptyCollection (OrderedMap α β) := ⟨empty⟩

def keys (m : OrderedMap α β) : List α := m.entries.map Prod.fst
def values (m : OrderedMap α β) : List β := m.entries.map Prod.snd
def size (m : OrderedMap α β) : Nat := m.entries.length
def isEmpty (m : OrderedMap α β) : Bool := m.entries.isEmpty

/-- The map with one entry. -/
def single (k : α) (v : β) : OrderedMap α β := ⟨[(k, v)], by simp⟩

/-- Every value replaced by a function of its key and itself. -/
def mapValues (f : α → β → γ) (m : OrderedMap α β) : OrderedMap α γ :=
  ⟨m.entries.map fun e => (e.1, f e.1 e.2), by
    simpa [List.map_map, Function.comp_def] using m.nodup⟩

/-- The entries that pass a test, in their order. -/
def filter (p : α → β → Bool) (m : OrderedMap α β) : OrderedMap α β :=
  ⟨m.entries.filter fun e => p e.1 e.2, by
    exact m.nodup.sublist (List.filter_sublist.map _)⟩

variable [DecidableEq α]

/-- The value of the first entry with key `k`. -/
def find (k : α) : List (α × β) → Option β
  | [] => none
  | e :: es => if e.1 = k then some e.2 else find k es

/-- Replaces the first entry with key `k`, or adds one at the end. -/
def put (k : α) (v : β) : List (α × β) → List (α × β)
  | [] => [(k, v)]
  | e :: es => if e.1 = k then (k, v) :: es else e :: put k v es

/-- Drops the first entry with key `k`. -/
def drop (k : α) : List (α × β) → List (α × β)
  | [] => []
  | e :: es => if e.1 = k then es else e :: drop k es

theorem map_fst_put (k : α) (v : β) (es : List (α × β)) :
    (put k v es).map Prod.fst =
      if k ∈ es.map Prod.fst then es.map Prod.fst else es.map Prod.fst ++ [k] := by
  induction es with
  | nil => simp [put]
  | cons e es ih =>
    by_cases h : e.1 = k
    · simp [put, h]
    · have h' : ¬ k = e.1 := fun x => h x.symm
      simp only [put, h, if_false, List.map_cons, ih, List.mem_cons, h', false_or]
      split <;> simp

theorem map_fst_drop (k : α) (es : List (α × β)) :
    (drop k es).map Prod.fst = (es.map Prod.fst).erase k := by
  induction es with
  | nil => rfl
  | cons e es ih =>
    by_cases h : e.1 = k
    · simp [drop, h]
    · simp [drop, h, ih]

def get? (m : OrderedMap α β) (k : α) : Option β := find k m.entries

def contains (m : OrderedMap α β) (k : α) : Bool := (m.get? k).isSome

def insert (m : OrderedMap α β) (k : α) (v : β) : OrderedMap α β :=
  ⟨put k v m.entries, by
    rw [map_fst_put]
    split
    · exact m.nodup
    · rename_i h
      exact List.nodup_append.2 ⟨m.nodup, by simp, by
        intro a ha b hb hab
        simp only [List.mem_singleton] at hb
        exact h (hb ▸ hab ▸ ha)⟩⟩

def erase (m : OrderedMap α β) (k : α) : OrderedMap α β :=
  ⟨drop k m.entries, by rw [map_fst_drop]; exact m.nodup.erase k⟩

/-- Sets the value of `k` to a function of its present value. -/
def alter (m : OrderedMap α β) (k : α) (f : Option β → β) : OrderedMap α β :=
  m.insert k (f (m.get? k))

/-- Changes the value of `k`, if there is one. -/
def modify (m : OrderedMap α β) (k : α) (f : β → β) : OrderedMap α β :=
  match m.get? k with
  | some v => m.insert k (f v)
  | none => m

/-- Inserts entries one after the other. -/
def insertAll (m : OrderedMap α β) (es : List (α × β)) : OrderedMap α β :=
  es.foldl (fun m e => m.insert e.1 e.2) m

/-- The map of a list of entries: a repeated key keeps its first place and takes its last value. -/
def ofList (es : List (α × β)) : OrderedMap α β := empty.insertAll es

/-- The map of a list of entries in which the first entry of a key counts. -/
def ofFirsts (es : List (α × β)) : OrderedMap α β :=
  es.foldl (fun m e => if m.contains e.1 then m else m.insert e.1 e.2) empty

/-- The position of `k` among the keys. -/
def indexOf? (m : OrderedMap α β) (k : α) : Option Nat := m.keys.idxOf? k

theorem not_mem_keys_erase (m : OrderedMap α β) (k : α) : k ∉ (m.erase k).keys := by
  simp only [keys, erase, map_fst_drop]
  exact m.nodup.not_mem_erase

/--
Puts the entry `k ↦ v` at position `i`. A key that is already there moves to `i`, which must then be
below the size; a new one may also go to the end.
-/
def place? (m : OrderedMap α β) (i : Nat) (k : α) (v : β) : Option (OrderedMap α β) :=
  if i < m.size ∨ (i = m.size ∧ m.contains k = false) then
    let rest := m.erase k
    some ⟨rest.entries.take i ++ (k, v) :: rest.entries.drop i, by
      rw [List.map_append, List.map_cons, List.perm_middle.nodup_iff, ← List.map_append,
        List.take_append_drop]
      exact List.nodup_cons.2 ⟨not_mem_keys_erase m k, rest.nodup⟩⟩
  else none

end OrderedMap
end TagHarvest
