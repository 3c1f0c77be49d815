/-
Laws of slicing. A slice ends at a line feed that stands outside quotes and nowhere else, so a text through
which no slice ends only adds to the slice at hand; every slice is such a text, and all but the last leave
no quote open. A slice is trimmed of returns at its end, which changes neither.
-/
import TagHarvest.Delimited.Slice
import Mathlib.Data.List.TakeWhile

namespace TagHarvest.Slice

variable {d : Char}

/-- The place after characters none of which ends the slice. -/
def Place.through? (d : Char) : Place → List Char → Option Place
  | p, [] => some p
  | p, c :: cs => (p.next? d c).bind fun q => q.through? d cs

/-- A text in which no slice ends. -/
def Unbroken (d : Char) (cs : List Char) : Prop := ∃ p, Place.cellStart.through? d cs = some p

/-- A text in which no slice ends and that leaves no quote open. -/
def Closed (d : Char) (cs : List Char) : Prop :=
  ∃ p, Place.cellStart.through? d cs = some p ∧ p ≠ .quoted

/-- True if a carriage return stands outside quotes, from a place on. -/
def hasReturn (d : Char) : Place → List Char → Bool
  | _, [] => false
  | p, c :: cs => (c == '\r' && p != .quoted) || (p.next? d c).any fun q => hasReturn d q cs

/-! ## Single characters -/

/-- Only a line feed outside quotes ends a slice. -/
theorem next?_eq_none_iff {p : Place} {c : Char} : p.next? d c = none ↔ c = '\n' ∧ p ≠ .quoted := by
  cases p with
  | cellStart => unfold Place.next?; split <;> simp_all
  | cell => unfold Place.next?; split <;> simp_all
  | quoted => unfold Place.next?; split <;> simp_all
  | quoteInQuoted => unfold Place.next?; split <;> simp_all

theorem next?_quoted {c : Char} (hc : c ≠ '"') : Place.quoted.next? d c = some .quoted := by
  unfold Place.next?
  split <;> simp_all

/-- Outside quotes a character that is neither a quote nor a line feed begins or goes on with a cell. -/
theorem next?_of_ne {p : Place} {c : Char} (hp : p ≠ .quoted) (hquote : c ≠ '"') (hfeed : c ≠ '\n') :
    p.next? d c = some (if c = d then .cellStart else .cell) := by
  unfold Place.next?
  split <;> simp_all

theorem through?_append (p : Place) (as bs : List Char) :
    p.through? d (as ++ bs) = (p.through? d as).bind fun q => q.through? d bs := by
  induction as generalizing p with
  | nil => rfl
  | cons c as ih =>
    rw [List.cons_append, Place.through?, Place.through?]
    cases p.next? d c with
    | none => rfl
    | some q => exact ih q

/-- Inside quotes characters other than the quote change nothing. -/
theorem through?_quoted {cs : List Char} (h : ∀ c ∈ cs, c ≠ '"') :
    Place.quoted.through? d cs = some .quoted := by
  induction cs with
  | nil => rfl
  | cons c cs ih =>
    rw [Place.through?, next?_quoted (h c List.mem_cons_self)]
    exact ih fun c hc => h c (List.mem_cons_of_mem _ hc)

/-! ## Cutting -/

theorem cut_through {p q : Place} {cs : List Char} (h : p.through? d cs = some q)
    (before rest : List Char) : cut d p before (cs ++ rest) = cut d q (cs.reverse ++ before) rest := by
  induction cs generalizing p before with
  | nil =>
    cases h
    rfl
  | cons c cs ih =>
    rw [Place.through?, Option.bind_eq_some_iff] at h
    obtain ⟨p', hp', h⟩ := h
    rw [List.cons_append, cut, hp']
    dsimp only
    rw [ih h, List.reverse_cons, List.append_assoc]
    rfl

/-- A text that leaves no quote open is a slice if a line feed follows. -/
theorem cut_append_lineFeed {cs : List Char} (h : Closed d cs) (rest : List Char) :
    cut d .cellStart [] (cs ++ '\n' :: rest) = cs :: cut d .cellStart [] rest := by
  obtain ⟨p, hp, hquoted⟩ := h
  rw [cut_through hp, cut, next?_eq_none_iff.2 ⟨rfl, hquoted⟩, List.append_nil, List.reverse_reverse]

/-- The slices of a text are unbroken, and all but the last are closed. -/
theorem cut_unbroken {p : Place} {before : List Char} (h : Place.cellStart.through? d before.reverse = some p)
    (cs : List Char) :
    (∀ s ∈ cut d p before cs, Unbroken d s) ∧ (cut d p before cs).Pairwise fun s _ => Closed d s := by
  induction cs generalizing p before with
  | nil =>
    rw [cut]
    cases before.isEmpty with
    | true => exact ⟨nofun, .nil⟩
    | false => exact ⟨fun s hs => List.mem_singleton.1 hs ▸ ⟨p, h⟩, List.pairwise_singleton _ _⟩
  | cons c cs ih =>
    rw [cut]
    cases hnext : p.next? d c with
    | none =>
      have hstart : Place.cellStart.through? d [].reverse = some .cellStart := rfl
      obtain ⟨hrest, hpairs⟩ := ih hstart
      have hclosed : Closed d before.reverse := ⟨p, h, (next?_eq_none_iff.1 hnext).2⟩
      exact ⟨List.forall_mem_cons.2 ⟨⟨p, h⟩, hrest⟩, List.pairwise_cons.2 ⟨fun _ _ => hclosed, hpairs⟩⟩
    | some q =>
      refine ih ?_
      rw [List.reverse_cons, through?_append, h, Option.bind_some, Place.through?, hnext]
      rfl

/-! ## Trimming -/

/-- Trimming takes carriage returns from the end. -/
theorem exists_returns (cs : List Char) :
    ∃ returns : List Char, cs = trimReturns cs ++ returns ∧ ∀ c ∈ returns, c = '\r' := by
  refine ⟨(cs.reverse.takeWhile (· == '\r')).reverse, ?_, fun c hc => ?_⟩
  · unfold trimReturns
    rw [← List.reverse_append, List.takeWhile_append_dropWhile, List.reverse_reverse]
  · have hreturn := List.mem_takeWhile_imp (List.mem_reverse.1 hc)
    exact beq_iff_eq.1 hreturn

theorem getLast?_trimReturns (cs : List Char) : (trimReturns cs).getLast? ≠ some '\r' := by
  unfold trimReturns
  rw [List.getLast?_reverse]
  have h := List.head?_dropWhile_not (· == '\r') cs.reverse
  intro hreturn
  rw [hreturn] at h
  cases h

theorem trimReturns_of_getLast? {cs : List Char} (h : cs.getLast? ≠ some '\r') : trimReturns cs = cs := by
  obtain ⟨returns, heq, hreturns⟩ := exists_returns cs
  cases hlast : returns.getLast? with
  | none =>
    rw [List.getLast?_eq_none_iff.1 hlast, List.append_nil] at heq
    exact heq.symm
  | some c =>
    rw [heq, List.getLast?_append, hlast, hreturns c (List.mem_of_getLast? hlast)] at h
    exact absurd rfl h

theorem Unbroken.trimReturns {cs : List Char} (h : Unbroken d cs) : Unbroken d (trimReturns cs) := by
  obtain ⟨p, hp⟩ := h
  obtain ⟨returns, heq, -⟩ := exists_returns cs
  rw [heq, through?_append, Option.bind_eq_some_iff] at hp
  obtain ⟨q, hq, -⟩ := hp
  exact ⟨q, hq⟩

/-- Returns at the end of a slice do not close a quote. -/
theorem Closed.trimReturns {cs : List Char} (h : Closed d cs) : Closed d (trimReturns cs) := by
  obtain ⟨p, hp, hquoted⟩ := h
  obtain ⟨returns, heq, hreturns⟩ := exists_returns cs
  rw [heq, through?_append, Option.bind_eq_some_iff] at hp
  obtain ⟨q, hq, hp⟩ := hp
  refine ⟨q, hq, ?_⟩
  rintro rfl
  rw [through?_quoted fun c hc => by rw [hreturns c hc]; decide] at hp
  exact hquoted (Option.some.inj hp).symm

/-! ## The slices of a text -/

theorem map_snd_number (line : Nat) (ss : List (List Char)) : (number line ss).map Prod.snd = ss := by
  induction ss generalizing line with
  | nil => rfl
  | cons s ss ih => rw [number, List.map_cons, ih]

theorem map_text_all (d : Char) (cs : List Char) :
    (all d cs).map text = (cut d .cellStart [] cs).map Slice.trimReturns := by
  unfold all
  rw [List.map_map, ← map_snd_number 1 (cut d .cellStart [] cs), List.map_map, map_snd_number]
  rfl

theorem unbroken_of_mem_all {cs : List Char} {s : Slice} (h : s ∈ all d cs) : Unbroken d s.text := by
  have hmem : s.text ∈ (all d cs).map text := List.mem_map_of_mem h
  rw [map_text_all] at hmem
  obtain ⟨piece, hpiece, heq⟩ := List.mem_map.1 hmem
  rw [← heq]
  exact ((cut_unbroken rfl cs).1 piece hpiece).trimReturns

theorem getLast?_of_mem_all {cs : List Char} {s : Slice} (h : s ∈ all d cs) :
    s.text.getLast? ≠ some '\r' := by
  have hmem : s.text ∈ (all d cs).map text := List.mem_map_of_mem h
  rw [map_text_all] at hmem
  obtain ⟨piece, -, heq⟩ := List.mem_map.1 hmem
  rw [← heq]
  exact getLast?_trimReturns piece

theorem pairwise_closed_all (d : Char) (cs : List Char) :
    ((all d cs).map text).Pairwise fun s _ => Closed d s := by
  rw [map_text_all, List.pairwise_map]
  exact (cut_unbroken rfl cs).2.imp fun h => h.trimReturns

end TagHarvest.Slice
