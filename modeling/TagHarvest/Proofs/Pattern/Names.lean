/-
The names of a pattern's groups. Of all steps that read a pattern only the start of a named group adds a name,
after it has looked at the name's characters and at the names so far. So in a pattern that compiles every name
begins with a letter or an underscore, no two names are the same, and each is that of one of the groups.
-/
import TagHarvest.Pattern.Search

namespace TagHarvest.Pattern

variable {α β : Type}

/-- A name that begins with a letter or an underscore. -/
def Lettered (name : String) : Prop := ∃ c cs, name.toList = c :: cs ∧ Read.isNameChar true c = true

/-- The names of groups: they are distinct, begin with letters and belong to groups there are. -/
structure Named (groups : Nat) (names : List (String × Nat)) : Prop where
  lettered : ∀ n ∈ names, Lettered n.1
  nodup : (names.map Prod.fst).Nodup
  numbered : ∀ n ∈ names, 0 < n.2 ∧ n.2 ≤ groups

namespace Named

variable {groups : Nat} {names : List (String × Nat)}

theorem nil : Named groups [] := ⟨by simp, List.nodup_nil, by simp⟩

/-- Another group leaves the names as they are. -/
theorem succ (h : Named groups names) : Named (groups + 1) names :=
  ⟨h.lettered, h.nodup, fun n hn => ⟨(h.numbered n hn).1, Nat.le_succ_of_le (h.numbered n hn).2⟩⟩

/-- The name of another group is a new one. -/
theorem concat (h : Named groups names) {name : String} (hname : Lettered name)
    (hnew : names.lookup name = none) : Named (groups + 1) (names ++ [(name, groups + 1)]) := by
  refine ⟨List.forall_mem_append.2 ⟨h.lettered, List.forall_mem_singleton.2 hname⟩, ?_,
    List.forall_mem_append.2 ⟨h.succ.numbered, List.forall_mem_singleton.2 ⟨Nat.succ_pos _, Nat.le_refl _⟩⟩⟩
  rw [List.map_append, List.nodup_append]
  refine ⟨h.nodup, List.pairwise_singleton _ _, fun n hn n' hn' heq => ?_⟩
  obtain ⟨entry, hentry, rfl⟩ := List.mem_map.1 hn
  have habsent := List.lookup_eq_none_iff.1 hnew entry hentry
  simp [heq, List.mem_singleton.1 hn'] at habsent

end Named

namespace Read

/-- A step that keeps the names in order and has results of a kind. -/
def Keeps (Q : α → Prop) (x : Read α) : Prop :=
  ∀ s a s', x s = some (a, s') → Named s.groups s.names → Named s'.groups s'.names ∧ Q a

/-- Of the result of a step nothing needs to be known. -/
abbrev Any (_ : α) : Prop := True

namespace Keeps

variable {Q : α → Prop} {Q' : β → Prop} {x : Read α}

theorem pure {a : α} (h : Q a) : Keeps Q (pure a) := by
  rintro s _ _ ⟨⟩ hs
  exact ⟨hs, h⟩

theorem bind {f : α → Read β} (hx : Keeps Q x) (hf : ∀ a, Q a → Keeps Q' (f a)) : Keeps Q' (x >>= f) := by
  intro s b s' h hs
  change (x s).bind (fun r => f r.1 r.2) = some (b, s') at h
  obtain ⟨⟨a, s₁⟩, ha, hb⟩ := Option.bind_eq_some_iff.1 h
  obtain ⟨hs₁, hQ⟩ := hx s a s₁ ha hs
  exact hf a hQ s₁ b s' hb hs₁

theorem pure_bind {a : α} {f : α → Read β} (h : Keeps Q' (f a)) : Keeps Q' (Pure.pure a >>= f) := h

theorem seq {y : Read β} (hx : Keeps Q x) (hy : Keeps Q' y) : Keeps Q' (x >>= fun _ => y) :=
  hx.bind fun _ _ => hy

/-- After a look at the state the step may go on with what holds of it. -/
theorem get_bind {f : Reading → Read β} (hf : ∀ s, Named s.groups s.names → Keeps Q' (f s)) :
    Keeps Q' (get >>= f) := by
  intro s b s' h hs
  exact hf s hs s b s' h hs

theorem refuse : Keeps Q (refuse : Read α) := by
  intro s a s' h
  cases h

theorem set {s : Reading} (h : Named s.groups s.names) : Keeps Any (set s : Read PUnit) := by
  rintro _ _ _ ⟨⟩ -
  exact ⟨h, trivial⟩

theorem modify {f : Reading → Reading} (hf : ∀ s, (f s).groups = s.groups ∧ (f s).names = s.names) :
    Keeps Any (modify f : Read PUnit) := by
  rintro s _ _ ⟨⟩ hs
  obtain ⟨hgroups, hnames⟩ := hf s
  exact ⟨hgroups ▸ hnames ▸ hs, trivial⟩

theorem check {b : Bool} : Keeps (fun _ => b = true) (check b) := by
  unfold Read.check
  split
  · rename_i hb
    exact pure hb
  · exact refuse

/-- A step that is taken or not before another. -/
theorem optional {c : Prop} [Decidable c] {y : Read β} (hx : Keeps Q x) (hy : Keeps Q' y) :
    Keeps Q' (if c then x >>= fun _ => y else y) := by
  split
  · exact hx.seq hy
  · exact hy

/-- One of two steps before another. -/
theorem either {c : Prop} [Decidable c] {y : Read α} {f : α → Read β} (hx : Keeps Q x) (hy : Keeps Q y)
    (hf : ∀ a, Q a → Keeps Q' (f a)) : Keeps Q' (if c then x >>= f else y >>= f) := by
  split
  · exact hx.bind hf
  · exact hy.bind hf

theorem forIn {γ : Type} (l : List γ) {f : γ → PUnit → Read (ForInStep PUnit)}
    (hf : ∀ c u, Keeps Any (f c u)) : Keeps Any (forIn l PUnit.unit f) := by
  induction l with
  | nil => exact pure trivial
  | cons c l ih =>
    rw [List.forIn_cons]
    refine (hf c _).bind fun step _ => ?_
    cases step with
    | done u => exact pure trivial
    | yield u => exact ih

end Keeps

/-! ## Characters -/

theorem keeps_rest : Keeps Any rest := Keeps.get_bind fun _ _ => Keeps.pure trivial

theorem keeps_flags : Keeps Any flags := Keeps.get_bind fun _ _ => Keeps.pure trivial

theorem keeps_setRest (cs : List Char) : Keeps Any (setRest cs) := Keeps.modify fun _ => ⟨rfl, rfl⟩

theorem keeps_peek? : Keeps Any peek? := keeps_rest.bind fun _ _ => Keeps.pure trivial

theorem keeps_next : Keeps Any next := by
  refine keeps_rest.bind fun cs _ => ?_
  cases cs with
  | nil => exact Keeps.refuse
  | cons c cs => exact (keeps_setRest cs).seq (Keeps.pure trivial)

theorem keeps_take? (text : String) : Keeps Any (take? text) := by
  refine keeps_rest.bind fun cs _ => ?_
  split
  · exact (keeps_setRest _).seq (Keeps.pure trivial)
  · exact Keeps.pure trivial

theorem keeps_space : Keeps Any space := by
  refine keeps_flags.bind fun f _ => ?_
  split
  · exact keeps_rest.bind fun cs _ => keeps_setRest _
  · exact Keeps.pure trivial

theorem keeps_nextSpaced : Keeps Any nextSpaced :=
  keeps_next.bind fun _ _ => keeps_space.seq (Keeps.pure trivial)

/-! ## Escapes -/

theorem keeps_charOf (n : Nat) : Keeps Any (charOf n) := by
  unfold charOf
  split
  · exact Keeps.pure trivial
  · exact Keeps.refuse

theorem keeps_nextMany (n : Nat) : Keeps Any (nextMany n) := by
  induction n with
  | zero => exact Keeps.pure trivial
  | succ n ih => exact keeps_nextSpaced.bind fun _ _ => ih.bind fun _ _ => Keeps.pure trivial

theorem keeps_upToBrace (fuel : Nat) : Keeps Any (upToBrace fuel) := by
  induction fuel with
  | zero => exact Keeps.refuse
  | succ fuel ih =>
    refine keeps_nextSpaced.bind fun c _ => ?_
    split
    · exact Keeps.pure trivial
    · exact ih.bind fun _ _ => Keeps.pure trivial

theorem keeps_hexChar (width : Nat) : Keeps Any (hexChar width) := by
  refine keeps_space.seq (keeps_peek?.bind fun c _ => ?_)
  split
  · refine keeps_nextSpaced.seq (keeps_rest.bind fun cs _ => (keeps_upToBrace _).bind fun ds _ => ?_)
    refine Keeps.check.seq ?_
    split
    · exact keeps_charOf _
    · exact Keeps.refuse
  · refine (keeps_nextMany width).bind fun ds _ => ?_
    split
    · exact keeps_flags.bind fun f _ => Keeps.check.seq (keeps_charOf _)
    · exact Keeps.refuse

theorem keeps_boundary : Keeps Any boundary := by
  refine Keeps.get_bind fun s hs => keeps_peek?.bind fun c _ => ?_
  split
  · exact Keeps.pure trivial
  · refine keeps_nextSpaced.seq (keeps_peek?.bind fun c _ => ?_)
    split
    · exact Keeps.refuse
    · split
      · exact (Keeps.set hs).seq (Keeps.pure trivial)
      · refine keeps_rest.bind fun cs _ => (keeps_upToBrace _).bind fun name _ => Keeps.check.seq ?_
        split
        iterate 4 exact Keeps.pure trivial
        exact Keeps.refuse

theorem keeps_escape : Keeps Any escape := by
  refine keeps_flags.bind fun f _ => keeps_next.bind fun c _ => ?_
  split
  · exact Keeps.pure trivial
  · split
    · exact Keeps.pure trivial
    · split
      iterate 3 exact (keeps_hexChar _).bind fun _ _ => Keeps.pure trivial
      iterate 8 exact Keeps.pure trivial
      · exact keeps_boundary.bind fun _ _ => Keeps.pure trivial
      iterate 3 exact Keeps.pure trivial
      exact Keeps.refuse

/-! ## Classes -/

theorem keeps_finish (f : Flags) (negated : Bool) (k : CharClass) : Keeps Any (finish f negated k) :=
  Keeps.check.seq (Keeps.pure trivial)

theorem keeps_namedClass? : Keeps Any namedClass? := by
  refine keeps_rest.bind fun cs _ => ?_
  split
  · dsimp only
    split
    · refine (keeps_setRest _).seq (keeps_flags.bind fun f _ => ?_)
      exact (keeps_finish f _ _).bind fun _ _ => Keeps.pure trivial
    · exact Keeps.pure trivial
  · exact Keeps.pure trivial

theorem keeps_classItem : Keeps Any classItem := by
  refine keeps_next.bind fun c _ => ?_
  dsimp only
  refine Keeps.either keeps_escape (Keeps.pure trivial) fun item _ => ?_
  split
  · exact keeps_flags.bind fun f _ => Keeps.check.seq (Keeps.pure trivial)
  · exact Keeps.pure trivial

theorem keeps_peekTwo : Keeps Any peekTwo := by
  refine Keeps.get_bind fun s _ => ?_
  split
  · exact Keeps.pure trivial
  · exact Keeps.pure trivial

theorem keeps_classRange : Keeps Any classRange := by
  refine keeps_classItem.bind fun first _ => keeps_space.seq (keeps_peekTwo.bind fun two _ => ?_)
  split
  · exact Keeps.refuse
  · split
    · split
      iterate 2 exact Keeps.pure trivial
      exact Keeps.refuse
    · refine keeps_nextSpaced.seq (keeps_classItem.bind fun last _ => ?_)
      split
      · exact Keeps.check.seq (Keeps.pure trivial)
      · exact Keeps.refuse

theorem keeps_hyphens (fuel : Nat) : Keeps Any (hyphens fuel) := by
  induction fuel with
  | zero => exact Keeps.pure trivial
  | succ fuel ih =>
    refine keeps_peek?.bind fun c _ => ?_
    split
    · refine keeps_nextSpaced.seq (keeps_rest.bind fun cs _ => Keeps.check.seq ?_)
      exact ih.bind fun _ _ => Keeps.pure trivial
    · exact Keeps.pure trivial

theorem keeps_bracketed_classItems (fuel : Nat) :
    Keeps Any (bracketed fuel) ∧ ∀ waiting items, Keeps Any (classItems fuel waiting items) := by
  induction fuel with
  | zero => exact ⟨Keeps.refuse, fun _ _ => Keeps.refuse⟩
  | succ fuel ih =>
    obtain ⟨ihBracketed, ihItems⟩ := ih
    constructor
    · unfold bracketed
      have hitems : ∀ items negated, Keeps Any (do
          let k ← classItems fuel none items
          return ⟨← finish (← flags) negated k.value, k.depth + 1⟩ : Read (Nested CharClass)) := by
        refine fun items negated => (ihItems none items).bind fun k _ => keeps_flags.bind fun f _ => ?_
        exact (keeps_finish f negated _).bind fun _ _ => Keeps.pure trivial
      refine keeps_nextSpaced.seq (keeps_peek?.bind fun c _ => ?_)
      dsimp only
      refine Keeps.optional keeps_nextSpaced (keeps_rest.bind fun cs _ => Keeps.check.seq ?_)
      refine keeps_rest.bind fun cs _ => (keeps_hyphens _).bind fun count _ => keeps_peek?.bind fun c' _ => ?_
      split
      · refine keeps_nextSpaced.seq (keeps_rest.bind fun cs _ => Keeps.check.seq ?_)
        exact Keeps.pure_bind (hitems _ _)
      · exact Keeps.pure_bind (hitems _ _)
    · intro waiting items
      unfold classItems
      refine keeps_space.seq (keeps_flags.bind fun f _ => keeps_rest.bind fun cs _ => ?_)
      split
      · exact Keeps.refuse
      · exact (keeps_setRest _).seq (Keeps.pure trivial)
      · refine keeps_namedClass?.bind fun k _ => ?_
        split
        · exact ihItems _ _
        · exact ihBracketed.bind fun k _ => ihItems _ _
      iterate 3 exact (keeps_setRest _).seq (ihItems _ _)
      exact keeps_classRange.bind fun k _ => ihItems _ _

/-! ## Repetitions -/

theorem keeps_digits (fuel : Nat) : Keeps Any (decimal?.digits fuel) := by
  induction fuel with
  | zero => exact Keeps.pure trivial
  | succ fuel ih =>
    refine keeps_peek?.bind fun c _ => ?_
    split
    · split
      · exact keeps_nextSpaced.bind fun _ _ => ih.bind fun _ _ => Keeps.pure trivial
      · exact Keeps.pure trivial
    · exact Keeps.pure trivial

theorem keeps_decimal? : Keeps Any decimal? := by
  refine keeps_rest.bind fun cs _ => (keeps_setRest _).seq (keeps_rest.bind fun cs _ => ?_)
  refine (keeps_digits _).bind fun ds _ => keeps_rest.bind fun cs _ => (keeps_setRest _).seq ?_
  refine keeps_space.seq ?_
  split
  · exact Keeps.pure trivial
  · exact Keeps.check.seq (Keeps.pure trivial)

theorem keeps_bounds : Keeps Any bounds := by
  refine keeps_nextSpaced.seq (keeps_rest.bind fun cs _ => Keeps.check.seq ?_)
  refine keeps_decimal?.bind fun least _ => ?_
  split
  · exact Keeps.refuse
  · refine keeps_peek?.bind fun c _ => ?_
    split
    · refine keeps_nextSpaced.seq (keeps_peek?.bind fun c _ => ?_)
      split
      · exact Keeps.pure_bind (keeps_next.bind fun c _ => Keeps.check.seq (Keeps.pure trivial))
      · refine keeps_decimal?.bind fun most _ => ?_
        split
        · exact (Keeps.refuse (Q := fun _ => False)).bind fun _ h => h.elim
        · refine Keeps.pure_bind (keeps_next.bind fun c _ => Keeps.check.seq ?_)
          exact Keeps.check.seq (Keeps.pure trivial)
    · refine Keeps.pure_bind (keeps_next.bind fun c _ => Keeps.check.seq ?_)
      exact Keeps.check.seq (Keeps.pure trivial)

theorem keeps_repeated (pieces : List Piece) (least : Nat) (most : Option Nat) (spaced : Bool) :
    Keeps Any (Read.repeated pieces least most spaced) := by
  unfold Read.repeated
  split
  · refine Keeps.optional keeps_space ((keeps_take? _).bind fun marked _ => ?_)
    exact keeps_flags.bind fun f _ => Keeps.pure trivial
  · exact Keeps.refuse

/-! ## Groups -/

theorem keeps_flagItems (fuel : Nat) (seen : List Char) (negative : Bool) (f : Flags) :
    Keeps Any (flagItems fuel seen negative f) := by
  induction fuel generalizing seen negative f with
  | zero => exact Keeps.refuse
  | succ fuel ih =>
    refine keeps_next.bind fun c _ => ?_
    split
    · exact Keeps.check.seq (Keeps.pure trivial)
    · refine keeps_rest.bind fun cs _ => Keeps.check.seq ?_
      dsimp only
      split
      iterate 8 exact ih _ _ _
      exact Keeps.refuse

/-- What a group is named begins with a letter or an underscore. -/
theorem keeps_groupName : Keeps Lettered groupName := by
  refine keeps_rest.bind fun cs _ => ?_
  dsimp only
  split
  · rename_i after c more _ hcs
    refine Keeps.check.bind fun _ hname => (keeps_setRest _).seq (Keeps.pure ⟨c, more, ?_, ?_⟩)
    · rw [hcs, String.toList_ofList]
    · exact (Bool.and_eq_true_iff.1 hname).1
  · exact Keeps.refuse

theorem keeps_newGroup (name : Option String) (hname : ∀ n, name = some n → Lettered n) :
    Keeps Any (newGroup name) := by
  refine Keeps.get_bind fun s hs => ?_
  cases name with
  | none => exact (Keeps.set hs.succ).seq (Keeps.pure trivial)
  | some n =>
    refine Keeps.check.bind fun _ hnew => (Keeps.set ?_).seq (Keeps.pure trivial)
    exact hs.concat (hname n rfl) (Option.isNone_iff_eq_none.1 hnew)

theorem keeps_opening : Keeps Any opening := by
  refine keeps_space.seq (keeps_flags.bind fun f _ => ?_)
  refine (Keeps.forIn _ fun look _ => ?_).seq ?_
  · exact keeps_rest.bind fun cs _ => Keeps.check.seq (Keeps.pure trivial)
  have hnamed : Keeps Any (do return .body f (some (← newGroup (some (← groupName)))) : Read Opening) := by
    refine keeps_groupName.bind fun name hname => ?_
    refine (keeps_newGroup _ fun n hn => ?_).bind fun _ _ => Keeps.pure trivial
    exact Option.some.inj hn ▸ hname
  refine (keeps_take? _).bind fun taken _ => ?_
  split
  · exact hnamed
  · refine (keeps_take? _).bind fun taken _ => ?_
    split
    · exact hnamed
    · refine (keeps_take? _).bind fun taken _ => ?_
      split
      · refine keeps_rest.bind fun cs _ => (keeps_flagItems _ _ _ _).bind fun g _ => ?_
        exact Keeps.pure trivial
      · exact (keeps_newGroup none nofun).bind fun _ _ => Keeps.pure trivial

/-! ## Whole patterns -/

theorem keeps_setFlags (f : Flags) : Keeps Any (modify fun s => { s with flags := f } : Read PUnit) :=
  Keeps.modify fun _ => ⟨rfl, rfl⟩

theorem keeps_alternatives_pieces (fuel : Nat) :
    Keeps Any (alternatives fuel) ∧ ∀ before, Keeps Any (pieces fuel before) := by
  induction fuel with
  | zero => exact ⟨Keeps.refuse, fun _ => Keeps.refuse⟩
  | succ fuel ih =>
    obtain ⟨ihAlternatives, ihPieces⟩ := ih
    constructor
    · unfold alternatives
      refine (ihPieces _).bind fun t _ => keeps_peek?.bind fun c _ => ?_
      split
      · exact keeps_next.seq (ihAlternatives.bind fun _ _ => Keeps.pure trivial)
      · exact Keeps.pure trivial
    · intro before
      unfold pieces
      refine keeps_space.seq (keeps_flags.bind fun f _ => ?_)
      dsimp only
      refine keeps_peek?.bind fun c _ => ?_
      split
      iterate 3 exact Keeps.pure trivial
      · -- the flags of a group hold in its body only
        refine keeps_next.seq (keeps_opening.bind fun start _ => ?_)
        split
        · exact (keeps_setFlags _).seq (ihPieces _)
        · refine (keeps_setFlags _).seq (ihAlternatives.bind fun ts _ => ?_)
          exact keeps_next.bind fun c _ => Keeps.check.seq ((keeps_setFlags f).seq (ihPieces _))
      · exact keeps_rest.bind fun cs _ => (keeps_bracketed_classItems _).1.bind fun k _ => ihPieces _
      iterate 3 exact keeps_next.seq ((keeps_repeated _ _ _ _).bind fun _ _ => ihPieces _)
      · refine Keeps.check.seq (keeps_bounds.bind fun _ _ => ?_)
        exact (keeps_repeated _ _ _ _).bind fun _ _ => ihPieces _
      · exact keeps_next.seq (keeps_escape.bind fun _ _ => ihPieces _)
      · exact keeps_next.seq (Keeps.check.seq (ihPieces _))
      iterate 3 exact keeps_next.seq (ihPieces _)

theorem keeps_whole : Keeps Any whole := by
  refine keeps_rest.bind fun cs _ => (keeps_alternatives_pieces _).1.bind fun ts _ => ?_
  exact keeps_rest.bind fun cs _ => Keeps.check.seq (Keeps.pure trivial)

end Read

theorem named_of_read? {text : String} {source : Source} (h : read? text = some source) :
    Named source.groups source.names := by
  obtain ⟨⟨t, s⟩, hs, rfl⟩ := Option.map_eq_some_iff.1 h
  exact (Read.keeps_whole _ t s hs .nil).1

/-- The names of a pattern that compiles. -/
theorem named_of_compile {text : String} {p : Pattern} (h : compile text = .ok p) : Named p.groups p.names := by
  unfold compile at h
  split at h
  · cases h
  · rename_i source hsource
    split at h
    · cases h
    · cases h
      exact named_of_read? hsource

end TagHarvest.Pattern
