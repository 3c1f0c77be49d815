/-
Programs that change a state and may fail. `Meets R Q E x` says of a program what it does from every
state: the state it ends in is related to the one it starts in by the preorder `R`, its results satisfy
`Q`, and its failures satisfy `E` in the state they leave. `InStep R x y` says of two programs that their
outcomes agree from every two states that are related by `R`; of two results without a state `Agree` says
that they are the same, and `AgreeUpTo R` that they are related by `R`. There is one lemma for each way in which programs are put together.
-/
import Mathlib.Data.List.Forall2
import Mathlib.Order.Defs.Unbundled

namespace TagHarvest

variable {ε σ α β : Type}

instance instDecidableEqResult [DecidableEq ε] [DecidableEq σ] [DecidableEq α] :
    DecidableEq (EStateM.Result ε σ α)
  | .ok a s, .ok b t => decidable_of_iff (a = b ∧ s = t) (by simp)
  | .error e s, .error f t => decidable_of_iff (e = f ∧ s = t) (by simp)
  | .ok _ _, .error _ _ => isFalse fun h => by cases h
  | .error _ _, .ok _ _ => isFalse fun h => by cases h

theorem get_bind_apply (f : σ → EStateM ε σ α) (s : σ) : (get >>= f : EStateM ε σ α) s = f s s := rfl

/-- After a program that succeeds the next one goes on from the state it leaves. -/
theorem bind_apply_of_ok {x : EStateM ε σ α} {f : α → EStateM ε σ β} {s s' : σ} {a : α}
    (h : x s = .ok a s') : (x >>= f) s = f a s' := by
  show EStateM.bind x f s = f a s'
  unfold EStateM.bind
  rw [h]

/-- After a program that fails nothing is run. -/
theorem bind_apply_of_error {x : EStateM ε σ α} {f : α → EStateM ε σ β} {s s' : σ} {e : ε}
    (h : x s = .error e s') : (x >>= f) s = .error e s' := by
  show EStateM.bind x f s = .error e s'
  unfold EStateM.bind
  rw [h]

theorem bind_eq_ok {x : EStateM ε σ α} {f : α → EStateM ε σ β} {s s' : σ} {b : β}
    (h : (x >>= f) s = .ok b s') : ∃ a s₁, x s = .ok a s₁ ∧ f a s₁ = .ok b s' := by
  change EStateM.bind x f s = .ok b s' at h
  unfold EStateM.bind at h
  cases hx : x s with
  | ok a s₁ =>
    rw [hx] at h
    exact ⟨a, s₁, rfl, h⟩
  | error e s₁ =>
    rw [hx] at h
    cases h

theorem bind_eq_error {x : EStateM ε σ α} {f : α → EStateM ε σ β} {s s' : σ} {e : ε}
    (h : (x >>= f) s = .error e s') :
    x s = .error e s' ∨ ∃ a s₁, x s = .ok a s₁ ∧ f a s₁ = .error e s' := by
  change EStateM.bind x f s = .error e s' at h
  unfold EStateM.bind at h
  cases hx : x s with
  | ok a s₁ =>
    rw [hx] at h
    exact .inr ⟨a, s₁, rfl, h⟩
  | error e' s₁ =>
    rw [hx] at h
    cases h
    exact .inl rfl

theorem except_bind_eq_ok {x : Except ε α} {f : α → Except ε β} {b : β} (h : x >>= f = .ok b) :
    ∃ a, x = .ok a ∧ f a = .ok b := by
  cases x with
  | ok a => exact ⟨a, rfl, h⟩
  | error e => cases h

theorem except_bind_eq_ok_iff {x : Except ε α} {f : α → Except ε β} {b : β} :
    x >>= f = .ok b ↔ ∃ a, x = .ok a ∧ f a = .ok b := by
  refine ⟨except_bind_eq_ok, ?_⟩
  rintro ⟨a, rfl, h⟩
  exact h

theorem except_bind_eq_error {x : Except ε α} {f : α → Except ε β} {e : ε} (h : x >>= f = .error e) :
    x = .error e ∨ ∃ a, x = .ok a ∧ f a = .error e := by
  cases x with
  | ok a => exact .inr ⟨a, rfl, h⟩
  | error e' =>
    cases h
    exact .inl rfl

/-- What every step of a fold keeps holds at its end. -/
theorem foldlM_keeps {P : β → Prop} {f : β → α → Except ε β} (hf : ∀ b a b', P b → f b a = .ok b' → P b')
    {l : List α} {b b' : β} (hb : P b) (h : l.foldlM f b = .ok b') : P b' := by
  induction l generalizing b with
  | nil =>
    cases h
    exact hb
  | cons a l ih =>
    rw [List.foldlM_cons] at h
    obtain ⟨c, hc, h⟩ := except_bind_eq_ok h
    exact ih (hf b a c hb hc) h

/-- A fold whose steps succeed or fail whatever the state succeeds exactly if each step does. -/
theorem exists_foldlM_eq_ok_iff {P : α → Prop} {f : β → α → Except ε β}
    (hf : ∀ b a, (∃ b', f b a = .ok b') ↔ P a) {l : List α} {b : β} :
    (∃ b', l.foldlM f b = .ok b') ↔ ∀ a ∈ l, P a := by
  induction l generalizing b with
  | nil => exact ⟨fun _ => nofun, fun _ => ⟨b, rfl⟩⟩
  | cons a l ih =>
    rw [List.foldlM_cons, List.forall_mem_cons, ← hf b a]
    simp only [except_bind_eq_ok_iff]
    constructor
    · rintro ⟨b', c, hc, h⟩
      exact ⟨⟨c, hc⟩, ih.1 ⟨b', h⟩⟩
    · rintro ⟨⟨c, hc⟩, h⟩
      obtain ⟨b', hb'⟩ := ih.2 h
      exact ⟨b', c, hc, hb'⟩

/-- A fold that succeeds has succeeded at each of its steps. -/
theorem exists_step_of_foldlM {f : β → α → Except ε β} {l : List α} {b b' : β} (h : l.foldlM f b = .ok b')
    {a : α} (ha : a ∈ l) : ∃ c c', f c a = .ok c' := by
  induction l generalizing b with
  | nil => cases ha
  | cons a' l ih =>
    rw [List.foldlM_cons] at h
    obtain ⟨c, hc, h⟩ := except_bind_eq_ok h
    rcases List.mem_cons.1 ha with rfl | ha
    · exact ⟨b, c, hc⟩
    · exact ih h ha

/-- A list of results is there if each of them is. -/
theorem mapM_eq_ok {f : α → Except ε β} {l : List α} {l' : List β} (h : l.mapM f = .ok l') :
    List.Forall₂ (fun a b => f a = .ok b) l l' := by
  induction l generalizing l' with
  | nil =>
    cases h
    exact .nil
  | cons a l ih =>
    rw [List.mapM_cons] at h
    obtain ⟨b, hb, h⟩ := except_bind_eq_ok h
    obtain ⟨bs, hbs, h⟩ := except_bind_eq_ok h
    cases h
    exact .cons hb (ih hbs)

/-- The first failure of a list is a failure of one of its members. -/
theorem mapM_eq_error {f : α → Except ε β} {l : List α} {e : ε} (h : l.mapM f = .error e) :
    ∃ a ∈ l, f a = .error e := by
  induction l with
  | nil => cases h
  | cons a l ih =>
    rw [List.mapM_cons] at h
    rcases except_bind_eq_error h with ha | ⟨b, -, h⟩
    · exact ⟨a, List.mem_cons_self, ha⟩
    · rcases except_bind_eq_error h with hl | ⟨bs, -, h⟩
      · obtain ⟨c, hc, he⟩ := ih hl
        exact ⟨c, List.mem_cons_of_mem _ hc, he⟩
      · cases h

theorem forM_eq_error {f : α → Except ε Unit} {l : List α} {e : ε} (h : l.forM f = .error e) :
    ∃ a ∈ l, f a = .error e := by
  induction l with
  | nil => cases h
  | cons a l ih =>
    rcases except_bind_eq_error h with ha | ⟨-, -, hl⟩
    · exact ⟨a, List.mem_cons_self, ha⟩
    · obtain ⟨c, hc, he⟩ := ih hl
      exact ⟨c, List.mem_cons_of_mem _ hc, he⟩

/-- The results of a program that is run for each of a list are results of single runs. -/
theorem forall₂_of_mapM {R : α → β → Prop} {f : α → EStateM ε σ β}
    (hf : ∀ a b s s', f a s = .ok b s' → R a b) {l : List α} {l' : List β} {s s' : σ}
    (h : l.mapM f s = .ok l' s') : List.Forall₂ R l l' := by
  induction l generalizing l' s with
  | nil =>
    cases h
    exact .nil
  | cons a l ih =>
    rw [List.mapM_cons] at h
    obtain ⟨b, s₁, hb, h⟩ := bind_eq_ok h
    obtain ⟨bs, s₂, hbs, h⟩ := bind_eq_ok h
    cases h
    exact .cons (hf a b s s₁ hb) (ih hbs)

/-- Results that are those of a function are the function mapped. -/
theorem eq_map_of_forall₂ {R : α → β → Prop} {g : α → β} {l : List α} {l' : List β}
    (h : List.Forall₂ R l l') (hg : ∀ a b, R a b → b = g a) : l' = l.map g := by
  have hmap : List.Forall₂ Eq (l.map g) l' :=
    List.forall₂_map_left_iff.2 (h.imp fun a b hab => (hg a b hab).symm)
  rw [List.forall₂_eq_eq_eq] at hmap
  exact hmap.symm

theorem exists_of_mem_forall₂ {R : α → β → Prop} {l : List α} {l' : List β} (h : List.Forall₂ R l l')
    {b : β} (hb : b ∈ l') : ∃ a ∈ l, R a b := by
  induction h with
  | nil => cases hb
  | cons hab _ ih =>
    rcases List.mem_cons.1 hb with rfl | hb
    · exact ⟨_, List.mem_cons_self, hab⟩
    · obtain ⟨a, ha, hR⟩ := ih hb
      exact ⟨a, List.mem_cons_of_mem _ ha, hR⟩

/-- A list has a partner if each of its members has one. -/
theorem exists_forall₂_iff {R : α → β → Prop} {l : List α} :
    (∃ l', List.Forall₂ R l l') ↔ ∀ a ∈ l, ∃ b, R a b := by
  induction l with
  | nil => exact ⟨nofun, fun _ => ⟨[], .nil⟩⟩
  | cons a l ih =>
    rw [List.forall_mem_cons]
    constructor
    · rintro ⟨l', h⟩
      obtain ⟨b, rest, hb, hrest, rfl⟩ := List.forall₂_cons_left_iff.1 h
      exact ⟨⟨b, hb⟩, ih.1 ⟨rest, hrest⟩⟩
    · rintro ⟨⟨b, hb⟩, hl⟩
      obtain ⟨rest, hrest⟩ := ih.2 hl
      exact ⟨b :: rest, .cons hb hrest⟩

theorem exists_getElem?_of_forall₂ {R : α → β → Prop} {l : List α} {l' : List β} (h : List.Forall₂ R l l')
    {i : Nat} {a : α} (ha : l[i]? = some a) : ∃ b, l'[i]? = some b ∧ R a b := by
  induction h generalizing i with
  | nil => cases ha
  | cons hab _ ih =>
    cases i with
    | zero =>
      cases ha
      exact ⟨_, rfl, hab⟩
    | succ i => exact ih ha

theorem sublist_flatMap_of_forall₂ {α β γ : Type} {f : α → List γ} {g : β → List γ} {l : List α} {l' : List β}
    (h : List.Forall₂ (fun a b => (g b).Sublist (f a)) l l') : (l'.map g).flatten.Sublist (l.flatMap f) := by
  induction h with
  | nil => exact .refl _
  | cons hab _ ih => exact hab.append ih

/-- From every state: `R` holds of the states around, `Q` of the result, and `E` of a failure. -/
def Meets (R : σ → σ → Prop) (Q : α → Prop) (E : σ → ε → Prop) (x : EStateM ε σ α) : Prop :=
  ∀ s, match x s with
    | .ok a s' => R s s' ∧ Q a
    | .error e s' => R s s' ∧ E s' e

/-- Any two states, for programs of which only results and failures matter. -/
abbrev Anywhere (_ _ : σ) : Prop := True

instance : IsPreorder σ Anywhere where
  refl _ := trivial
  trans _ _ _ _ _ := trivial

namespace Meets

section Rules

variable {R : σ → σ → Prop} {Q : α → Prop} {Q' : β → Prop} {E : σ → ε → Prop} {x : EStateM ε σ α}

theorem ok (h : Meets R Q E x) {s s' : σ} {a : α} (hx : x s = .ok a s') : R s s' ∧ Q a := by
  have := h s
  rw [hx] at this
  exact this

theorem error (h : Meets R Q E x) {s s' : σ} {e : ε} (hx : x s = .error e s') : R s s' ∧ E s' e := by
  have := h s
  rw [hx] at this
  exact this

theorem mono {Q₂ : α → Prop} (h : Meets R Q E x) (hQ : ∀ a, Q a → Q₂ a) : Meets R Q₂ E x := by
  intro s
  cases hx : x s with
  | ok a s' => exact ⟨(h.ok hx).1, hQ a (h.ok hx).2⟩
  | error e s' => exact h.error hx

theorem modify {f : σ → σ} (h : ∀ s, R s (f s)) :
    Meets R (fun _ => True) E (modify f : EStateM ε σ Unit) := fun s => ⟨h s, trivial⟩

theorem set {s' : σ} (h : ∀ s, R s s') :
    Meets R (fun _ => True) E (MonadState.set s' : EStateM ε σ PUnit) := fun s => ⟨h s, trivial⟩

variable [IsPreorder σ R]

theorem pure {a : α} (h : Q a) : Meets R Q E (Pure.pure a : EStateM ε σ α) :=
  fun s => ⟨refl s, h⟩

theorem get : Meets R (fun _ => True) E (MonadState.get : EStateM ε σ σ) :=
  fun s => ⟨refl s, trivial⟩

theorem throw {e : ε} (h : ∀ s, E s e) : Meets R Q E (MonadExcept.throw e : EStateM ε σ α) :=
  fun s => ⟨refl s, h s⟩

theorem bind {f : α → EStateM ε σ β} (hx : Meets R Q E x) (hf : ∀ a, Q a → Meets R Q' E (f a)) :
    Meets R Q' E (x >>= f) := by
  intro s
  -- the state between the two programs carries the relation
  show match EStateM.bind x f s with | .ok a s' => _ | .error e s' => _
  unfold EStateM.bind
  cases h : x s with
  | error e s₁ => exact hx.error h
  | ok a s₁ =>
    obtain ⟨h₁, ha⟩ := hx.ok h
    dsimp only
    cases h' : f a s₁ with
    | ok b s₂ =>
      obtain ⟨h₂, hb⟩ := (hf a ha).ok h'
      exact ⟨Trans.trans h₁ h₂, hb⟩
    | error e s₂ =>
      obtain ⟨h₂, he⟩ := (hf a ha).error h'
      exact ⟨Trans.trans h₁ h₂, he⟩

theorem seq {y : EStateM ε σ β} (hx : Meets R Q E x) (hy : Meets R Q' E y) :
    Meets R Q' E (x >>= fun _ => y) :=
  hx.bind fun _ _ => hy

theorem forM {f : α → EStateM ε σ Unit} :
    ∀ (l : List α), (∀ a ∈ l, Meets R (fun _ => True) E (f a)) → Meets R (fun _ => True) E (l.forM f)
  | [], _ => pure trivial
  | a :: l, h => by
    show Meets R _ E (f a >>= fun _ => l.forM f)
    exact (h a List.mem_cons_self).seq (forM l fun b hb => h b (List.mem_cons_of_mem _ hb))

/-- What holds of every result holds of every member of the list of results. -/
theorem mapM {f : α → EStateM ε σ β} :
    ∀ (l : List α), (∀ a ∈ l, Meets R Q' E (f a)) → Meets R (fun bs => ∀ b ∈ bs, Q' b) E (l.mapM f)
  | [], _ => by
    rw [List.mapM_nil]
    exact pure nofun
  | a :: l, h => by
    rw [List.mapM_cons]
    refine (h a List.mem_cons_self).bind fun b hb => ?_
    refine (mapM l fun c hc => h c (List.mem_cons_of_mem _ hc)).bind fun bs hbs => ?_
    exact pure (List.forall_mem_cons.2 ⟨hb, hbs⟩)

end Rules

end Meets

/-! ## Two programs -/

section Pairs

variable {δ τ : Type} {R : σ → τ → Prop}

/-- Outcomes that agree: the same result or a failure of both, in related states. -/
inductive Paired (R : σ → τ → Prop) : EStateM.Result ε σ α → EStateM.Result δ τ α → Prop
  | ok {a : α} {s : σ} {t : τ} : R s t → Paired R (.ok a s) (.ok a t)
  | error {e : ε} {f : δ} {s : σ} {t : τ} : R s t → Paired R (.error e s) (.error f t)

/-- Two programs whose outcomes agree from related states. -/
def InStep (R : σ → τ → Prop) (x : EStateM ε σ α) (y : EStateM δ τ α) : Prop :=
  ∀ s t, R s t → Paired R (x s) (y t)

theorem Paired.exists_ok {x : EStateM.Result ε σ α} {y : EStateM.Result δ τ α} (h : Paired R x y) {a : α}
    {s : σ} (hx : x = .ok a s) : ∃ t, y = .ok a t ∧ R s t := by
  cases h with
  | ok hR =>
    cases hx
    exact ⟨_, rfl, hR⟩
  | error => cases hx

namespace InStep

variable {x : EStateM ε σ α} {y : EStateM δ τ α}

theorem pure (a : α) : InStep R (Pure.pure a : EStateM ε σ α) (Pure.pure a : EStateM δ τ α) :=
  fun _ _ h => .ok h

theorem modify {f : σ → σ} {g : τ → τ} (h : ∀ s t, R s t → R (f s) (g t)) :
    InStep R (modify f : EStateM ε σ Unit) (modify g : EStateM δ τ Unit) :=
  fun s t hR => .ok (h s t hR)

theorem throw (e : ε) (f : δ) :
    InStep R (MonadExcept.throw e : EStateM ε σ α) (MonadExcept.throw f : EStateM δ τ α) :=
  fun _ _ => .error

theorem bind {f : α → EStateM ε σ β} {g : α → EStateM δ τ β} (hx : InStep R x y)
    (hf : ∀ a, InStep R (f a) (g a)) : InStep R (x >>= f) (y >>= g) := by
  intro s t hR
  show Paired R (EStateM.bind x f s) (EStateM.bind y g t)
  unfold EStateM.bind
  have h := hx s t hR
  generalize x s = outcome, y t = outcome' at h ⊢
  cases h with
  | ok hR' => exact hf _ _ _ hR'
  | error hR' => exact .error hR'

theorem seq {x : EStateM ε σ Unit} {y : EStateM δ τ Unit} {x' : EStateM ε σ β} {y' : EStateM δ τ β}
    (h : InStep R x y) (h' : InStep R x' y') : InStep R (do x; x') (do y; y') :=
  h.bind fun _ => h'

theorem forM {γ : Type} {f : γ → EStateM ε σ Unit} {g : γ → EStateM δ τ Unit} :
    ∀ l : List γ, (∀ c ∈ l, InStep R (f c) (g c)) → InStep R (l.forM f) (l.forM g)
  | [], _ => pure ()
  | c :: l, h => by
    show InStep R (do f c; l.forM f) (do g c; l.forM g)
    exact (h c List.mem_cons_self).seq (forM l fun d hd => h d (List.mem_cons_of_mem c hd))

theorem mapM {γ : Type} {f : γ → EStateM ε σ β} {g : γ → EStateM δ τ β} :
    ∀ l : List γ, (∀ c ∈ l, InStep R (f c) (g c)) → InStep R (l.mapM f) (l.mapM g)
  | [], _ => by
    rw [List.mapM_nil, List.mapM_nil]
    exact pure []
  | c :: l, h => by
    rw [List.mapM_cons, List.mapM_cons]
    refine (h c List.mem_cons_self).bind fun b => ?_
    exact (mapM l fun d hd => h d (List.mem_cons_of_mem c hd)).bind fun bs => pure (b :: bs)

theorem refl (x : EStateM ε σ α) : InStep Eq x x := by
  rintro s _ rfl
  cases x s with
  | ok a s' => exact .ok rfl
  | error e s' => exact .error rfl

/-- Programs that look at equal states go on in step. -/
theorem get_bind {f : σ → EStateM ε σ α} {g : σ → EStateM δ σ α} (h : ∀ s, InStep Eq (f s) (g s)) :
    InStep Eq (get >>= f) (get >>= g) := by
  rintro s _ rfl
  exact h s s s rfl

end InStep

end Pairs

/-! ## Two results -/

section Agreement

variable {δ : Type} {x : Except ε α} {y : Except δ α}

/-- The same result, or two failures. -/
def Agree (x : Except ε α) (y : Except δ α) : Prop := x.toOption = y.toOption

namespace Agree

theorem eq_ok {a : α} (h : Agree x (.ok a : Except δ α)) : x = .ok a := by
  cases x with
  | error e => cases h
  | ok b =>
    cases h
    rfl

theorem bind {f : α → Except ε β} {g : α → Except δ β} (h : Agree x y) (hf : ∀ a, Agree (f a) (g a)) :
    Agree (x >>= f) (y >>= g) := by
  cases x with
  | error e =>
    cases y with
    | error e' => exact rfl
    | ok b => cases h
  | ok a =>
    cases y with
    | error e' => cases h
    | ok b =>
      cases h
      exact hf a

theorem mapM {γ : Type} {f : γ → Except ε β} {g : γ → Except δ β} :
    ∀ l : List γ, (∀ c ∈ l, Agree (f c) (g c)) → Agree (l.mapM f) (l.mapM g)
  | [], _ => rfl
  | c :: l, h => by
    rw [List.mapM_cons, List.mapM_cons]
    refine (h c List.mem_cons_self).bind fun b => ?_
    exact (mapM l fun d hd => h d (List.mem_cons_of_mem c hd)).bind fun bs => rfl

theorem forM {γ : Type} {f : γ → Except ε Unit} {g : γ → Except δ Unit} :
    ∀ l : List γ, (∀ c ∈ l, Agree (f c) (g c)) → Agree (l.forM f) (l.forM g)
  | [], _ => rfl
  | c :: l, h => by
    show Agree (f c >>= fun _ => l.forM f) (g c >>= fun _ => l.forM g)
    exact (h c List.mem_cons_self).bind fun _ => forM l fun d hd => h d (List.mem_cons_of_mem c hd)

end Agree

/-- Two related results, or two failures. -/
inductive AgreeUpTo (R : α → β → Prop) : Except ε α → Except δ β → Prop
  | ok {a : α} {b : β} : R a b → AgreeUpTo R (.ok a) (.ok b)
  | error (e : ε) (f : δ) : AgreeUpTo R (.error e) (.error f)

namespace AgreeUpTo

variable {γ η : Type} {R : α → β → Prop} {S : γ → η → Prop} {y : Except δ β}

theorem bind {f : α → Except ε γ} {g : β → Except δ η} (h : AgreeUpTo R x y)
    (hf : ∀ a b, R a b → AgreeUpTo S (f a) (g b)) : AgreeUpTo S (x >>= f) (y >>= g) := by
  cases h with
  | ok hR => exact hf _ _ hR
  | error e e' => exact .error e e'

/-- It is enough that both succeed or both fail, and that what they give is related. -/
theorem of_iff (hiff : (∃ a, x = .ok a) ↔ ∃ b, y = .ok b) (hR : ∀ a b, x = .ok a → y = .ok b → R a b) :
    AgreeUpTo R x y := by
  cases x with
  | ok a =>
    obtain ⟨b, rfl⟩ := hiff.1 ⟨a, rfl⟩
    exact .ok (hR a b rfl rfl)
  | error e =>
    cases y with
    | ok b =>
      obtain ⟨a, ha⟩ := hiff.2 ⟨b, rfl⟩
      cases ha
    | error f => exact .error e f

theorem exists_ok {a : α} (h : AgreeUpTo R x y) (hx : x = .ok a) : ∃ b, y = .ok b ∧ R a b := by
  cases h with
  | ok hR =>
    cases hx
    exact ⟨_, rfl, hR⟩
  | error => cases hx

end AgreeUpTo

end Agreement
end TagHarvest
