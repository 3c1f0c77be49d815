/-
Documents that require nothing. Such a document compiles, whatever is wrong with some of its directives, and
every directive that is left is optional and has edits that neither delete the id field nor rename from or to
it.
-/
import TagHarvest.Proofs.Conversion.Edits
import TagHarvest.Proofs.Conversion.Verdict

namespace TagHarvest

/-- No directive of the document is required. -/
def ConversionDirectives.NoneRequired (d : ConversionDirectives) : Prop :=
  ∀ t ∈ d.values, ∀ f ∈ OrderedMap.values t, ∀ k ∈ OrderedMap.values f, ∀ e ∈ OrderedMap.values k,
    Edits.required e = false

instance (d : ConversionDirectives) : Decidable d.NoneRequired :=
  inferInstanceAs (Decidable (∀ _ ∈ _, ∀ _ ∈ _, ∀ _ ∈ _, ∀ _ ∈ _, _))

theorem ConversionDirectives.NoneRequired.of_mem_placed {d : ConversionDirectives} (h : d.NoneRequired)
    {x : PlacedEdits} (hx : x ∈ d.placed) : x.edits.required = false := by
  unfold placed TableDirectives.placed FieldDirectives.placed at hx
  simp only [List.mem_flatMap, List.mem_map] at hx
  obtain ⟨t, ht, f, hf, k, hk, e, he, rfl⟩ := hx
  exact h t.2 (List.mem_map_of_mem ht) f.2 (List.mem_map_of_mem hf) k.2 (List.mem_map_of_mem hk) e.2
    (List.mem_map_of_mem he)

section

variable [PatternSyntax]

/-- An edit that is compiled spares the id field. -/
theorem Edits.Entry.Gives.sparesId {a : Entry} {e : Edit} (h : a.Gives e) : e.SparesId := by
  cases h with
  | delete h => exact h
  | rename hs ht => exact ⟨hs, ht⟩
  | expression | list | append | prepend | regex => trivial

namespace ConversionProgram

/-- The directive is optional, and its edits spare the id field. -/
structure Harmless (d : CompiledDirective) : Prop where
  optional : d.required = false
  spares : ∀ e ∈ d.edits, e.SparesId

theorem harmless_of_gives {x : PlacedEdits} {d : CompiledDirective} (h : x.Gives d)
    (hrequired : x.edits.required = false) : Harmless d := by
  refine ⟨h.required.trans hrequired, fun e he => ?_⟩
  obtain ⟨a, -, hgives⟩ := exists_of_mem_forall₂ h.edits he
  exact hgives.sparesId

/-- A document without required directives compiles, to directives that are optional and spare the id. -/
theorem compile_harmless {d : ConversionDirectives} (h : d.NoneRequired) (diagnostics : Diagnostics) :
    ∃ p diagnostics', compile d diagnostics = (.ok p, diagnostics') ∧
      ∀ g ∈ p.groups, ∀ x ∈ g.directives, Harmless x := by
  cases hc : compile d diagnostics with
  | mk result diagnostics' =>
    cases result with
    | error e =>
      obtain ⟨x, hx, hrequired, -⟩ := fault_of_compile hc
      rw [h.of_mem_placed hx] at hrequired
      cases hrequired
    | ok p =>
      obtain ⟨skipped, hcovers, -⟩ := covers_of_compile hc
      refine ⟨p, diagnostics', rfl, fun g hg x hx => ?_⟩
      obtain ⟨y, hy, -, hgives⟩ := hcovers.given g hg x hx
      exact harmless_of_gives hgives (h.of_mem_placed hy)

end ConversionProgram

end

end TagHarvest
