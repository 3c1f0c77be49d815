/-
The syntax of patterns. Directives, expressions and header tests get their patterns from texts by this
function and by nothing else, so what is proved of them holds whichever texts are patterns. The reader of
this library is one choice, and the one the program runs with.
-/
import TagHarvest.Pattern.Search

namespace TagHarvest

/-- How texts are read as patterns, or refused. -/
class PatternSyntax where
  compile (text : String) : Except Pattern.Error Pattern
  /-- A pattern keeps the text it was read from. -/
  text_of_compile {text : String} {p : Pattern} (h : compile text = .ok p) : p.text = text

theorem Pattern.text_of_compile {text : String} {p : Pattern} (h : compile text = .ok p) : p.text = text := by
  unfold compile at h
  split at h
  · cases h
  · split at h
    · cases h
    · cases h
      rfl

instance PatternSyntax.standard : PatternSyntax := ⟨Pattern.compile, Pattern.text_of_compile⟩

end TagHarvest
