/-
How texts are matched. Conversion uses these functions and nothing else of patterns and distances, so
what is said of it holds for any other choice of them.
-/
import TagHarvest.Pattern.Replacement
import TagHarvest.Text.Distance
import TagHarvest.OrderedMap

namespace TagHarvest

structure Matchers where
  /-- Whether some part of a text matches a pattern. -/
  finds : Pattern → String → Bool
  /-- A pattern, a replacement and a text to the text with all matches replaced. -/
  replaceAll : Pattern → String → String → String
  /-- How far two texts are apart. -/
  distance : String → String → Nat

def Matchers.standard : Matchers := ⟨Pattern.finds, Pattern.replaceAll, Text.distance⟩

/-- Patterns by the texts they were read from. -/
abbrev PatternCache := OrderedMap String Pattern

end TagHarvest
