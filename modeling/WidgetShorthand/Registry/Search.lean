import WidgetShorthand.Registry.Basic
import WidgetShorthand.Text.Basic
import WidgetShorthand.Text.Lowercase
import WidgetShorthand.Tree.Distance

/-!
# Searching a registry

Patterns of a similar shape, patterns by description, and a summary. The search for a similar shape
scores only what its lengths allow to win, since two sequences are about as alike as the shorter
length's share of the longer one at most. `scanSimilar?` is the same search without that shortcut.
-/

namespace WidgetShorthand

/-- What a registry holds, in numbers. -/
structure RegistrySummary where
  total : Nat
  /-- The number of patterns in each category, in the order of the category names. -/
  categories : List (String × Nat)
  totalTokens : Nat
  averageTokens : Nat
  deriving DecidableEq, Repr

/-- The share of the shorter length in the longer one. -/
def lengthBound (m n : Nat) : Float :=
  let short := min m n
  let long := max m n
  if long = 0 then 1.0 else Float.ofNat short / Float.ofNat long

namespace Registry

/-- The better one of the best match so far and a pattern, which needs at least the threshold and
more than the best score. -/
def betterScore (tokens : List Token) (threshold : Float) (best : Option (Entry × Float))
    (candidate : Registered) : Option (Entry × Float) :=
  let score := Sequence.similarity candidate.shape tokens
  if threshold ≤ score && best.all fun (_, top) => top < score then some (candidate.entry, score)
  else best

/-- The better one of the best match so far and a pattern, which is not scored when its length alone
rules it out. -/
def betterMatch (tokens : List Token) (threshold : Float) (best : Option (Entry × Float))
    (candidate : Registered) : Option (Entry × Float) :=
  let bound := lengthBound candidate.shape.length tokens.length
  if bound < threshold || best.any fun (_, score) => bound ≤ score then best
  else betterScore tokens threshold best candidate

/-- The pattern most similar in shape to a widget, with its score. The oldest one wins a tie. -/
def findSimilar? (r : Registry) (w : Widget) (threshold : Float) : Option (Entry × Float) :=
  r.items.foldl (betterMatch w.shape threshold) none

/-- The pattern most similar in shape to a widget, found by scoring every pattern. -/
def scanSimilar? (r : Registry) (w : Widget) (threshold : Float) : Option (Entry × Float) :=
  r.items.foldl (betterScore w.shape threshold) none

/-- The patterns of a category. -/
def byCategory (r : Registry) (category : String) : List Entry :=
  r.entries.filter (·.about.category == category)

/-- The patterns that carry at least one of the tags. -/
def byTags (r : Registry) (tags : List String) : List Entry :=
  r.entries.filter fun e => tags.any fun tag => e.about.tags.contains tag

end Registry

/-- Whether a text occurs inside another one. -/
def occursIn (part : List Char) : List Char → Bool
  | [] => part.isEmpty
  | c :: r => part.isPrefixOf (c :: r) || occursIn part r

namespace Registry

/-- The patterns whose shown name holds a text, whatever the case of either. -/
def searchName (r : Registry) (query : String) : List Entry :=
  let query := Text.lowercase query
  r.entries.filter fun e => occursIn query.toList (Text.lowercase e.displayName).toList

/-- The summary; the average is rounded down and zero for an empty registry. -/
def summary (r : Registry) : RegistrySummary :=
  let tokens := r.items.foldr (fun item n => item.shape.length + n) 0
  ⟨r.size, Text.tally (r.entries.map (·.about.category)), tokens, tokens / r.size⟩

end Registry

end WidgetShorthand
