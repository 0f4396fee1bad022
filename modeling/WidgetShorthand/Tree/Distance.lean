/-!
# Edit distance

The least number of insertions, deletions and replacements between two sequences, and the similarity
that it gives: one for equal sequences, zero for sequences without a common element.

`distance` is the recursive definition. `editDistance` computes the same number row by row and is
what runs: a row holds the distances from a prefix of the first sequence to every prefix of the
second one.
-/

namespace WidgetShorthand.Sequence

variable {α : Type} [DecidableEq α]

/-- The cost of putting one element in the place of another. -/
def replaceCost (x y : α) : Nat :=
  if x = y then 0 else 1

/-- The edit distance by recursion on both sequences. -/
def distance : List α → List α → Nat
  | [], ys => ys.length
  | xs, [] => xs.length
  | x :: xs, y :: ys =>
    min (min (distance xs ys + replaceCost x y) (distance xs (y :: ys) + 1))
      (distance (x :: xs) ys + 1)
termination_by xs ys => xs.length + ys.length

/-- The rest of a row, behind the entry `left` and below the entry `diagonal`. -/
def rowFrom (x : α) (left diagonal : Nat) : List α → List Nat → List Nat
  | y :: ys, up :: ups =>
    let entry := min (min (diagonal + replaceCost x y) (up + 1)) (left + 1)
    entry :: rowFrom x entry up ys ups
  | _, _ => []

/-- The row below `row`, for one more element of the first sequence. -/
def nextRow (ys : List α) (row : List Nat) (x : α) : List Nat :=
  match row with
  | [] => []
  | up :: ups => (up + 1) :: rowFrom x (up + 1) up ys ups

/-- The edit distance, computed row by row. -/
def editDistance (xs ys : List α) : Nat :=
  (xs.foldl (nextRow ys) (List.range (ys.length + 1))).getLast?.getD 0

/-- One less the distance's share of the greater length. Two empty sequences are alike. -/
def similarity (xs ys : List α) : Float :=
  let longest := max xs.length ys.length
  if longest = 0 then 1.0
  else 1.0 - Float.ofNat (editDistance xs ys) / Float.ofNat longest

end WidgetShorthand.Sequence
