import Mathlib.Order.Bounds.Defs
import WidgetShorthand.Tree.Distance

/-!
# The edit distance is the least number of edits

An edit inserts, deletes or replaces one element, anywhere in a sequence. The recursive distance
looks at the first elements only, so two things have to be shown. One edit changes the distance to
any third sequence by at most one, and no script can be shorter than the distance. The recursion
itself is a way to edit one sequence into the other, and some script has that length.

Scripts can be read backwards, put one behind the other and mirrored. The first two make the
distance symmetric and give the triangle inequality. The third is what the rows need: they grow at
the end, where the recursive definition grows at the front. A row holds the distances from one
sequence to every prefix of the other, and each entry comes from three entries whose sequences are
shorter at the end.
-/

namespace WidgetShorthand.Sequence

variable {α : Type} {xs ys zs : List α} {m n : Nat}

/-- The second sequence is the first one with one element inserted, deleted or replaced. -/
inductive Edit : List α → List α → Prop
  | insert (before : List α) (y : α) (after : List α) :
    Edit (before ++ after) (before ++ y :: after)
  | delete (before : List α) (x : α) (after : List α) :
    Edit (before ++ x :: after) (before ++ after)
  | replace (before : List α) (x y : α) (after : List α) :
      Edit (before ++ x :: after) (before ++ y :: after)

/-- A script of so many edits, one after the other, turns one sequence into another. -/
inductive Edits : Nat → List α → List α → Prop
  | done (xs : List α) : Edits 0 xs xs
  | next {n : Nat} {xs ys zs : List α} (h : Edit xs ys) (hs : Edits n ys zs) : Edits (n + 1) xs zs

/-! ## Edits -/

namespace Edit

theorem cons (a : α) (h : Edit xs ys) : Edit (a :: xs) (a :: ys) := by
  cases h with
  | insert before y after => exact .insert (a :: before) y after
  | delete before x after => exact .delete (a :: before) x after
  | replace before x y after => exact .replace (a :: before) x y after

theorem symm (h : Edit xs ys) : Edit ys xs := by
  cases h with
  | insert before y after => exact .delete before y after
  | delete before x after => exact .insert before x after
  | replace before x y after => exact .replace before y x after

theorem reverse (h : Edit xs ys) : Edit xs.reverse ys.reverse := by
  cases h with
  | insert before y after =>
      simpa using Edit.insert after.reverse y before.reverse
  | delete before x after =>
      simpa using Edit.delete after.reverse x before.reverse
  | replace before x y after =>
      simpa using Edit.replace after.reverse x y before.reverse

theorem length_le (h : Edit xs ys) : xs.length ≤ ys.length + 1 := by
  cases h <;> simp only [List.length_append, List.length_cons] <;> omega

end Edit

/-! ## Scripts -/

namespace Edits

theorem cons (a : α) (h : Edits n xs ys) : Edits n (a :: xs) (a :: ys) := by
  induction h with
  | done xs => exact .done (a :: xs)
  | next hedit _ ih => exact .next (hedit.cons a) ih

theorem trans (h : Edits m xs ys) (h' : Edits n ys zs) : Edits (m + n) xs zs := by
  induction h with
  | done xs => rwa [Nat.zero_add]
  | next hedit _ ih =>
      rw [Nat.add_right_comm]
      exact .next hedit (ih h')

theorem symm (h : Edits n xs ys) : Edits n ys xs := by
  induction h with
  | done xs => exact .done xs
  | next hedit _ ih => exact ih.trans (.next hedit.symm (.done _))

theorem reverse (h : Edits n xs ys) : Edits n xs.reverse ys.reverse := by
  induction h with
  | done xs => exact .done xs.reverse
  | next hedit _ ih => exact .next hedit.reverse ih

theorem length_le (h : Edits n xs ys) : xs.length ≤ n + ys.length := by
  induction h with
  | done xs => omega
  | next hedit _ ih =>
      have hone := hedit.length_le
      omega

/-- Inserting the elements of a sequence one by one. -/
theorem of_nil (ys : List α) : Edits ys.length [] ys := by
  induction ys with
  | nil => exact .done []
  | cons y ys ih =>
      exact .next (.insert [] y []) (ih.cons y)

end Edits

/-! ## The recursive distance -/

variable [DecidableEq α]

@[simp] theorem distance_nil_left (ys : List α) : distance [] ys = ys.length := by
  rw [distance]

@[simp] theorem distance_nil_right (xs : List α) : distance xs [] = xs.length := by
  cases xs with
  | nil => rw [distance]
  | cons x xs =>
      rw [distance]
      exact List.cons_ne_nil x xs

theorem distance_cons_cons (x y : α) (xs ys : List α) :
    distance (x :: xs) (y :: ys) =
      min (min (distance xs ys + replaceCost x y) (distance xs (y :: ys) + 1))
        (distance (x :: xs) ys + 1) := by
  rw [distance]

theorem replaceCost_le_one (x y : α) : replaceCost x y ≤ 1 := by
  unfold replaceCost
  split <;> omega

@[simp] theorem replaceCost_self (x : α) : replaceCost x x = 0 :=
  if_pos rfl

@[simp] theorem distance_self (xs : List α) : distance xs xs = 0 := by
  induction xs with
  | nil => exact distance_nil_left []
  | cons x xs ih =>
      rw [distance_cons_cons, ih, replaceCost_self]
      omega

theorem distance_le_max (xs ys : List α) : distance xs ys ≤ max xs.length ys.length := by
  induction xs generalizing ys with
  | nil => simp
  | cons x xs ih =>
      cases ys with
      | nil => simp
      | cons y ys =>
          have hrest := ih ys
          have hcost := replaceCost_le_one x y
          rw [distance_cons_cons, List.length_cons, List.length_cons]
          omega

/-! ## No script is shorter -/

theorem distance_cons_le (x : α) (xs zs : List α) : distance (x :: xs) zs ≤ distance xs zs + 1 := by
  cases zs with
  | nil => simp
  | cons z zs =>
      rw [distance_cons_cons]
      omega

theorem distance_le_cons (xs : List α) (z : α) (zs : List α) :
    distance xs (z :: zs) ≤ distance xs zs + 1 := by
  cases xs with
  | nil => simp
  | cons x xs =>
      rw [distance_cons_cons]
      omega

theorem distance_le_distance_cons (y : α) (xs zs : List α) :
    distance xs zs ≤ distance (y :: xs) zs + 1 := by
  induction zs with
  | nil =>
      rw [distance_nil_right, distance_nil_right, List.length_cons]
      omega
  | cons z zs ih =>
      have hrest := distance_le_cons xs z zs
      rw [distance_cons_cons]
      omega

theorem distance_replace_le (x y : α) (xs zs : List α) :
    distance (x :: xs) zs ≤ distance (y :: xs) zs + 1 := by
  induction zs with
  | nil => simp
  | cons z zs ih =>
      have hcost := replaceCost_le_one x z
      rw [distance_cons_cons, distance_cons_cons]
      omega

/-- An edit behind the first element counts as much as it does without that element. -/
theorem distance_cons_le_cons
    (a : α) (h : ∀ zs, distance xs zs ≤ distance ys zs + 1) (zs : List α) :
    distance (a :: xs) zs ≤ distance (a :: ys) zs + 1 := by
  induction zs with
  | nil =>
      have hnil := h []
      simp only [distance_nil_right, List.length_cons] at hnil ⊢
      omega
  | cons z zs ih =>
      have hboth := h zs
      have hfirst := h (z :: zs)
      rw [distance_cons_cons, distance_cons_cons]
      omega

theorem distance_append_le_append (before : List α)
    (h : ∀ zs, distance xs zs ≤ distance ys zs + 1) (zs : List α) :
    distance (before ++ xs) zs ≤ distance (before ++ ys) zs + 1 := by
  induction before generalizing zs with
  | nil => exact h zs
  | cons a before ih => exact distance_cons_le_cons a ih zs

/-- One edit changes the distance to another sequence by at most one. -/
theorem Edit.distance_le (h : Edit xs ys) (zs : List α) :
    distance xs zs ≤ distance ys zs + 1 := by
  cases h with
  | insert before y after =>
      exact distance_append_le_append before (distance_le_distance_cons y after) zs
  | delete before x after =>
      exact distance_append_le_append before (distance_cons_le x after) zs
  | replace before x y after =>
      exact distance_append_le_append before (distance_replace_le x y after) zs

theorem Edits.distance_le (h : Edits n xs ys) : distance xs ys ≤ n := by
  induction h with
  | done xs => exact Nat.le_of_eq (distance_self xs)
  | @next n xs ys zs hedit _ ih =>
      have hone := hedit.distance_le zs
      omega

/-! ## Some script is that short -/

theorem edits_replaceCost (x y : α) (xs : List α) :
    Edits (replaceCost x y) (x :: xs) (y :: xs) := by
  by_cases hxy : x = y
  · subst hxy
    rw [replaceCost_self]
    exact .done _
  · rw [replaceCost, if_neg hxy]
    exact .next (.replace [] x y xs) (.done _)

theorem edits_distance (xs ys : List α) : Edits (distance xs ys) xs ys := by
  induction xs generalizing ys with
  | nil =>
      rw [distance_nil_left]
      exact .of_nil ys
  | cons x xs ih =>
      induction ys with
      | nil =>
          rw [distance_nil_right]
          exact (Edits.of_nil (x :: xs)).symm
      | cons y ys ihy =>
          have hreplace := ((ih ys).cons x).trans (edits_replaceCost x y ys)
          have hdelete := Edits.next (.delete [] x xs) (ih (y :: ys))
          have hinsert := ihy.trans (.next (.insert [] y ys) (.done _))
          -- The recursion takes one of the three.
          rw [distance_cons_cons]
          rcases Nat.le_total (min (distance xs ys + replaceCost x y) (distance xs (y :: ys) + 1))
            (distance (x :: xs) ys + 1) with hleft | hright
          · rw [Nat.min_eq_left hleft]
            rcases Nat.le_total (distance xs ys + replaceCost x y) (distance xs (y :: ys) + 1) with
              hle | hle
            · rwa [Nat.min_eq_left hle]
            · rwa [Nat.min_eq_right hle]
          · rwa [Nat.min_eq_right hright]

theorem isLeast_distance (xs ys : List α) : IsLeast {n | Edits n xs ys} (distance xs ys) :=
  ⟨edits_distance xs ys, fun _ => Edits.distance_le⟩

/-! ## What scripts say about the distance -/

theorem distance_eq_zero : distance xs ys = 0 ↔ xs = ys := by
  constructor
  · intro h
    have hscript := edits_distance xs ys
    rw [h] at hscript
    cases hscript
    rfl
  · rintro rfl
    exact distance_self xs

theorem distance_comm (xs ys : List α) : distance xs ys = distance ys xs :=
  Nat.le_antisymm (edits_distance ys xs).symm.distance_le (edits_distance xs ys).symm.distance_le

theorem distance_triangle (xs ys zs : List α) :
    distance xs zs ≤ distance xs ys + distance ys zs :=
  ((edits_distance xs ys).trans (edits_distance ys zs)).distance_le

theorem distance_reverse_le (xs ys : List α) : distance xs.reverse ys.reverse ≤ distance xs ys :=
  (edits_distance xs ys).reverse.distance_le

theorem distance_reverse (xs ys : List α) : distance xs.reverse ys.reverse = distance xs ys := by
  refine Nat.le_antisymm (distance_reverse_le xs ys) ?_
  have hback := distance_reverse_le xs.reverse ys.reverse
  rwa [List.reverse_reverse, List.reverse_reverse] at hback

/-- The recursion at the end of both sequences. -/
theorem distance_concat_concat (x y : α) (xs ys : List α) :
    distance (xs ++ [x]) (ys ++ [y]) =
      min (min (distance xs ys + replaceCost x y) (distance xs (ys ++ [y]) + 1))
        (distance (xs ++ [x]) ys + 1) := by
  rw [← distance_reverse (xs ++ [x]), ← distance_reverse xs ys, ← distance_reverse xs (ys ++ [y]),
    ← distance_reverse (xs ++ [x]) ys]
  simp only [List.reverse_append, List.reverse_singleton, List.singleton_append]
  exact distance_cons_cons x y xs.reverse ys.reverse

/-! ## Rows -/

/-- The distances from `xs` to `before` with more and more of the other elements behind it. -/
def distancesFrom (xs before : List α) : List α → List Nat
  | [] => []
  | y :: ys => distance xs (before ++ [y]) :: distancesFrom xs (before ++ [y]) ys

/-- The row of `xs`: the distances to all prefixes of `ys`, from the empty one on. -/
def distances (xs ys : List α) : List Nat :=
  distance xs [] :: distancesFrom xs [] ys

theorem distancesFrom_nil (before ys : List α) :
    distancesFrom [] before ys = List.range' (before.length + 1) ys.length := by
  induction ys generalizing before with
  | nil => rfl
  | cons y ys ih =>
      rw [distancesFrom, ih, distance_nil_left, List.length_append, List.length_singleton,
        List.length_cons, List.range'_succ]

theorem distances_nil (ys : List α) : distances [] ys = List.range (ys.length + 1) := by
  rw [distances, distancesFrom_nil, distance_nil_left, List.range_eq_range', List.range'_succ]
  rfl

/-- In the row of one more element, each entry is made of the one before it and the two above. -/
theorem rowFrom_distances (x : α) (xs before ys : List α) :
    rowFrom x (distance (xs ++ [x]) before) (distance xs before) ys (distancesFrom xs before ys) =
      distancesFrom (xs ++ [x]) before ys := by
  induction ys generalizing before with
  | nil => rfl
  | cons y ys ih =>
      rw [distancesFrom, distancesFrom, rowFrom, ← distance_concat_concat]
      exact congrArg (_ :: ·) (ih (before ++ [y]))

theorem nextRow_distances (x : α) (xs ys : List α) :
    nextRow ys (distances xs ys) x = distances (xs ++ [x]) ys := by
  have hfirst : distance (xs ++ [x]) [] = distance xs [] + 1 := by simp
  rw [distances, distances, nextRow, ← hfirst, rowFrom_distances]

theorem foldl_nextRow (xs before ys : List α) :
    xs.foldl (nextRow ys) (distances before ys) = distances (before ++ xs) ys := by
  induction xs generalizing before with
  | nil => rw [List.foldl_nil, List.append_nil]
  | cons x xs ih => rw [List.foldl_cons, nextRow_distances, ih, ← List.append_cons]

theorem getLast?_distancesFrom (xs before : List α) (y : α) (ys : List α) :
    (distancesFrom xs before (y :: ys)).getLast? = some (distance xs (before ++ y :: ys)) := by
  induction ys generalizing before y with
  | nil => rfl
  | cons y' ys ih =>
      rw [distancesFrom, List.getLast?_cons, ih, ← List.append_cons, Option.getD_some]

theorem getLast?_distances (xs ys : List α) :
    (distances xs ys).getLast? = some (distance xs ys) := by
  cases ys with
  | nil => rfl
  | cons y ys =>
      rw [distances, List.getLast?_cons, getLast?_distancesFrom, List.nil_append, Option.getD_some]

theorem editDistance_eq_distance (xs ys : List α) : editDistance xs ys = distance xs ys := by
  rw [editDistance, ← distances_nil, foldl_nextRow, List.nil_append, getLast?_distances,
    Option.getD_some]

theorem editDistance_eq_zero : editDistance xs ys = 0 ↔ xs = ys := by
  rw [editDistance_eq_distance, distance_eq_zero]

theorem editDistance_comm (xs ys : List α) : editDistance xs ys = editDistance ys xs := by
  rw [editDistance_eq_distance, editDistance_eq_distance, distance_comm]

theorem length_le_editDistance (xs ys : List α) : xs.length ≤ editDistance xs ys + ys.length := by
  rw [editDistance_eq_distance]
  exact (edits_distance xs ys).length_le

/-- The distance that is computed row by row is the one of the recursive definition, and the least
number of edits. It is a metric, and it lies between the difference of the lengths and the greater
one. -/
theorem editDistance_isLeast (xs ys zs : List α) :
    editDistance xs ys = distance xs ys ∧
    IsLeast {n | Edits n xs ys} (editDistance xs ys) ∧
    (editDistance xs ys = 0 ↔ xs = ys) ∧
    editDistance xs ys = editDistance ys xs ∧
    editDistance xs zs ≤ editDistance xs ys + editDistance ys zs ∧
    max xs.length ys.length - min xs.length ys.length ≤ editDistance xs ys ∧
    editDistance xs ys ≤ max xs.length ys.length := by
  have hleft := length_le_editDistance xs ys
  have hright := length_le_editDistance ys xs
  rw [editDistance_comm] at hright
  refine ⟨editDistance_eq_distance xs ys, ?_, editDistance_eq_zero, editDistance_comm xs ys,
    ?_, ?_, ?_⟩
  · rw [editDistance_eq_distance]
    exact isLeast_distance xs ys
  · simp only [editDistance_eq_distance]
    exact distance_triangle xs ys zs
  · omega
  · rw [editDistance_eq_distance]
    exact distance_le_max xs ys

/-- Two replacements and an insertion. -/
example : editDistance "kitten".toList "sitting".toList = 3 := by decide

end WidgetShorthand.Sequence
