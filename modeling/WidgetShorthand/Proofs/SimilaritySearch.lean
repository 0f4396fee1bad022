import Mathlib.Algebra.Order.Field.Rat
import Mathlib.Algebra.Order.Field.Basic
import WidgetShorthand.Proofs.EditDistance
import WidgetShorthand.Proofs.FloatOrder
import WidgetShorthand.Proofs.RegistryRuns

/-!
# Searching with a bound

The search for a similar shape looks at the lengths first and passes over what they rule out.
Scoring every pattern instead finds the pattern that one would describe: the oldest one with the
highest score. Both searches are the same fold, which asks differently whether to pass over a
pattern; they agree exactly if the best pattern is not passed over when its turn comes.

In exact arithmetic the lengths only rule out what cannot win, because the edit distance is at least
the difference of the lengths. But score and bound are rounded in different ways: a score of
`1 - 10 / 15` is a little more than the bound `5 / 15`.
-/

namespace WidgetShorthand

/-! ## Distances and lengths -/

namespace Sequence

variable {α : Type} [DecidableEq α]

/-- The similarity before rounding. -/
def exactSimilarity (xs ys : List α) : ℚ :=
  1 - (editDistance xs ys : ℚ) / (max xs.length ys.length : ℕ)

/-- The share of the shorter length in the longer one, before rounding. -/
def exactBound (m n : ℕ) : ℚ :=
  if max m n = 0 then 1 else (min m n : ℕ) / (max m n : ℕ)

/-- Before rounding, the lengths do bound the similarity. -/
theorem exactSimilarity_le (xs ys : List α) :
    exactSimilarity xs ys ≤ exactBound xs.length ys.length := by
  have hle := length_le_editDistance xs ys
  have hle' := length_le_editDistance ys xs
  rw [editDistance_comm] at hle'
  unfold exactSimilarity exactBound
  split
  · next hzero => simp [hzero]
  · next hlong =>
      have hpos : (0 : ℚ) < (max xs.length ys.length : ℕ) := by
        exact_mod_cast Nat.pos_of_ne_zero hlong
      have hsteps : ((max xs.length ys.length : ℕ) : ℚ) ≤
          editDistance xs ys + (min xs.length ys.length : ℕ) := by
        exact_mod_cast (by omega :
          max xs.length ys.length ≤ editDistance xs ys + min xs.length ys.length)
      rw [one_sub_div hpos.ne', div_le_div_iff_of_pos_right hpos]
      exact sub_le_iff_le_add'.mpr hsteps

end Sequence

/-! ## What a search is to find -/

/-- How similar a pattern is to a widget. -/
def Entry.score (e : Entry) (w : Widget) : Float :=
  Sequence.similarity e.sample.shape w.shape

/-- How similar a pattern may be to a widget, by its length. -/
def Entry.bound (e : Entry) (w : Widget) : Float :=
  lengthBound e.sample.shape.length w.shape.length

/-- The best match among patterns. It reaches the threshold; of those that reach it too, the older
ones score less and the newer ones do not score more. There is none if no pattern reaches the
threshold. -/
def Wins (w : Widget) (threshold : Float) (entries : List Entry) : Option (Entry × Float) → Prop
  | none => ∀ e ∈ entries, ¬ threshold ≤ e.score w
  | some (e, score) => score = e.score w ∧ threshold ≤ score ∧
      ∃ before after, entries = before ++ e :: after ∧
        (∀ f ∈ before, threshold ≤ f.score w → f.score w < score) ∧
        ∀ f ∈ after, threshold ≤ f.score w → f.score w ≤ score

/-- Whether a score is below the threshold or not above the best one so far. -/
def ruledOut (threshold : Float) (best : Option (Entry × Float)) (score : Float) : Bool :=
  score < threshold || best.any fun (_, top) => score ≤ top

/-! ## The searches as one fold -/

section Folding

variable (skips : Option (Entry × Float) → Entry → Bool) (w : Widget) (threshold : Float)

/-- Passes over a pattern, or takes it if it is better than the best match so far. -/
def consider (best : Option (Entry × Float)) (e : Entry) : Option (Entry × Float) :=
  if skips best e then best else Registry.betterScore w.shape threshold best ⟨e, e.sample.shape⟩

/-- The best match among patterns, some of which are passed over. -/
def search (entries : List Entry) : Option (Entry × Float) :=
  entries.foldl (consider skips w threshold) none

variable {skips w threshold} {best : Option (Entry × Float)} {e : Entry} {score : Float}

theorem consider_of_better (hscored : skips best e = false) (hreached : threshold ≤ e.score w)
    (hbetter : ∀ m ∈ best, m.2 < e.score w) :
    consider skips w threshold best e = some (e, e.score w) := by
  have hall : (best.all fun (_, top) => decide (top < e.score w)) = true := by
    cases best with
    | none => rfl
    | some m => exact decide_eq_true (hbetter m rfl)
  unfold consider Registry.betterScore
  rw [if_neg (by rw [hscored]; exact Bool.false_ne_true)]
  exact if_pos (by rw [Bool.and_eq_true]; exact ⟨decide_eq_true hreached, hall⟩)

theorem consider_cases (skips : Option (Entry × Float) → Entry → Bool) (w : Widget)
    (threshold : Float) (best : Option (Entry × Float)) (e : Entry) :
    consider skips w threshold best e = best ∨
      consider skips w threshold best e = some (e, e.score w) ∧ threshold ≤ e.score w ∧
        ∀ m ∈ best, m.2 < e.score w := by
  unfold consider Registry.betterScore
  split
  · exact .inl rfl
  · dsimp only
    split
    · next htaken =>
        rw [Bool.and_eq_true] at htaken
        refine .inr ⟨rfl, of_decide_eq_true htaken.1, ?_⟩
        intro m hm
        cases hm
        exact of_decide_eq_true htaken.2
    · exact .inl rfl

/-- What the fold ends with is what it began with, or one of the patterns with its score. -/
theorem foldl_consider_eq_some {entries : List Entry}
    (h : entries.foldl (consider skips w threshold) best = some (e, score)) :
    best = some (e, score) ∨ e ∈ entries ∧ score = e.score w ∧ threshold ≤ score := by
  induction entries generalizing best with
  | nil => exact .inl h
  | cons f entries ih =>
      rcases ih h with hstep | ⟨hmem, hscore⟩
      · rcases consider_cases skips w threshold best f with hkept | ⟨htaken, hreached, _⟩
        · exact .inl (hkept.symm.trans hstep)
        · cases htaken.symm.trans hstep
          exact .inr ⟨List.mem_cons_self, rfl, hreached⟩
      · exact .inr ⟨List.mem_cons_of_mem f hmem, hscore⟩

theorem mem_of_search
    {entries : List Entry} (h : search skips w threshold entries = some (e, score)) :
    e ∈ entries ∧ score = e.score w ∧ threshold ≤ score :=
  (foldl_consider_eq_some h).resolve_left nofun

/-- A match is kept as long as no pattern scores more. -/
theorem foldl_consider_kept {entries : List Entry}
    (h : ∀ f ∈ entries, threshold ≤ f.score w → f.score w ≤ score) :
    entries.foldl (consider skips w threshold) (some (e, score)) = some (e, score) := by
  induction entries with
  | nil => rfl
  | cons f entries ih =>
      have hkept : consider skips w threshold (some (e, score)) f = some (e, score) := by
        rcases consider_cases skips w threshold (some (e, score)) f with
          hkept | ⟨_, hreached, hbetter⟩
        · exact hkept
        · have hle := h f List.mem_cons_self hreached
          exact absurd (hbetter _ rfl) (float_not_lt_of_le hle)
      rw [List.foldl_cons, hkept]
      exact ih fun f hf => h f (List.mem_cons_of_mem _ hf)

theorem search_append (before : List Entry) (e : Entry) (after : List Entry) :
    search skips w threshold (before ++ e :: after) =
      after.foldl (consider skips w threshold)
        (consider skips w threshold (search skips w threshold before) e) :=
  List.foldl_append

/-- The best match is found if it is scored when its turn comes, whatever else is passed over. -/
theorem search_of_scored {before after : List Entry}
    (hscored : skips (search skips w threshold before) e = false) (hreached : threshold ≤ e.score w)
    (hbefore : ∀ f ∈ before, threshold ≤ f.score w → f.score w < e.score w)
    (hafter : ∀ f ∈ after, threshold ≤ f.score w → f.score w ≤ e.score w) :
    search skips w threshold (before ++ e :: after) = some (e, e.score w) := by
  have hbetter : ∀ m ∈ search skips w threshold before, m.2 < e.score w := by
    rintro ⟨f, score⟩ hfound
    obtain ⟨hmem, rfl, hle⟩ := mem_of_search hfound
    exact hbefore f hmem hle
  rw [search_append, consider_of_better hscored hreached hbetter]
  exact foldl_consider_kept hafter

theorem notMem_of_nodup {before after : List Entry} (h : (before ++ e :: after).Nodup) :
    e ∉ before ∧ e ∉ after := by
  rw [List.nodup_middle, List.nodup_cons, List.mem_append, not_or] at h
  exact h.1

/-- A pattern that is passed over is not found, if it occurs once only. -/
theorem search_of_skipped {before after : List Entry}
    (hskipped : skips (search skips w threshold before) e = true)
    (hnodup : (before ++ e :: after).Nodup) :
    search skips w threshold (before ++ e :: after) ≠ some (e, score) := by
  intro hfound
  have hkept : consider skips w threshold (search skips w threshold before) e =
      search skips w threshold before := if_pos hskipped
  rw [search_append, hkept] at hfound
  obtain ⟨hbefore, hafter⟩ := notMem_of_nodup hnodup
  rcases foldl_consider_eq_some hfound with hfound | ⟨hmem, _⟩
  · exact hbefore (mem_of_search hfound).1
  · exact hafter hmem

end Folding

/-- Scoring every pattern. -/
abbrev plainSearch (w : Widget) (threshold : Float) (entries : List Entry) :
    Option (Entry × Float) :=
  search (fun _ _ => false) w threshold entries

/-- Passing over what the bound rules out. -/
abbrev boundedSearch (w : Widget) (threshold : Float) (entries : List Entry) :
    Option (Entry × Float) :=
  search (fun best e => ruledOut threshold best (e.bound w)) w threshold entries

variable {w : Widget} {threshold : Float} {entries : List Entry} {best : Option (Entry × Float)}

/-! ## The best match -/

/-- What reaches the threshold does not score more than the best match. -/
theorem Wins.le {found : Entry × Float} (h : Wins w threshold entries (some found)) {f : Entry}
    (hf : f ∈ entries) (hreached : threshold ≤ f.score w) : f.score w ≤ found.2 := by
  obtain ⟨e, score⟩ := found
  obtain ⟨rfl, hscore, before, after, rfl, hbefore, hafter⟩ := h
  rcases List.mem_append.mp hf with hf | hf
  · exact float_le_of_lt (hbefore f hf hreached)
  · rcases List.mem_cons.mp hf with rfl | hf
    · exact float_le_of_not_lt hscore hscore float_lt_irrefl
    · exact hafter f hf hreached

theorem Wins.search_eq_none (h : Wins w threshold entries none)
    (skips : Option (Entry × Float) → Entry → Bool) : search skips w threshold entries = none := by
  cases hfound : search skips w threshold entries with
  | none => rfl
  | some found =>
      obtain ⟨hmem, hscore, hreached⟩ := mem_of_search hfound
      rw [hscore] at hreached
      exact absurd hreached (h found.1 hmem)

theorem Wins.consider (h : Wins w threshold entries best) (e : Entry) :
    Wins w threshold (entries ++ [e])
      (consider (fun _ _ => false) w threshold best e) := by
  by_cases htaken : threshold ≤ e.score w ∧ ∀ m ∈ best, m.2 < e.score w
  · obtain ⟨hreached, hbetter⟩ := htaken
    rw [consider_of_better rfl hreached hbetter]
    refine ⟨rfl, hreached, entries, [], rfl, ?_, nofun⟩
    intro f hf hf'
    cases best with
    | none => exact absurd hf' (h f hf)
    | some found => exact float_lt_of_le_of_lt (h.le hf hf') (hbetter found rfl)
  · have hkept : WidgetShorthand.consider (fun _ _ => false) w threshold best e = best := by
      rcases consider_cases (fun _ _ => false) w threshold best e with hkept | ⟨_, htaken'⟩
      · exact hkept
      · exact absurd htaken' htaken
    rw [hkept]
    cases best with
    | none =>
        intro f hf hreached
        rcases List.mem_append.mp hf with hf | hf
        · exact h f hf hreached
        · cases List.mem_singleton.mp hf
          exact htaken ⟨hreached, nofun⟩
    | some found =>
        obtain ⟨g, score⟩ := found
        obtain ⟨hscore, hreached, before, after, rfl, hbefore, hafter⟩ := h
        refine ⟨hscore, hreached, before, after ++ [e], by simp, hbefore, ?_⟩
        intro f hf hf'
        rcases List.mem_append.mp hf with hf | hf
        · exact hafter f hf hf'
        · cases List.mem_singleton.mp hf
          -- Both scores compare with the threshold, so what is not less is at least as much.
          refine float_le_of_not_lt hreached hf' fun hlt => htaken ⟨hf', ?_⟩
          rintro m ⟨⟩
          exact hlt

theorem wins_plainSearch (w : Widget) (threshold : Float) (entries : List Entry) :
    Wins w threshold entries (plainSearch w threshold entries) := by
  induction entries using List.reverseRecOn with
  | nil => exact nofun
  | append_singleton entries e ih =>
      rw [plainSearch, search_append]
      exact ih.consider e

/-- Scoring every pattern finds the best match and nothing else. -/
theorem plainSearch_eq_iff :
    plainSearch w threshold entries = best ↔ Wins w threshold entries best := by
  constructor
  · rintro rfl
    exact wins_plainSearch w threshold entries
  · intro h
    cases best with
    | none => exact h.search_eq_none _
    | some found =>
        obtain ⟨e, score⟩ := found
        obtain ⟨rfl, hreached, before, after, rfl, hbefore, hafter⟩ := h
        exact search_of_scored rfl hreached hbefore hafter

/-! ## Passing over patterns -/

/-- The two searches agree exactly if the bound does not rule out the best match at its turn. -/
theorem boundedSearch_eq_iff (hnodup : entries.Nodup) :
    boundedSearch w threshold entries = plainSearch w threshold entries ↔
      ∀ before e after score, entries = before ++ e :: after →
        plainSearch w threshold entries = some (e, score) →
          ruledOut threshold (boundedSearch w threshold before) (e.bound w) = false := by
  constructor
  · rintro hagree before e after score rfl hplain
    rw [← Bool.not_eq_true]
    intro hskipped
    exact search_of_skipped hskipped hnodup (hagree.trans hplain)
  · intro hscored
    cases hplain : plainSearch w threshold entries with
    | none => exact (plainSearch_eq_iff.mp hplain).search_eq_none _
    | some found =>
        obtain ⟨e, score⟩ := found
        obtain ⟨rfl, hreached, before, after, rfl, hbefore, hafter⟩ := plainSearch_eq_iff.mp hplain
        exact search_of_scored (hscored before e after _ rfl hplain) hreached hbefore hafter

theorem ruledOut_iff {a : Float} :
    ruledOut threshold best a = true ↔ a < threshold ∨ ∃ m ∈ best, a ≤ m.2 := by
  simp [ruledOut, Option.any_eq_true]

theorem ruledOut_of_le {a b : Float} (hle : a ≤ b) (h : ruledOut threshold best b = true) :
    ruledOut threshold best a = true := by
  rcases ruledOut_iff.mp h with hbelow | ⟨m, hm, hbest⟩
  · exact ruledOut_iff.mpr (.inl (float_lt_of_le_of_lt hle hbelow))
  · exact ruledOut_iff.mpr (.inr ⟨m, hm, float_le_trans hle hbest⟩)

/-- The best match is not ruled out by its own score, whatever was passed over before. -/
theorem Wins.not_ruledOut {before after : List Entry} {e : Entry} {score : Float}
    (h : Wins w threshold (before ++ e :: after) (some (e, score)))
    (hnodup : (before ++ e :: after).Nodup) (skips : Option (Entry × Float) → Entry → Bool) :
    ruledOut threshold (search skips w threshold before) (e.score w) = false := by
  obtain ⟨rfl, hreached, before', after', heq, hbefore, _⟩ := h
  obtain ⟨hnot, hnot'⟩ := notMem_of_nodup hnodup
  -- The pattern occurs once, so the two splits are one.
  obtain ⟨rfl, -, -⟩ := (List.append_cons_inj_of_notMem hnot hnot').mp heq
  rw [← Bool.not_eq_true, ruledOut_iff]
  rintro (hbelow | ⟨m, hm, hbest⟩)
  · exact float_not_lt_of_le hreached hbelow
  · obtain ⟨hmem, hscore, hle⟩ := mem_of_search hm
    rw [hscore] at hle hbest
    exact float_not_lt_of_le hbest (hbefore m.1 hmem hle)

namespace Registry

variable {r : Registry}

theorem Shaped.items_eq (hs : r.Shaped) : r.items = r.entries.map fun e => ⟨e, e.sample.shape⟩ := by
  rw [entries, List.map_map]
  refine (List.map_id r.items).symm.trans (List.map_congr_left ?_)
  intro item hitem
  obtain ⟨e, shape⟩ := item
  exact congrArg (Registered.mk e) (hs _ hitem)

theorem Shaped.scanSimilar?_eq (hs : r.Shaped) (w : Widget) (threshold : Float) :
    r.scanSimilar? w threshold = plainSearch w threshold r.entries := by
  rw [scanSimilar?, hs.items_eq, List.foldl_map]
  rfl

theorem Shaped.findSimilar?_eq (hs : r.Shaped) (w : Widget) (threshold : Float) :
    r.findSimilar? w threshold = boundedSearch w threshold r.entries := by
  rw [findSimilar?, hs.items_eq, List.foldl_map]
  rfl

theorem Sound.nodup_entries (hr : r.Sound) : r.entries.Nodup :=
  .of_map _ hr.ids

/-- Scoring every pattern finds the best match. Looking at the lengths first finds the same exactly
if the best match is not ruled out at its turn by its bound. That is so if no score is more than its
bound, and then only patterns are passed over that their own score rules out. Before rounding, no
score is more than its bound. -/
theorem findSimilar?_agrees_iff (h : r.Reachable) (w : Widget) (threshold : Float) :
    (∀ best, r.scanSimilar? w threshold = best ↔ Wins w threshold r.entries best) ∧
    r.findSimilar? w threshold = boundedSearch w threshold r.entries ∧
    (r.findSimilar? w threshold = r.scanSimilar? w threshold ↔
      ∀ before e after score, r.entries = before ++ e :: after →
        r.scanSimilar? w threshold = some (e, score) →
          ruledOut threshold (boundedSearch w threshold before) (e.bound w) = false) ∧
    (∀ before e after, r.entries = before ++ e :: after → e.score w ≤ e.bound w →
      ruledOut threshold (boundedSearch w threshold before) (e.bound w) = true →
        ruledOut threshold (boundedSearch w threshold before) (e.score w) = true) ∧
    ((∀ e ∈ r.entries, e.score w ≤ e.bound w) →
      r.findSimilar? w threshold = r.scanSimilar? w threshold) ∧
    ∀ e ∈ r.entries, Sequence.exactSimilarity e.sample.shape w.shape ≤
      Sequence.exactBound e.sample.shape.length w.shape.length := by
  have hnodup := h.sound.nodup_entries
  rw [h.shaped.scanSimilar?_eq, h.shaped.findSimilar?_eq]
  refine ⟨fun _ => plainSearch_eq_iff, rfl, boundedSearch_eq_iff hnodup, ?_, ?_, ?_⟩
  · intro before e after _ hle hskipped
    exact ruledOut_of_le hle hskipped
  · intro hle
    refine (boundedSearch_eq_iff hnodup).mpr ?_
    intro before e after score heq hplain
    rw [heq] at hnodup hplain
    have hscore := (plainSearch_eq_iff.mp hplain).not_ruledOut hnodup
      fun best e => ruledOut threshold best (e.bound w)
    rw [← Bool.not_eq_true] at hscore ⊢
    have hmem : e ∈ r.entries := by simp [heq]
    exact mt (ruledOut_of_le (hle e hmem)) hscore
  · intro e _
    exact Sequence.exactSimilarity_le _ _

/-- A pattern of five tokens and a widget of fifteen. The score and the threshold are the float
above the one that the bound is rounded to, so the only pattern is not scored. -/
theorem findSimilar?_misses :
    let r := empty.perform (.register ⟨"A", [], []⟩)
    let w : Widget := ⟨"A", [], [⟨"B", [], []⟩, ⟨"C", [], []⟩]⟩
    let e := Entry.ofWidget "w1" ⟨"A", [], []⟩ .default
    let threshold := 0.33333333333333337
    r.Reachable ∧ r.entries = [e] ∧ r.scanSimilar? w threshold = some (e, e.score w) ∧
      r.findSimilar? w threshold = none ∧ ¬ e.score w ≤ e.bound w := by
  intro r w e threshold
  have hr : r.Reachable := .next _ .empty
  have hentries : r.entries = [e] := entries_perform_empty _
  have hreached : threshold ≤ e.score w := by decide +kernel
  have hskipped : ruledOut threshold none (e.bound w) = true := by decide +kernel
  obtain ⟨hscan, hbounded, hagree, _, hle, _⟩ := findSimilar?_agrees_iff hr w threshold
  have hfound : r.scanSimilar? w threshold = some (e, e.score w) := by
    refine (hscan _).mpr ⟨rfl, hreached, [], [], hentries, ?_, ?_⟩
    · intro f hf
      cases hf
    · intro f hf
      cases hf
  have hdiffer : r.findSimilar? w threshold ≠ r.scanSimilar? w threshold := by
    intro heq
    cases hskipped.symm.trans (hagree.mp heq [] e [] _ hentries hfound)
  refine ⟨hr, hentries, hfound, ?_, ?_⟩
  · rw [hbounded, hentries]
    exact if_pos hskipped
  · intro h
    refine hdiffer (hle fun f hf => ?_)
    rw [hentries] at hf
    rw [List.mem_singleton.mp hf]
    exact h

end Registry

end WidgetShorthand
