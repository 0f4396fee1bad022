import Mathlib.Data.List.Perm.Subperm
import WidgetShorthand.Proofs.RegistryGrowth

/-!
# Minted ids

The number that a registry tries first is above the numbers of all its ids, chosen and minted alike,
as long as words of 64 bits have one: adding an id moves it up, and stops at the last word. So the
first try succeeds unless the id with the last number is taken. That one id can be chosen by hand,
and then there is no id to mint: the next number would not fit a word.

An id may also spell a number with zeros in front. Such an id is none that minting could give, but
adding it moves the number up like any other.
-/

namespace WidgetShorthand

namespace Registry

/-- The last number that an id can be minted with. -/
def lastNumber : Nat :=
  UInt64.size - 1

/-- The numbers that a search for a free id comes to on a counter without an end. -/
inductive Tries (r : Registry) : Nat → Prop
  | first : r.Tries r.nextNumber
  | next {n : Nat} (h : r.Tries n) (hn : r.contains (mintedId n) = true) : r.Tries (n + 1)

/-- The next number is a word, and above the number of each id as far as words go. -/
structure Counted (r : Registry) : Prop where
  word : r.nextNumber ≤ lastNumber
  above : ∀ id ∈ r.ids, ∀ m, mintedNumber? id = some m → min (m + 1) lastNumber ≤ r.nextNumber

variable {r : Registry} {n m : Nat}

/-! ## The number of an id -/

theorem mintedNumber?_mintedId (h : n < UInt64.size) : mintedNumber? (mintedId n) = some n := by
  have hdigits : (Nat.toDigits 10 n).all Char.isDigit = true := by
    rw [List.all_eq_true]
    exact fun _ => Nat.isDigit_of_mem_toDigits (by decide) (by decide)
  have hvalue : Text.decimalValue (Nat.toDigits 10 n) = n := Nat.ofDigitChars_ten_toDigits
  simp [mintedNumber?, toList_mintedId, hdigits, hvalue, h, Nat.toDigits_ne_nil]

theorem le_lastNumber_iff : n ≤ lastNumber ↔ n < UInt64.size :=
  Nat.le_sub_one_iff_lt (by decide)

theorem le_lastNumber_of_mintedNumber? {id : String} (h : mintedNumber? id = some n) :
    n ≤ lastNumber := by
  rw [le_lastNumber_iff]
  unfold mintedNumber? at h
  split at h
  · split at h
    · dsimp only at h
      split at h
      · next hlt => cases h; exact hlt
      · cases h
    · cases h
  · cases h

/-! ## Counting -/

theorem Counted.push (h : r.Counted) (entry : Entry) : (r.push entry).Counted := by
  have hids : (r.push entry).ids = r.ids ++ [entry.id] := by simp [ids, entries_push]
  constructor
  · have hword := h.word
    unfold Registry.push
    dsimp only
    split
    · exact Nat.max_le.mpr ⟨hword, Nat.min_le_right _ _⟩
    · exact hword
  · intro id hid m hm
    rw [hids] at hid
    unfold Registry.push
    dsimp only
    rcases List.mem_append.mp hid with hid | hid
    · have hold := h.above id hid m hm
      split
      · exact Nat.le_trans hold (Nat.le_max_left _ _)
      · exact hold
    · cases List.mem_singleton.mp hid
      rw [hm]
      exact Nat.le_max_right _ _

theorem Reachable.counted (h : Reachable r) : r.Counted :=
  h.of_push ⟨by decide, nofun⟩ fun _ entry hr => hr.push entry

/-- Ids of the minted form have their own numbers. -/
theorem Counted.above_minted (h : r.Counted) (hm : m < UInt64.size)
    (hmem : r.contains (mintedId m) = true) : min (m + 1) lastNumber ≤ r.nextNumber :=
  h.above _ (contains_iff.mp hmem) m (mintedNumber?_mintedId hm)

/-- Only the last number can be taken when it comes next. -/
theorem Counted.contains_next (h : r.Counted) (hn : r.contains (mintedId r.nextNumber) = true) :
    r.nextNumber = lastNumber := by
  have hword := h.word
  have habove := h.above_minted (le_lastNumber_iff.mp hword) hn
  omega

theorem Counted.next_of_contains_last (h : r.Counted)
    (hlast : r.contains (mintedId lastNumber) = true) : r.nextNumber = lastNumber := by
  have hword := h.word
  have habove := h.above_minted (le_lastNumber_iff.mp (Nat.le_refl _)) hlast
  omega

theorem Counted.next_free (h : r.Counted) (hlast : r.contains (mintedId lastNumber) = false) :
    r.contains (mintedId r.nextNumber) = false := by
  rw [← Bool.not_eq_true]
  intro hn
  rw [← h.contains_next hn, hn] at hlast
  cases hlast

/-! ## Searching -/

/-- Not all of one more numbers than there are patterns are taken. -/
theorem exists_free (r : Registry) (n : Nat) :
    ∃ m, n ≤ m ∧ m < n + (r.size + 1) ∧ r.contains (mintedId m) = false := by
  by_contra hnone
  have hsubset : (List.range' n (r.size + 1)).map mintedId ⊆ r.ids := by
    intro id hid
    obtain ⟨m, hm, rfl⟩ := List.mem_map.mp hid
    obtain ⟨hle, hlt⟩ := List.mem_range'_1.mp hm
    rw [← contains_iff, ← Bool.not_eq_false]
    exact fun hfree => hnone ⟨m, hle, hlt, hfree⟩
  have hnodup : ((List.range' n (r.size + 1)).map mintedId).Nodup :=
    List.Nodup.map mintedId_injective List.nodup_range'
  -- There would be one more different id than there are patterns.
  have hlen := (List.subperm_of_subset hnodup hsubset).length_le
  rw [List.length_map, List.length_range', ids, List.length_map, entries, List.length_map] at hlen
  exact absurd hlen (Nat.not_succ_le_self _)

theorem contains_of_mintFrom_eq_none {tries : Nat} (h : r.mintFrom tries n = none) :
    ∀ m, n ≤ m → m < n + tries → m < UInt64.size → r.contains (mintedId m) = true := by
  induction tries generalizing n with
  | zero =>
      intro m hle hlt
      omega
  | succ tries ih =>
      intro m hle hlt hword
      rw [mintFrom] at h
      split at h
      · cases h
      · next htaken =>
          rcases Nat.eq_or_lt_of_le hle with rfl | hlater
          · simpa using htaken
          · rw [if_pos (Nat.lt_of_le_of_lt hlater hword)] at h
            exact ih h m hlater (by omega) hword

/-- Minting fails exactly when all words from the next number on are taken; the tries are enough. -/
theorem mint?_eq_none_iff (hn : r.nextNumber < UInt64.size) : r.mint? = none ↔
    ∀ m, r.nextNumber ≤ m → m < UInt64.size → r.contains (mintedId m) = true := by
  constructor
  · intro h m hle hword
    obtain ⟨free, hfirst, hlast, hfree⟩ := r.exists_free r.nextNumber
    have htaken := contains_of_mintFrom_eq_none h
    rcases Nat.lt_or_ge free UInt64.size with hlt | hge
    · rw [htaken free hfirst hlast hlt] at hfree
      cases hfree
    · exact htaken m hle (by omega) hword
  · intro htaken
    cases h : r.mint? with
    | none => rfl
    | some id =>
        obtain ⟨m, hle, hword, rfl, hfree⟩ := mintFrom_eq_some h
        rw [htaken m hle (hword hn)] at hfree
        cases hfree

theorem mint?_of_free (h : r.contains (mintedId r.nextNumber) = false) :
    r.mint? = some (mintedId r.nextNumber) := by
  rw [mint?, mintFrom, h, if_pos (by decide)]

/-- Only an id with the last number keeps from minting. -/
theorem Counted.mint?_eq_none_iff_last (h : r.Counted) :
    r.mint? = none ↔ r.contains (mintedId lastNumber) = true := by
  rw [mint?_eq_none_iff (le_lastNumber_iff.mp h.word)]
  constructor
  · intro htaken
    exact htaken lastNumber h.word (le_lastNumber_iff.mp (Nat.le_refl _))
  · intro hlast m hle hword
    have hnext := h.next_of_contains_last hlast
    have hm : m = lastNumber := Nat.le_antisymm (le_lastNumber_iff.mpr hword) (hnext ▸ hle)
    rw [hm]
    exact hlast

theorem Counted.isSome_mint?_iff (h : r.Counted) :
    r.mint?.isSome = true ↔ r.contains (mintedId lastNumber) = false := by
  rw [Option.isSome_iff_ne_none, ne_eq, h.mint?_eq_none_iff_last, Bool.not_eq_true]

theorem Tries.eq_next (h : r.Tries n) (hfree : r.contains (mintedId r.nextNumber) = false) :
    n = r.nextNumber := by
  induction h with
  | first => rfl
  | next _ htaken ih => rw [ih, hfree] at htaken; cases htaken

/-- The counter stays within words exactly when the id with the last number is free. -/
theorem Counted.tries_iff (h : r.Counted) :
    (∀ n, r.Tries n → n < UInt64.size) ↔ r.contains (mintedId lastNumber) = false := by
  constructor
  · intro hwords
    rw [← Bool.not_eq_true]
    intro hlast
    have hnext := h.next_of_contains_last hlast
    have htries : r.Tries (r.nextNumber + 1) := .next .first (by rw [hnext]; exact hlast)
    have hword := hwords _ htries
    rw [hnext] at hword
    exact absurd hword (by decide)
  · intro hlast n hn
    rw [hn.eq_next (h.next_free hlast), ← le_lastNumber_iff]
    exact h.word

/-- The minted id has a number that is above those of all ids of its form. -/
def Increases (r : Registry) : Prop :=
  ∃ n < UInt64.size, r.mint? = some (mintedId n) ∧
    ∀ m < UInt64.size, r.contains (mintedId m) = true → m < n

/-- The minted id has a number that is above those of all ids, also when they have zeros in
front. -/
def Exceeds (r : Registry) : Prop :=
  ∃ n < UInt64.size, r.mint? = some (mintedId n) ∧
    ∀ id ∈ r.ids, ∀ m, mintedNumber? id = some m → m < n

theorem Counted.increases_iff (h : r.Counted) :
    r.Increases ↔ r.contains (mintedId lastNumber) = false := by
  constructor
  · rintro ⟨n, hn, _, habove⟩
    rw [← Bool.not_eq_true]
    intro hlast
    have hlt := habove lastNumber (le_lastNumber_iff.mp (Nat.le_refl _)) hlast
    rw [← le_lastNumber_iff] at hn
    exact absurd hlt (Nat.not_lt.mpr hn)
  · intro hlast
    refine ⟨r.nextNumber, le_lastNumber_iff.mp h.word, mint?_of_free (h.next_free hlast), ?_⟩
    intro m hm hmem
    have habove := h.above_minted hm hmem
    have hne : m ≠ lastNumber := by
      rintro rfl
      rw [hlast] at hmem
      cases hmem
    rw [← le_lastNumber_iff] at hm
    omega

theorem Counted.exceeds_iff (h : r.Counted) :
    r.Exceeds ↔ ∀ id ∈ r.ids, mintedNumber? id ≠ some lastNumber := by
  constructor
  · rintro ⟨n, hn, _, habove⟩ id hid hlast
    have hlt := habove id hid lastNumber hlast
    rw [← le_lastNumber_iff] at hn
    exact absurd hlt (Nat.not_lt.mpr hn)
  · intro hne
    have hlast : r.contains (mintedId lastNumber) = false := by
      rw [← Bool.not_eq_true, contains_iff]
      intro hmem
      exact hne _ hmem (mintedNumber?_mintedId (le_lastNumber_iff.mp (Nat.le_refl _)))
    refine ⟨r.nextNumber, le_lastNumber_iff.mp h.word, mint?_of_free (h.next_free hlast), ?_⟩
    intro id hid m hm
    have habove := h.above id hid m hm
    have hle := le_lastNumber_of_mintedNumber? hm
    have hother : m ≠ lastNumber := by
      rintro rfl
      exact hne id hid hm
    omega

/-- A minted id is free. There is one, found without counting past the last word, and it is above
all ids that were minted or might have been, exactly when the id with the last number is not
registered. -/
theorem mint_increases_iff (h : r.Reachable) :
    (∀ id, r.mint? = some id → r.contains id = false) ∧
    (r.mint?.isSome = true ↔ r.contains (mintedId lastNumber) = false) ∧
    ((∀ n, r.Tries n → n < UInt64.size) ↔ r.contains (mintedId lastNumber) = false) ∧
    (r.Increases ↔ r.contains (mintedId lastNumber) = false) ∧
    (r.Exceeds ↔ ∀ id ∈ r.ids, mintedNumber? id ≠ some lastNumber) :=
  have hcounted := h.counted
  ⟨fun _ => contains_of_mint?, hcounted.isSome_mint?_iff, hcounted.tries_iff,
    hcounted.increases_iff, hcounted.exceeds_iff⟩

/-- The id with the last number was chosen by hand. The next number would not fit a word, and a
widget of a new shape is not registered. -/
theorem mint_behind_last :
    let r := empty.perform (.registerAs "w18446744073709551615" (Stock.icon "Icons.add") .default)
    Reachable r ∧ r.mint? = none ∧ r.register (Stock.leaf "Divider" []) = none ∧ ¬ r.Increases ∧
      ¬ ∀ n, r.Tries n → n < UInt64.size := by
  intro r
  have hr : Reachable r := .next _ .empty
  have hids : r.ids = [mintedId lastNumber] := by decide +kernel
  have hlast : r.contains (mintedId lastNumber) = true :=
    contains_iff.mpr (hids ▸ List.mem_singleton_self _)
  have hregister : r.register (Stock.leaf "Divider" []) = none := by decide +kernel
  obtain ⟨_, hsome, hwords, hincreases, _⟩ := mint_increases_iff hr
  rw [hlast] at hsome hwords hincreases
  exact ⟨hr, by simpa using hsome, hregister, mt hincreases.mp (by decide),
    mt hwords.mp (by decide)⟩

end Registry

end WidgetShorthand
