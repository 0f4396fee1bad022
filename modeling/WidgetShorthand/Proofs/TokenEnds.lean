import Mathlib.Data.List.DropRight
import WidgetShorthand.Text.Blank
import WidgetShorthand.Text.Name
import WidgetShorthand.Text.Numeral

/-!
# Where tokens end

Names, paths and numerals have no closing mark: each is read as far as its characters go. So such a
token is read back exactly when what stands behind it could not continue it. The statements below
put an arbitrary rest behind a token and ask of the rest only what its first character is.

Nothing here needs to know what a document looks like. `Follows` is how the later files say what
stands behind a token, and `Starts` how they say what a written part begins with; a part that starts
with no layout character is safe from the reader's habit of passing layout first.
-/

namespace WidgetShorthand.Text

/-- The text is at its end, or goes on with a character of the class. -/
def Follows (ok : Char → Bool) : List Char → Prop
  | [] => True
  | c :: _ => ok c = true

/-- The text goes on with a character of the class. -/
def Starts (ok : Char → Bool) : List Char → Prop
  | [] => False
  | c :: _ => ok c = true

@[simp] theorem follows_nil (ok : Char → Bool) : Follows ok [] := trivial

@[simp] theorem follows_cons (ok : Char → Bool) (c : Char) (r : List Char) :
    Follows ok (c :: r) ↔ ok c = true := Iff.rfl

@[simp] theorem starts_cons (ok : Char → Bool) (c : Char) (r : List Char) :
    Starts ok (c :: r) ↔ ok c = true := Iff.rfl

theorem Follows.mono {p q : Char → Bool} {rest : List Char} (h : Follows p rest)
    (hpq : ∀ c, p c = true → q c = true) : Follows q rest := by
  cases rest with
  | nil => trivial
  | cons c r => exact hpq c h

theorem Starts.mono {p q : Char → Bool} {text : List Char} (h : Starts p text)
    (hpq : ∀ c, p c = true → q c = true) : Starts q text := by
  cases text with
  | nil => exact h.elim
  | cons c r => exact hpq c h

theorem Starts.exists_cons {ok : Char → Bool} {text : List Char} (h : Starts ok text) :
    ∃ c r, text = c :: r ∧ ok c = true := by
  cases text with
  | nil => exact h.elim
  | cons c r => exact ⟨c, r, rfl, h⟩

theorem Starts.append {ok : Char → Bool} {text : List Char} (h : Starts ok text)
    (rest : List Char) : Starts ok (text ++ rest) := by
  obtain ⟨c, r, rfl, hc⟩ := h.exists_cons
  exact hc

theorem ne_head_of_follows {ok : Char → Bool} {c : Char} {rest : List Char}
    (hr : Follows ok rest) (hc : ok c = false) : rest.head? ≠ some c := by
  cases rest with
  | nil => simp
  | cons d r =>
      rw [List.head?_cons, ne_eq, Option.some.injEq]
      rintro rfl
      rw [follows_cons, hc] at hr
      cases hr

/-! ## Layout -/

/-- A character that is no layout. -/
def isSolid (c : Char) : Bool :=
  !isBlank c

theorem dropBlanks_of_follows {rest : List Char} (h : Follows isSolid rest) :
    dropBlanks rest = rest := by
  cases rest with
  | nil => rfl
  | cons c r =>
      have hc : isBlank c = false := by simpa [isSolid] using h
      simp [dropBlanks, hc]

theorem dropBlanks_cons {c : Char} (h : isSolid c = true) (r : List Char) :
    dropBlanks (c :: r) = c :: r :=
  dropBlanks_of_follows h

theorem Starts.follows {ok : Char → Bool} {text : List Char} (h : Starts ok text)
    (rest : List Char) : Follows ok (text ++ rest) := by
  obtain ⟨c, r, rfl, hc⟩ := h.exists_cons
  exact hc

theorem dropBlanks_append_of_starts {text : List Char} (h : Starts isSolid text)
    (rest : List Char) : dropBlanks (text ++ rest) = text ++ rest :=
  dropBlanks_of_follows (h.follows rest)

theorem dropBlanks_append_of_all {layout : List Char} (h : ∀ c ∈ layout, isBlank c = true)
    (rest : List Char) : dropBlanks (layout ++ rest) = dropBlanks rest :=
  List.dropWhile_append_of_pos h

/-- Behind the layout there is no layout. -/
theorem dropBlanks_of_eq {before text : List Char} (h : dropBlanks before = text) :
    dropBlanks text = text := by
  rw [← h]
  exact List.dropWhile_idempotent isBlank before

theorem length_dropBlanks_le (cs : List Char) : (dropBlanks cs).length ≤ cs.length :=
  (List.dropWhile_sublist _).length_le

theorem isSolid_of_isNameChar {c : Char} (h : isNameChar c = true) : isSolid c = true := by
  rw [isSolid, Bool.not_eq_true', ← Bool.not_eq_true]
  intro hb
  simp only [isBlank, Bool.or_eq_true, beq_iff_eq] at hb
  rcases hb with (((rfl | rfl) | rfl) | rfl) | rfl <;> exact absurd h (by decide)

/-! ## Runs

What is read as far as a class of characters goes. -/

theorem takeWhile_append {p : Char → Bool} {rest : List Char}
    (hr : Follows (fun c => !p c) rest) (cs : List Char) :
    (cs ++ rest).takeWhile p = cs.takeWhile p := by
  induction cs with
  | nil =>
      cases rest with
      | nil => rfl
      | cons c r =>
          have hc : p c = false := by simpa using hr
          simp [hc]
  | cons c r ih => simp only [List.cons_append, List.takeWhile_cons, ih]

theorem dropWhile_append {p : Char → Bool} {rest : List Char}
    (hr : Follows (fun c => !p c) rest) (cs : List Char) :
    (cs ++ rest).dropWhile p = cs.dropWhile p ++ rest := by
  have hall := List.takeWhile_append_dropWhile (p := p) (l := cs ++ rest)
  have hrun := List.takeWhile_append_dropWhile (p := p) (l := cs)
  rw [takeWhile_append hr] at hall
  rw [← List.append_cancel_left_eq (cs.takeWhile p), hall, ← List.append_assoc, hrun]

theorem takeWhile_append_of_follows {p : Char → Bool} {run rest : List Char}
    (hp : ∀ c ∈ run, p c = true) (hr : Follows (fun c => !p c) rest) :
    (run ++ rest).takeWhile p = run := by
  rw [takeWhile_append hr, List.takeWhile_eq_self_iff.mpr hp]

theorem dropWhile_append_of_follows {p : Char → Bool} {run rest : List Char}
    (hp : ∀ c ∈ run, p c = true) (hr : Follows (fun c => !p c) rest) :
    (run ++ rest).dropWhile p = rest := by
  rw [dropWhile_append hr, List.dropWhile_eq_nil_iff.mpr hp, List.nil_append]

theorem dropBlanks_append {rest : List Char} (hr : Follows isSolid rest) (cs : List Char) :
    dropBlanks (cs ++ rest) = dropBlanks cs ++ rest :=
  dropWhile_append hr cs

/-! ## Identifiers -/

/-- A character that ends an identifier. -/
def endsName (c : Char) : Bool :=
  !isNameChar c

theorem isNameChar_of_isIdentifier {s : String} (h : isIdentifier s = true) :
    ∀ c ∈ s.toList, isNameChar c = true := by
  simp only [isIdentifier, Bool.and_eq_true, List.all_eq_true] at h
  obtain ⟨hs, ht⟩ := h
  cases hl : s.toList with
  | nil => simp
  | cons c r =>
      rw [hl] at hs ht
      intro x hx
      rcases List.mem_cons.mp hx with rfl | hr
      · exact isNameChar_of_isNameStart hs
      · exact ht x hr

theorem starts_of_isIdentifier {s : String} (h : isIdentifier s = true) :
    Starts isNameStart s.toList := by
  simp only [isIdentifier, Bool.and_eq_true] at h
  cases hl : s.toList with
  | nil => rw [hl] at h; exact absurd h.1 (by simp [startsName])
  | cons c r => rw [hl] at h; exact h.1

theorem startsName_eq_any (cs : List Char) : startsName cs = cs.head?.any isNameStart := by
  cases cs <;> rfl

theorem startsName_of_starts {text : List Char} (h : Starts isNameStart text) :
    startsName text = true := by
  obtain ⟨c, r, rfl, hc⟩ := h.exists_cons
  exact hc

theorem starts_isSolid_of_isNameStart {text : List Char} (h : Starts isNameStart text) :
    Starts isSolid text :=
  h.mono fun _ hc => isSolid_of_isNameChar (isNameChar_of_isNameStart hc)

/-! ## Paths

A dot belongs to a path only where an identifier follows, so a path also ends before a dot; the
documents never put one there, and asking for no dot keeps the condition to one character. -/

/-- A character that ends a path. -/
def endsPath (c : Char) : Bool :=
  !isNameChar c && c != '.'

theorem startsName_of_isPathFrom {cs : List Char} (h : isPathFrom true cs = true)
    (rest : List Char) : startsName (cs ++ rest) = true := by
  cases cs with
  | nil => simp [isPathFrom] at h
  | cons c r =>
      simp only [isPathFrom, if_true, Bool.and_eq_true] at h
      exact h.1

theorem isPathFrom_of_all {cs : List Char} (h : ∀ c ∈ cs, isNameChar c = true) :
    isPathFrom false cs = true := by
  induction cs with
  | nil => rfl
  | cons c r ih =>
      have hc := h c List.mem_cons_self
      have hdot : ¬ (c == '.') = true := by
        intro hd
        rw [beq_iff_eq] at hd
        subst hd
        exact absurd hc (by decide)
      rw [isPathFrom, if_neg Bool.false_ne_true, if_neg hdot, hc,
        ih fun d hd => h d (List.mem_cons_of_mem c hd)]
      rfl

theorem isPath_of_isIdentifier {s : String} (h : isIdentifier s = true) : isPath s = true := by
  have hchars := isNameChar_of_isIdentifier h
  obtain ⟨c, r, hs, hc⟩ := (starts_of_isIdentifier h).exists_cons
  rw [hs] at hchars
  rw [isPath, hs, isPathFrom, if_pos rfl, hc,
    isPathFrom_of_all fun d hd => hchars d (List.mem_cons_of_mem c hd)]
  rfl

/-- Behind a character that is part of no name nothing begins that would belong to the path. -/
theorem startsName_append {rest : List Char} (hr : Follows endsPath rest) (cs : List Char) :
    startsName (cs ++ rest) = startsName cs := by
  cases cs with
  | cons c r => rfl
  | nil =>
      cases rest with
      | nil => rfl
      | cons c r =>
          rw [follows_cons, endsPath, Bool.and_eq_true, Bool.not_eq_true'] at hr
          have hc : isNameStart c = false := by
            rw [← Bool.not_eq_true]
            intro hstart
            rw [isNameChar_of_isNameStart hstart] at hr
            exact absurd hr.1 nofun
          simp [startsName, hc]

theorem spanPath_append {rest : List Char} (hr : Follows endsPath rest) (cs : List Char) :
    spanPath (cs ++ rest) = ((spanPath cs).1, (spanPath cs).2 ++ rest) := by
  induction cs with
  | nil =>
      cases rest with
      | nil => rfl
      | cons c r =>
          simp only [follows_cons, endsPath, Bool.and_eq_true, Bool.not_eq_true', bne_iff_ne] at hr
          simp [spanPath, hr.1, hr.2]
  | cons c r ih =>
      simp only [List.cons_append, spanPath, startsName_append hr, ih]
      split <;> rfl

theorem spanPath_of_isPathFrom {cs : List Char} :
    ∀ {atStart : Bool}, isPathFrom atStart cs = true → spanPath cs = (cs, []) := by
  induction cs with
  | nil => exact fun _ => rfl
  | cons c r ih =>
      intro atStart h
      cases atStart with
      | true =>
          simp only [isPathFrom, if_true, Bool.and_eq_true] at h
          simp [spanPath, isNameChar_of_isNameStart h.1, ih h.2]
      | false =>
          simp only [isPathFrom, Bool.false_eq_true, if_false] at h
          split at h
          · next hdot =>
              have hname := startsName_of_isPathFrom h []
              rw [List.append_nil] at hname
              simp [spanPath, hdot, hname, ih h]
          · next hdot =>
              simp only [Bool.and_eq_true] at h
              simp [spanPath, h.1, ih h.2]

/-! ## Numerals -/

namespace Numeral

/-- A character that ends a numeral, whatever the numeral is. -/
def ends (c : Char) : Bool :=
  !c.isAlphanum && c != '_' && c != '.' && !isSign c

theorem continues_of_ends {c : Char} (h : ends c = true) (hex : Bool) (last : Char) :
    continues hex last c = false := by
  simp only [ends, Bool.and_eq_true, Bool.not_eq_true', bne_iff_ne] at h
  obtain ⟨⟨⟨ha, hu⟩, hd⟩, hs⟩ := h
  simp [continues, ha, hu, hd, hs]

theorem spanFrom_concat (hex : Bool) (last : Char) (cs : List Char) :
    (spanFrom hex last cs).1 ++ (spanFrom hex last cs).2 = cs := by
  induction cs generalizing last with
  | nil => rfl
  | cons c r ih =>
      simp only [spanFrom]
      split
      · simp [ih c]
      · rfl

theorem spanFrom_append {rest : List Char} (hr : Follows ends rest) (hex : Bool) (last : Char)
    (cs : List Char) : spanFrom hex last (cs ++ rest) =
      ((spanFrom hex last cs).1, (spanFrom hex last cs).2 ++ rest) := by
  induction cs generalizing last with
  | nil =>
      cases rest with
      | nil => rfl
      | cons c r => simp [spanFrom, continues_of_ends hr]
  | cons c r ih =>
      simp only [List.cons_append, spanFrom, ih]
      split <;> rfl

/-- Whether a numeral is hexadecimal is decided by its own characters. -/
theorem isHex_append {first : Char} {cs rest : List Char} (hr : Follows ends rest) :
    isHex first (cs ++ rest) = isHex first cs := by
  cases cs with
  | cons c r => rfl
  | nil =>
      cases rest with
      | nil => rfl
      | cons c r =>
          have hx : (c == 'x' || c == 'X') = false := by
            rw [← Bool.not_eq_true]
            intro h
            rw [follows_cons] at hr
            simp only [Bool.or_eq_true, beq_iff_eq] at h
            rcases h with rfl | rfl <;> exact absurd hr (by decide)
          simp [isHex, hx]

theorem splitUnsigned_append {cs rest run left : List Char} (hr : Follows ends rest)
    (h : splitUnsigned cs = some (run, left)) :
    splitUnsigned (cs ++ rest) = some (run, left ++ rest) := by
  cases cs with
  | nil => cases h
  | cons c r =>
      simp only [splitUnsigned] at h
      split at h
      · next hd =>
          cases h
          simp [splitUnsigned, hd, isHex_append hr, spanFrom_append hr]
      · cases h

theorem split_of_ne_minus {cs : List Char} (h : cs.head? ≠ some '-') :
    split cs = splitUnsigned cs := by
  cases cs with
  | nil => rfl
  | cons c r =>
      have hc : c ≠ '-' := by simpa using h
      simp [split, hc]

/-- What is split off a text is split off in front of whatever ends a numeral. -/
theorem split_append {cs rest run left : List Char} (hr : Follows ends rest)
    (h : split cs = some (run, left)) : split (cs ++ rest) = some (run, left ++ rest) := by
  cases cs with
  | nil => cases h
  | cons c r =>
      by_cases hc : c = '-'
      · subst hc
        simp only [split, Option.map_eq_some_iff, Prod.exists, Prod.mk.injEq] at h
        obtain ⟨digits, _, hdigits, rfl, rfl⟩ := h
        simp [split, splitUnsigned_append hr hdigits]
      · rw [split_of_ne_minus (by simpa using hc)] at h
        rw [split_of_ne_minus (by simpa using hc)]
        exact splitUnsigned_append hr h

theorem splitUnsigned_concat {cs run left : List Char} (h : splitUnsigned cs = some (run, left)) :
    run ++ left = cs := by
  cases cs with
  | nil => cases h
  | cons c r =>
      simp only [splitUnsigned] at h
      split at h
      · cases h
        rw [List.cons_append, spanFrom_concat]
      · cases h

theorem split_concat {cs run left : List Char} (h : split cs = some (run, left)) :
    run ++ left = cs := by
  unfold split at h
  split at h
  · simp only [Option.map_eq_some_iff, Prod.exists, Prod.mk.injEq] at h
    obtain ⟨digits, _, hdigits, rfl, rfl⟩ := h
    rw [List.cons_append, splitUnsigned_concat hdigits]
  · exact splitUnsigned_concat h

theorem split_of_isNumeral {raw : List Char} (h : isNumeral raw = true) :
    split raw = some (raw, []) := by
  unfold isNumeral at h
  split at h
  · next run hs =>
      have hall := split_concat hs
      rw [List.append_nil] at hall
      rw [hs, hall]
  · cases h

/-- A numeral begins with a digit or a minus sign. -/
theorem starts_of_isNumeral {raw : List Char} (h : isNumeral raw = true) :
    Starts (fun c => c == '-' || c.isDigit) raw := by
  cases raw with
  | nil => simp [isNumeral, split, splitUnsigned] at h
  | cons c r =>
      by_cases hm : c = '-'
      · simp [hm]
      · by_cases hd : c.isDigit = true
        · simp [hd]
        · simp [isNumeral, split, splitUnsigned, hm, hd] at h

end Numeral

end WidgetShorthand.Text
