import WidgetShorthand.Proofs.TokenExtents

/-!
# Numerals by their bytes

A scan that goes from byte to byte, looking at one byte and the one before it, ends where the run of
characters ends that make up the numeral. A character of one byte is classified as its byte is, and
the first byte of a longer one is none of those that a numeral is made of. So the scan stops in
front of it, and never gets inside of a character.
-/

namespace WidgetShorthand.Text

variable {before cs rest : List Char} {c last : Char} {p : Char → Bool} {n : Nat}

/-! ## Bytes of characters -/

/-- The predicate holds of characters of one byte only. -/
def IsNarrow (p : Char → Bool) : Prop :=
  ∀ c, p c = true → c.utf8Size = 1

theorem utf8Size_eq_one_iff : c.utf8Size = 1 ↔ c.toNat < 128 := by
  rw [Char.utf8Size_eq_one_iff, UInt32.le_iff_toNat_le]
  exact Nat.lt_succ_iff.symm

theorem toNat_ofUInt8 (b : UInt8) : (Char.ofUInt8 b).toNat = b.toNat :=
  rfl

/-- The first byte of a character is the character itself or none of ASCII. -/
theorem exists_first_byte (c : Char) : ∃ b bytes, String.utf8EncodeChar c = b :: bytes ∧
    (Char.ofUInt8 b = c ∨ 128 ≤ b.toNat ∧ c.utf8Size ≠ 1) := by
  by_cases hc : c.utf8Size = 1
  · refine ⟨_, [], String.utf8EncodeChar_eq_singleton hc, .inl (Char.toNat_inj.mp ?_)⟩
    have hlt : c.val.toNat < 256 := Nat.lt_trans (utf8Size_eq_one_iff.mp hc) (by decide)
    rw [toNat_ofUInt8, UInt32.toNat_toUInt8, Nat.mod_eq_of_lt hlt]
    rfl
  · have hlarge : ¬ c.val.toNat ≤ 0x7f := by
      rw [utf8Size_eq_one_iff] at hc
      exact fun h => hc (Nat.lt_succ_of_le h)
    unfold String.utf8EncodeChar
    dsimp only
    rw [if_neg hlarge]
    split
    · exact ⟨_, _, rfl, .inr ⟨by rw [UInt8.toNat_ofNat']; omega, hc⟩⟩
    · split
      · exact ⟨_, _, rfl, .inr ⟨by rw [UInt8.toNat_ofNat']; omega, hc⟩⟩
      · exact ⟨_, _, rfl, .inr ⟨by rw [UInt8.toNat_ofNat']; omega, hc⟩⟩

theorem byteLength_concat (hc : c.utf8Size = 1) (before : List Char) :
    byteLength before + 1 = byteLength (before ++ [c]) := by
  rw [byteLength_append, byteLength_cons, hc, byteLength_nil]

theorem length_utf8 (cs : List Char) : (utf8 cs).length = byteLength cs := by
  induction cs with
  | nil => rfl
  | cons c cs ih =>
      rw [utf8, List.flatMap_cons, List.length_append, String.length_utf8EncodeChar, ← utf8, ih,
        byteLength_cons]

theorem utf8_append (a b : List Char) : utf8 (a ++ b) = utf8 a ++ utf8 b :=
  List.flatMap_append

theorem getElem?_utf8_end (before : List Char) : (utf8 before)[byteLength before]? = none := by
  rw [← length_utf8, List.getElem?_length]

/-- What stands behind some characters begins with the first byte of the next one. -/
theorem getElem?_utf8 (before : List Char) (c : Char) (cs : List Char) :
    (utf8 (before ++ c :: cs))[byteLength before]? = (String.utf8EncodeChar c).head? := by
  obtain ⟨b, bytes, hbytes, _⟩ := exists_first_byte c
  have hsplit : utf8 (before ++ c :: cs) = utf8 before ++ b :: (bytes ++ utf8 cs) := by
    rw [utf8_append, utf8, utf8, List.flatMap_cons, hbytes]
    rfl
  rw [hsplit, ← length_utf8, List.getElem?_append_right (Nat.le_refl _), Nat.sub_self, hbytes]
  rfl

/-- A test that only characters of one byte pass answers the same for the first byte. -/
theorem test_first_byte (hp : IsNarrow p) {b : UInt8} {bytes : List UInt8}
    (h : String.utf8EncodeChar c = b :: bytes) : p (Char.ofUInt8 b) = p c := by
  obtain ⟨b', bytes', hbytes, hclass⟩ := exists_first_byte c
  obtain rfl := (List.cons.inj (h.symm.trans hbytes)).1
  rcases hclass with hself | ⟨hlarge, hwide⟩
  · rw [hself]
  · have hc : p c = false := by
      rw [← Bool.not_eq_true]
      exact fun htrue => hwide (hp c htrue)
    have hb : p (Char.ofUInt8 b) = false := by
      rw [← Bool.not_eq_true]
      intro htrue
      have hsmall := utf8Size_eq_one_iff.mp (hp _ htrue)
      rw [toNat_ofUInt8] at hsmall
      omega
    rw [hc, hb]

/-- A character of one byte is found as that byte. -/
theorem getElem?_utf8_narrow (hc : c.utf8Size = 1) (before cs : List Char) :
    ∃ b, (utf8 (before ++ c :: cs))[byteLength before]? = some b ∧ Char.ofUInt8 b = c := by
  obtain ⟨b, bytes, hbytes, hself | ⟨_, hwide⟩⟩ := exists_first_byte c
  · refine ⟨b, ?_, hself⟩
    rw [getElem?_utf8, hbytes, List.head?_cons]
  · exact absurd hc hwide

/-- Inside of a character no byte is one of ASCII. -/
theorem le_of_inner_byte {i : Nat} {b : UInt8}
    (h : (String.utf8EncodeChar c)[i + 1]? = some b) : 128 ≤ b.toNat := by
  unfold String.utf8EncodeChar at h
  dsimp only at h
  split at h
  · cases h
  · have hinner (tail : List UInt8) (htail : ∀ b ∈ tail, 128 ≤ b.toNat) {first : UInt8}
        (h : (first :: tail)[i + 1]? = some b) : 128 ≤ b.toNat :=
      htail b (List.mem_of_getElem? h)
    split at h
    · refine hinner _ ?_ h
      simp [UInt8.toNat_ofNat']
      omega
    · split at h
      · refine hinner _ ?_ h
        simp [UInt8.toNat_ofNat']
        omega
      · refine hinner _ ?_ h
        simp [UInt8.toNat_ofNat']
        omega

theorem le_of_dropBytes_eq_none {b : UInt8} (h : dropBytes n cs = none)
    (hb : (utf8 cs)[n]? = some b) : 128 ≤ b.toNat := by
  fun_induction dropBytes n cs with
  | case1 => cases h
  | case2 => cases hb
  | case3 n c cs hle ih =>
      refine ih h ?_
      rw [utf8, List.flatMap_cons, List.getElem?_append_right, String.length_utf8EncodeChar] at hb
      · exact hb
      · rwa [String.length_utf8EncodeChar]
  | case4 n c cs hlt =>
      rw [utf8, List.flatMap_cons, List.getElem?_append_left] at hb
      · exact le_of_inner_byte hb
      · rw [String.length_utf8EncodeChar]
        exact Nat.lt_of_not_le hlt

theorem lt_of_isAlphanum (h : c.isAlphanum = true) : c.toNat < 128 := by
  unfold Char.isAlphanum Char.isAlpha Char.isUpper Char.isLower Char.isDigit at h
  have hvalue : c.val.toNat = c.toNat := rfl
  simp only [Char.reduceVal, UInt32.reduceToNat, UInt32.le_iff_toNat_le, ge_iff_le, hvalue,
    Bool.decide_and, Bool.or_eq_true, Bool.and_eq_true, decide_eq_true_eq] at h
  omega

theorem isNarrow_beq (hc : c.utf8Size = 1) : IsNarrow (· == c) := by
  intro d hd
  rw [beq_iff_eq.mp hd, hc]

theorem IsNarrow.or {q : Char → Bool} (hp : IsNarrow p) (hq : IsNarrow q) :
    IsNarrow fun c => p c || q c := by
  intro c hc
  exact (Bool.or_eq_true_iff.mp hc).elim (hp c) (hq c)

theorem isNarrow_isAlphanum : IsNarrow Char.isAlphanum :=
  fun _ h => utf8Size_eq_one_iff.mpr (lt_of_isAlphanum h)

theorem isNarrow_isDigit : IsNarrow Char.isDigit := by
  intro c h
  exact isNarrow_isAlphanum c (by rw [Char.isAlphanum, h, Bool.or_true])

namespace Numeral

/-! ## The loop -/

theorem isNarrow_continues (hex : Bool) (last : Char) : IsNarrow (continues hex last) := by
  intro c h
  rcases continues_iff.mp h with hletter | rfl | rfl | ⟨rfl | rfl, _⟩
  · exact isNarrow_isAlphanum c hletter
  all_goals rfl

/-- The loop goes over the run of characters that `last` is continued by. -/
theorem scanLoop_eq (hex : Bool) (hlast : last.utf8Size = 1) {fuel : Nat}
    (hfuel : cs.length ≤ fuel) :
    scanLoop (utf8 (before ++ last :: cs)) hex fuel (byteLength before + 1) =
      byteLength before + 1 + byteLength (spanFrom hex last cs).1 := by
  induction cs generalizing before last fuel with
  | nil =>
      cases fuel with
      | zero => rfl
      | succ fuel =>
          rw [scanLoop, byteLength_concat hlast, getElem?_utf8_end]
          rfl
  | cons c cs ih =>
      obtain ⟨fuel, rfl⟩ : ∃ n, fuel = n + 1 := Nat.exists_eq_add_one.mpr (by
        rw [List.length_cons] at hfuel
        omega)
      have htext : before ++ last :: c :: cs = (before ++ [last]) ++ c :: cs := by
        rw [List.append_assoc, List.singleton_append]
      have hsize := byteLength_concat hlast before
      obtain ⟨b, hb, hclass⟩ := getElem?_utf8_narrow hlast before (c :: cs)
      obtain ⟨first, bytes, hbytes, _⟩ := exists_first_byte c
      have hfirst : (utf8 (before ++ last :: c :: cs))[byteLength before + 1]? = some first := by
        rw [hsize, htext, getElem?_utf8, hbytes, List.head?_cons]
      rw [scanLoop, hfirst, Nat.add_sub_cancel, hb]
      dsimp only
      rw [hclass, test_first_byte (isNarrow_continues hex last) hbytes, spanFrom]
      by_cases hc : continues hex last c = true
      · have hwidth := isNarrow_continues hex last c hc
        rw [if_pos hc, if_pos hc, hsize, htext, ih hwidth (Nat.le_of_succ_le_succ hfuel),
          byteLength_cons, hwidth]
        omega
      · rw [if_neg hc, if_neg hc, byteLength_nil, Nat.add_zero]

/-! ## The scan -/

/-- Whether the second digit makes a numeral hexadecimal is seen from its first byte. -/
theorem isHex_byte {first : Char} {b : UInt8} {bytes : List UInt8}
    (h : String.utf8EncodeChar c = b :: bytes) :
    isHex first [Char.ofUInt8 b] = isHex first (c :: cs) := by
  have hmark : IsNarrow fun c => c == 'x' || c == 'X' := (isNarrow_beq rfl).or (isNarrow_beq rfl)
  have hclass := test_first_byte hmark h
  rw [isHex, isHex, hclass]

theorem length_le_length_utf8 (cs : List Char) : cs.length ≤ (utf8 cs).length := by
  induction cs with
  | nil => exact Nat.le_refl _
  | cons c cs ih =>
      have hc := c.utf8Size_pos
      rw [length_utf8, byteLength_cons, ← length_utf8, List.length_cons]
      omega

/-- The first byte of what stands behind some characters passes a test as the next character
does. -/
theorem any_getElem?_utf8 (hp : IsNarrow p) (before cs : List Char) :
    ((utf8 (before ++ cs))[byteLength before]?.map Char.ofUInt8).any p = cs.head?.any p := by
  cases cs with
  | nil =>
      rw [List.append_nil, getElem?_utf8_end]
      rfl
  | cons c cs =>
      obtain ⟨b, bytes, hbytes, _⟩ := exists_first_byte c
      rw [getElem?_utf8, hbytes]
      exact test_first_byte hp hbytes

theorem isHexAt_eq (hc : c.utf8Size = 1) (before cs : List Char) :
    isHexAt (utf8 (before ++ c :: cs)) (byteLength before) = isHex c cs := by
  obtain ⟨b, hb, hclass⟩ := getElem?_utf8_narrow hc before cs
  rw [isHexAt, hb, byteLength_concat hc]
  cases cs with
  | nil =>
      rw [getElem?_utf8_end]
      rfl
  | cons c' cs =>
      obtain ⟨b', bytes, hbytes, _⟩ := exists_first_byte c'
      rw [List.append_cons, getElem?_utf8, hbytes]
      dsimp only [List.head?_cons]
      rw [hclass, isHex_byte hbytes]

theorem scanUnsigned?_eq (before cs : List Char) :
    scanUnsigned? (utf8 (before ++ cs)) (byteLength before) =
      (splitUnsigned cs).map fun q => byteLength before + byteLength q.1 := by
  rw [scanUnsigned?, any_getElem?_utf8 isNarrow_isDigit]
  cases cs with
  | nil => rfl
  | cons c cs =>
      rw [List.head?_cons, Option.any_some, splitUnsigned]
      by_cases hc : c.isDigit = true
      · have hwidth := isNarrow_isDigit c hc
        have hfuel : cs.length ≤ (utf8 (before ++ c :: cs)).length := by
          refine Nat.le_trans ?_ (length_le_length_utf8 _)
          rw [List.length_append, List.length_cons]
          omega
        rw [if_pos hc, if_pos hc, isHexAt_eq hwidth, scanLoop_eq _ hwidth hfuel, Option.map_some,
          byteLength_cons, hwidth, Nat.add_assoc]
      · rw [if_neg hc, if_neg hc]
        rfl

/-- From a place between characters the scan goes over the numeral that stands there. -/
theorem scan?_eq (before cs : List Char) :
    scan? (utf8 (before ++ cs)) (byteLength before) =
      (split cs).map fun q => byteLength before + byteLength q.1 := by
  have hminus : IsNarrow (· == '-') := isNarrow_beq rfl
  rw [scan?, any_getElem?_utf8 hminus]
  by_cases h : cs.head? = some '-'
  · obtain ⟨cs, rfl⟩ := List.head?_eq_some_iff.mp h
    have hbehind : scanUnsigned? (utf8 (before ++ '-' :: cs)) (byteLength before + 1) =
        (splitUnsigned cs).map fun q => byteLength before + 1 + byteLength q.1 := by
      rw [List.append_cons, byteLength_concat (c := '-') rfl, scanUnsigned?_eq]
    have hfirst : ('-' :: cs).head?.any (· == '-') = true := rfl
    rw [if_pos hfirst, hbehind, split, Option.map_map]
    refine congrArg (Option.map · _) (funext fun q => ?_)
    exact Nat.add_assoc ..
  · have hnone : ¬ cs.head?.any (· == '-') = true := by
      rw [Option.any_eq_true]
      rintro ⟨c, hc, hminus⟩
      exact h (beq_iff_eq.mp hminus ▸ hc)
    rw [if_neg hnone, scanUnsigned?_eq, split_of_ne_minus h]

/-- Inside of a character and behind the end of a text there is no numeral. -/
theorem scan?_of_dropBytes (h : dropBytes n cs = none) : scan? (utf8 cs) n = none := by
  have hnone (p : Char → Bool) (hp : IsNarrow p) :
      ¬ ((utf8 cs)[n]?.map Char.ofUInt8).any p = true := by
    rw [Option.any_eq_true]
    rintro ⟨c, hc, htrue⟩
    obtain ⟨b, hb, rfl⟩ := Option.map_eq_some_iff.mp hc
    have hlarge := le_of_dropBytes_eq_none h hb
    have hsmall := utf8Size_eq_one_iff.mp (hp _ htrue)
    rw [toNat_ofUInt8] at hsmall
    omega
  have hminus : IsNarrow (· == '-') := isNarrow_beq rfl
  rw [scan?, if_neg (hnone _ hminus), scanUnsigned?, if_neg (hnone _ isNarrow_isDigit)]

/-- Scanning by bytes and by characters comes to the same end, wherever it is started. -/
theorem scan?_eq_endFrom? (text : String) (start : Nat) :
    scan? (utf8 text.toList) start = endFrom? text start := by
  rw [endFrom?]
  cases hdrop : dropBytes start text.toList with
  | none => exact scan?_of_dropBytes hdrop
  | some cs =>
      obtain ⟨before, htext, rfl⟩ := dropBytes_eq_some.mp hdrop
      rw [htext, scan?_eq, Option.map_eq_bind]
      rfl

end Numeral

end WidgetShorthand.Text
