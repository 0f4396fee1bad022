import WidgetShorthand.Document.ByteCursor
import WidgetShorthand.Proofs.Progress

/-!
# Positions in a text

The bytes of a text can be counted up to any place between its characters, and the numbers that come
out are the positions at which it can be sliced. Any other number of bytes leads into a character or
behind the end. So a slice is there exactly when both of its ends are boundaries.

The position of a place is also known from what stands behind it, by counting from the end of the
text.
-/

namespace WidgetShorthand

open Text Reader

namespace Text

variable {n start stop : Nat} {a b before cs rest : List Char} {text : String}

theorem utf8ByteSize_ofList (cs : List Char) : (String.ofList cs).utf8ByteSize = byteLength cs := by
  induction cs with
  | nil => rfl
  | cons c cs ih =>
      rw [String.ofList_cons, String.utf8ByteSize_append, ih, byteLength_cons]
      simp

theorem utf8ByteSize_eq (text : String) : text.utf8ByteSize = byteLength text.toList := by
  rw [← utf8ByteSize_ofList, String.ofList_toList]

/-! ## Parts by their bytes -/

theorem exists_byteLength_cons (c : Char) (cs : List Char) :
    ∃ n, byteLength (c :: cs) = n + 1 ∧ c.utf8Size ≤ n + 1 ∧
      n + 1 - c.utf8Size = byteLength cs := by
  have hc := c.utf8Size_pos
  refine ⟨c.utf8Size + byteLength cs - 1, ?_, ?_, ?_⟩
  · rw [byteLength_cons]
    omega
  · omega
  · omega

theorem dropBytes_append (before rest : List Char) :
    dropBytes (byteLength before) (before ++ rest) = some rest := by
  induction before with
  | nil => cases rest <;> rfl
  | cons c before ih =>
      obtain ⟨n, hn, hle, hbehind⟩ := exists_byteLength_cons c before
      rw [hn, List.cons_append, dropBytes, if_pos hle, hbehind, ih]

theorem dropBytes_eq_some :
    dropBytes n cs = some rest ↔ ∃ before, cs = before ++ rest ∧ byteLength before = n := by
  constructor
  · intro h
    fun_induction dropBytes n cs with
    | case1 cs =>
        obtain rfl := Option.some.inj h
        exact ⟨[], rfl, rfl⟩
    | case2 => cases h
    | case3 n c cs hle ih =>
        obtain ⟨before, rfl, hbytes⟩ := ih h
        refine ⟨c :: before, rfl, ?_⟩
        rw [byteLength_cons, hbytes]
        omega
    | case4 => cases h
  · rintro ⟨before, rfl, rfl⟩
    exact dropBytes_append before rest

theorem takeBytes_append (a b : List Char) : takeBytes (byteLength a) (a ++ b) = some a := by
  induction a with
  | nil => cases b <;> rfl
  | cons c a ih =>
      obtain ⟨n, hn, hle, hbehind⟩ := exists_byteLength_cons c a
      rw [hn, List.cons_append, takeBytes, if_pos hle, hbehind, ih, Option.map_some]

theorem takeBytes_eq_some :
    takeBytes n cs = some a ↔ ∃ rest, cs = a ++ rest ∧ byteLength a = n := by
  constructor
  · intro h
    fun_induction takeBytes n cs generalizing a with
    | case1 cs =>
        obtain rfl := Option.some.inj h
        exact ⟨cs, rfl, rfl⟩
    | case2 => cases h
    | case3 n c cs hle ih =>
        obtain ⟨a, ha, rfl⟩ := Option.map_eq_some_iff.mp h
        obtain ⟨rest, rfl, hbytes⟩ := ih ha
        refine ⟨rest, rfl, ?_⟩
        rw [byteLength_cons, hbytes]
        omega
    | case4 => cases h
  · rintro ⟨rest, rfl, rfl⟩
    exact takeBytes_append a rest

/-- A slice stands between its start and its stop. -/
theorem slice?_eq_some : slice? start stop cs = some a ↔
    ∃ before rest, cs = before ++ (a ++ rest) ∧ byteLength before = start ∧
      byteLength (before ++ a) = stop := by
  rw [slice?]
  constructor
  · intro h
    split at h
    · next hle =>
        obtain ⟨behind, hdrop, htake⟩ := Option.bind_eq_some_iff.mp h
        obtain ⟨before, rfl, rfl⟩ := dropBytes_eq_some.mp hdrop
        obtain ⟨rest, rfl, hbytes⟩ := takeBytes_eq_some.mp htake
        refine ⟨before, rest, rfl, rfl, ?_⟩
        rw [byteLength_append]
        omega
    · cases h
  · rintro ⟨before, rest, rfl, rfl, rfl⟩
    have hsize : byteLength (before ++ a) - byteLength before = byteLength a := by
      rw [byteLength_append]
      omega
    rw [if_pos (by rw [byteLength_append]; omega), dropBytes_append, Option.bind_some, hsize,
      takeBytes_append]

/-! ## Boundaries -/

/-- A number of bytes that is at most the length of a text, and behind which one of its characters
begins or the text ends. -/
def IsBoundary (text : String) (n : Nat) : Prop :=
  n ≤ text.utf8ByteSize ∧ (⟨n⟩ : String.Pos.Raw).IsValid text

theorem isBoundary_iff :
    IsBoundary text n ↔ ∃ before rest, text.toList = before ++ rest ∧ byteLength before = n := by
  constructor
  · rintro ⟨_, hvalid⟩
    obtain ⟨a, b, rfl, hn⟩ := String.Pos.Raw.isValid_iff_exists_append.mp hvalid
    refine ⟨a.toList, b.toList, String.toList_append, ?_⟩
    rw [← utf8ByteSize_eq]
    exact (congrArg String.Pos.Raw.byteIdx hn).symm
  · rintro ⟨before, rest, htext, rfl⟩
    have hsplit : text = String.ofList before ++ String.ofList rest := by
      rw [← String.ofList_append, ← htext, String.ofList_toList]
    refine ⟨?_, String.Pos.Raw.isValid_iff_exists_append.mpr ⟨_, _, hsplit, ?_⟩⟩
    · rw [utf8ByteSize_eq, htext, byteLength_append]
      omega
    · rw [String.Pos.Raw.ext_iff, String.byteIdx_rawEndPos, utf8ByteSize_ofList]

/-- A text can be sliced from a position on exactly when that is a boundary. -/
theorem isSome_dropBytes_iff : (dropBytes n text.toList).isSome = true ↔ IsBoundary text n := by
  rw [Option.isSome_iff_exists, isBoundary_iff]
  constructor
  · rintro ⟨rest, hrest⟩
    obtain ⟨before, htext, hn⟩ := dropBytes_eq_some.mp hrest
    exact ⟨before, rest, htext, hn⟩
  · rintro ⟨before, rest, htext, hn⟩
    exact ⟨rest, dropBytes_eq_some.mpr ⟨before, htext, hn⟩⟩

/-- Of two beginnings of a text the one that is no longer in bytes is a part of the other. -/
theorem prefix_of_byteLength_le (ha : a <+: cs) (hb : b <+: cs)
    (hle : byteLength a ≤ byteLength b) : a <+: b := by
  rcases List.prefix_or_prefix_of_prefix ha hb with h | ⟨more, rfl⟩
  · exact h
  · cases more with
    | nil => exact (List.append_nil b).symm ▸ List.prefix_refl b
    | cons c more =>
        have hc := c.utf8Size_pos
        rw [byteLength_append, byteLength_cons] at hle
        omega

/-- A text can be sliced between two positions exactly when both of them are boundaries. -/
theorem isSome_slice?_iff : (slice? start stop text.toList).isSome = true ↔
    start ≤ stop ∧ IsBoundary text start ∧ IsBoundary text stop := by
  rw [Option.isSome_iff_exists, isBoundary_iff, isBoundary_iff]
  constructor
  · rintro ⟨a, ha⟩
    obtain ⟨before, rest, htext, rfl, rfl⟩ := slice?_eq_some.mp ha
    refine ⟨?_, ⟨before, a ++ rest, htext, rfl⟩, before ++ a, rest, ?_, rfl⟩
    · rw [byteLength_append]
      omega
    · rw [htext, List.append_assoc]
  · rintro ⟨hle, ⟨before, behind, htext, rfl⟩, before', rest, htext', rfl⟩
    obtain ⟨a, rfl⟩ := prefix_of_byteLength_le ⟨behind, htext.symm⟩ ⟨rest, htext'.symm⟩ hle
    rw [List.append_assoc] at htext'
    exact ⟨a, slice?_eq_some.mpr ⟨before, rest, htext', rfl, rfl⟩⟩

/-! ## From the end -/

theorem offset_append (before rest : List Char) :
    offset (byteLength (before ++ rest)) rest = byteLength before := by
  rw [offset, byteLength_append]
  omega

theorem isBoundary_of_suffix (h : rest <:+ text.toList) :
    IsBoundary text (offset (byteLength text.toList) rest) := by
  obtain ⟨before, htext⟩ := h
  rw [isBoundary_iff]
  exact ⟨before, rest, htext.symm, by rw [← htext, offset_append]⟩

theorem dropBytes_offset (h : rest <:+ cs) :
    dropBytes (offset (byteLength cs) rest) cs = some rest := by
  obtain ⟨before, rfl⟩ := h
  rw [offset_append, dropBytes_append]

/-- A slice between two places of a text is what stands between them. -/
theorem slice?_offset (h : a ++ rest <:+ cs) :
    slice? (offset (byteLength cs) (a ++ rest)) (offset (byteLength cs) rest) cs = some a := by
  obtain ⟨before, rfl⟩ := h
  refine slice?_eq_some.mpr ⟨before, rest, rfl, (offset_append _ _).symm, ?_⟩
  rw [← List.append_assoc, offset_append]

/-- Passing a part of the text adds its bytes to the position. -/
theorem offset_add (h : a ++ rest <:+ cs) :
    offset (byteLength cs) (a ++ rest) + byteLength a = offset (byteLength cs) rest := by
  obtain ⟨before, rfl⟩ := h
  rw [offset_append, ← List.append_assoc, offset_append, byteLength_append]

end Text

end WidgetShorthand
