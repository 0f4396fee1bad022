import WidgetShorthand.Proofs.ByteDocuments

/-!
# Positions are places between characters

The cursor in bytes goes on by numbers of bytes, back to positions that it had, and to the ends that
are found by looking at bytes. All the same it is never inside a character nor behind the end of the
text. This follows from the cursor that is in front of a rest of the text: the two keep step from
the first byte on, and a rest of the text begins between two characters. So every slice that is
taken on the way is there, and what comes of the reading is what comes of the reading in front of
the rest, with the same errors at the same positions.
-/

namespace WidgetShorthand

open Text

/-- All positions that an error names. -/
def ParseError.positions (e : ParseError) : List Nat :=
  e.position :: e.fault.positions

namespace ByteReader

variable {α : Type}

/-- The cursor at the end of a reading, also of one that has failed. -/
def lastCursor : EStateM.Result Stop ByteCursor α → ByteCursor
  | .ok _ t => t
  | .error _ t => t

/-- What comes of a reading. -/
def answer : EStateM.Result Stop ByteCursor α → Except Stop α
  | .ok x _ => .ok x
  | .error stop _ => .error stop

end ByteReader

open ByteReader

/-! ## The start -/

/-- Both cursors in front of the whole text. -/
theorem tracks_start (text : String) : Tracks text.toList (.atStart text) .start where
  within := Cursor.within_atStart text
  position := (Nat.sub_self _).symm
  opened := rfl
  expecting := rfl
  earlier := nofun

/-- The whole text is read with the same outcome. -/
theorem Decoder.outcome_decodeBytes (d : Decoder) (text : String) :
    SameOutcome text.toList ((d.reading text).document (.atStart text)) (d.decodeBytes text) :=
  ByteDecoding.simulates_document (d := ⟨d, text.toList⟩) _ _ (tracks_start text)

/-! ## The whole reading -/

theorem Text.IsPlace.isBoundary {text : String} {n : Nat} (h : IsPlace text.toList n) :
    IsBoundary text n := by
  obtain ⟨rest, hrest, rfl⟩ := h
  exact isBoundary_of_suffix hrest

theorem Decoder.isBoundary_of_visited (d : Decoder) (text : String) :
    ∀ n ∈ (lastCursor (d.decodeBytes text)).visited, IsBoundary text n := by
  intro n hn
  have houtcome := d.outcome_decodeBytes text
  generalize (d.reading text).document (.atStart text) = result, d.decodeBytes text = result'
    at houtcome hn
  cases houtcome with
  | ok h => exact (h.visited n hn).isBoundary
  | error h => exact (h n hn).isBoundary

theorem Decoder.answer_decodeBytes (d : Decoder) (text : String) :
    answer (d.decodeBytes text) = (d.decode text).mapError Stop.fault := by
  have houtcome := d.outcome_decodeBytes text
  show _ = (((d.reading text).document (.atStart text)).map (·.1)).mapError Stop.fault
  generalize d.decodeBytes text = result, (d.reading text).document (.atStart text) = result'
    at houtcome
  cases houtcome with
  | ok h => rfl
  | error h => rfl

theorem ParseError.Placed.isBoundary {d : Decoder} {text : String} {error : ParseError}
    (h : error.Placed (d.reading text) text.toList) {n : Nat} (hn : n ∈ error.positions) :
    IsBoundary text n := by
  cases hn with
  | head =>
      obtain ⟨place, hplace, hposition⟩ := h.place
      exact hposition ▸ isBoundary_of_suffix hplace
  | tail _ hn =>
      obtain ⟨place, hplace, rfl⟩ := h.fault.places n hn
      exact isBoundary_of_suffix hplace

/-- A text is read by its bytes without ever leaving the places between its characters, whatever it
is read with: at each step the cursor is at most at the end of the text and at the beginning of one
of its characters if not at the end, no slice fails, and errors are at such positions too. Apart
from its positions the reading is the one in front of the rest of the text. -/
theorem Decoder.decode_keeps_boundaries (d : Decoder) (text : String) :
    (∀ n ∈ (lastCursor (d.decodeBytes text)).visited, IsBoundary text n) ∧
      (∀ t, d.decodeBytes text ≠ .error .badSlice t) ∧
      (∀ error t, d.decodeBytes text = .error (.fault error) t →
        ∀ n ∈ error.positions, IsBoundary text n) ∧
      answer (d.decodeBytes text) = (d.decode text).mapError Stop.fault := by
  have hanswer := d.answer_decodeBytes text
  refine ⟨d.isBoundary_of_visited text, ?_, ?_, hanswer⟩
  · intro t hrun
    rw [hrun] at hanswer
    cases hdecode : d.decode text with
    | error error =>
        rw [hdecode] at hanswer
        cases hanswer
    | ok tree =>
        rw [hdecode] at hanswer
        cases hanswer
  · intro error t hrun n hn
    rw [hrun] at hanswer
    cases hdecode : d.decode text with
    | error error' =>
        rw [hdecode] at hanswer
        cases hanswer
        exact (Decoder.placed hdecode).isBoundary hn
    | ok tree =>
        rw [hdecode] at hanswer
        cases hanswer

/-- The last positions come first. The character in the string is passed by two bytes, and the
numeral in one go. -/
example : (lastCursor ((⟨.empty, .empty, 8⟩ : Decoder).decodeBytes "u:\"é\"|-12")).visited =
    [10, 7, 7, 6, 5, 3, 2, 2, 1, 0, 1, 0] := by
  decide +kernel

end WidgetShorthand
