import WidgetShorthand.Dart.Source

/-!
# String literals

A string literal of the host language stands on one line between double quotes. Inside it a
backslash marks the next character, a dollar sign that is not marked begins an interpolation, and a
line must not end. `readBody` reads such a body up to its closing quote, given which characters may
stand there as they are, and undoes the marks.

Every literal is read as the text that it was written for, and all of it is read, as far as the
quotes, marks, dollar signs and line feeds of the text go. Carriage returns are written as they are,
and they end a line too. So a literal is one token of the host language exactly if the text has
none.
-/

namespace WidgetShorthand.Dart

/-- The character that stands for a marked one. -/
def unmark? (c : Char) : Option Char :=
  if c = 'n' then some '\n'
  else if c = 'r' then some '\r'
  else if c = '\\' || c = '"' || c = '$' then some c
  else none

/-- Reads the body of a literal up to its closing quote. The answer is the text and what stands
behind the quote. -/
def readBody (bare : Char → Bool) : List Char → Option (List Char × List Char)
  | [] => none
  | c :: r =>
    if c = '"' then some ([], r)
    else if c = '\\' then
      match r with
      | [] => none
      | d :: r' => do
        let x ← unmark? d
        let (s, rest) ← readBody bare r'
        return (x :: s, rest)
    else if bare c then (readBody bare r).map fun (s, rest) => (c :: s, rest)
    else none

/-- Reads a literal with its quotes. -/
def readLiteral (bare : Char → Bool) : List Char → Option (List Char × List Char)
  | [] => none
  | c :: r => if c = '"' then readBody bare r else none

/-- A carriage return ends a line, and so does a line feed. -/
def endsLine (c : Char) : Bool :=
  c == '\n' || c == '\r'

/-- Whether a character may stand for itself in a literal: it does not begin an interpolation and
does not end a line. -/
def isBare (c : Char) : Bool :=
  c != '$' && !endsLine c

/-- Whether a character is written with a mark. -/
def isMarked (c : Char) : Bool :=
  c == '\\' || c == '"' || c == '$' || c == '\n'

variable {bare : Char → Bool} {c : Char}

theorem escapeChar_of_not_marked (h : isMarked c = false) : escapeChar c = [c] := by
  simp only [isMarked, Bool.or_eq_false_iff, beq_eq_false_iff_ne] at h
  obtain ⟨⟨⟨hmark, hquote⟩, hdollar⟩, hfeed⟩ := h
  simp [escapeChar, hmark, hquote, hdollar, hfeed]

/-- A marked character is read whatever may stand for itself. -/
theorem readBody_marked (h : isMarked c = true) (r : List Char) :
    readBody bare (escapeChar c ++ r) = (readBody bare r).map fun q => (c :: q.1, q.2) := by
  simp only [isMarked, Bool.or_eq_true, beq_iff_eq] at h
  cases hr : readBody bare r with
  | none => rcases h with ((rfl | rfl) | rfl) | rfl <;> simp [escapeChar, readBody, unmark?, hr]
  | some q => rcases h with ((rfl | rfl) | rfl) | rfl <;> simp [escapeChar, readBody, unmark?, hr]

theorem readBody_not_marked (h : isMarked c = false) (r : List Char) :
    readBody bare (escapeChar c ++ r) =
      if bare c then (readBody bare r).map fun q => (c :: q.1, q.2) else none := by
  rw [escapeChar_of_not_marked h, List.singleton_append, readBody.eq_def]
  simp only [isMarked, Bool.or_eq_false_iff, beq_eq_false_iff_ne] at h
  obtain ⟨⟨⟨hmark, hquote⟩, -⟩, -⟩ := h
  simp only [hmark, hquote, if_false]

/-- What is written for a text is read as that text, if what has no mark in it may stand for
itself. -/
theorem readBody_escaped (s rest : List Char) :
    readBody bare (s.flatMap escapeChar ++ '"' :: rest) =
      if s.all (fun c => isMarked c || bare c) then some (s, rest) else none := by
  induction s with
  | nil =>
      rw [List.flatMap_nil, List.nil_append, readBody.eq_def]
      simp
  | cons c s ih =>
      rw [List.flatMap_cons, List.append_assoc]
      cases hc : isMarked c with
      | true =>
          rw [readBody_marked hc, ih]
          by_cases hs : s.all (fun c => isMarked c || bare c) = true <;> simp [hc, hs]
      | false =>
          rw [readBody_not_marked hc, ih]
          by_cases hs : s.all (fun c => isMarked c || bare c) = true <;> simp [hc, hs]

theorem readLiteral_stringLiteral (raw : String) :
    readLiteral bare (stringLiteral raw).toList =
      if raw.toList.all (fun c => isMarked c || bare c) then some (raw.toList, []) else none := by
  rw [stringLiteral, String.toList_ofList, readLiteral, if_pos rfl]
  exact readBody_escaped raw.toList []

/-- Only one of the characters that may not stand for themselves is written without a mark. -/
theorem marked_or_bare_iff : (isMarked c || isBare c) = true ↔ c ≠ '\r' := by
  simp only [isMarked, isBare, endsLine]
  by_cases h : c = '\r'
  · subst h
    decide
  · by_cases hdollar : c = '$' <;> by_cases hfeed : c = '\n' <;> simp [h, hdollar, hfeed]

/-- A literal is one token, and its value is the text, exactly if the text has no carriage return.
Apart from carriage returns that end the line nothing is ever wrong with it: with them allowed it is
read to its end, and gives back the text. -/
theorem stringLiteral_one_token (raw : String) :
    (readLiteral isBare (stringLiteral raw).toList =
      if '\r' ∈ raw.toList then none else some (raw.toList, [])) ∧
    readLiteral (fun c => isBare c || c == '\r') (stringLiteral raw).toList =
      some (raw.toList, []) := by
  constructor
  · have hall : raw.toList.all (fun c => isMarked c || isBare c) = true ↔ '\r' ∉ raw.toList := by
      simp only [List.all_eq_true, marked_or_bare_iff]
      grind
    rw [readLiteral_stringLiteral]
    by_cases hreturn : '\r' ∈ raw.toList
    · rw [if_pos hreturn, if_neg (fun h => hall.mp h hreturn)]
    · rw [if_neg hreturn, if_pos (hall.mpr hreturn)]
  · have hall : raw.toList.all (fun c => isMarked c || (isBare c || c == '\r')) = true := by
      rw [List.all_eq_true]
      intro c _
      by_cases h : c = '\r'
      · simp [h]
      · rw [← Bool.or_assoc, marked_or_bare_iff.mpr h, Bool.true_or]
    rw [readLiteral_stringLiteral, if_pos hall]

example : readLiteral isBare (stringLiteral "a$\"\n\\").toList = some ("a$\"\n\\".toList, []) := by
  decide +kernel

end WidgetShorthand.Dart
