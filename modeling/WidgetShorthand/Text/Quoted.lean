/-!
# Quoted strings

A string of the notation stands between double quotes, and every reserved character in it is marked
by a backslash. `read` is the way back: it takes a text just behind an opening quote and gives the
string and what follows its closing quote. Main statement: `read_escape`, reading gives back what
was written and stops right behind it.
-/

namespace WidgetShorthand.Text.Quoted

/-- The characters that are marked inside a string: the mark itself, the quote, and the brackets and
separators of the notation. -/
def reserved : List Char :=
  ['\\', '"', '{', '}', '[', ']', ',', ';']

def isReserved (c : Char) : Bool :=
  reserved.contains c

/-- Puts a backslash before each reserved character. -/
def escape : List Char → List Char
  | [] => []
  | c :: r => if isReserved c then '\\' :: c :: escape r else c :: escape r

/-- A string as it is written, with its quotes. -/
def quote (s : List Char) : List Char :=
  '"' :: (escape s ++ ['"'])

/-- What can be wrong with a string body. -/
inductive Fault
  /-- The text ends before the closing quote. -/
  | unterminated
  /-- The text ends behind a backslash. -/
  | cutEscape
  /-- A backslash stands before a character that is not reserved. -/
  | badEscape (found : Char)
  deriving DecidableEq, Repr

/-- Reads a string body up to its closing quote. The answer is the string and the text behind the
quote, or what is wrong and the text from there on. -/
def read : List Char → Except (Fault × List Char) (List Char × List Char)
  | [] => .error (.unterminated, [])
  | c :: r =>
    if c = '"' then .ok ([], r)
    else if c = '\\' then
      match r with
      | [] => .error (.cutEscape, [])
      | d :: r' =>
        if isReserved d then (read r').map fun (s, rest) => (d :: s, rest)
        else .error (.badEscape d, d :: r')
    else (read r).map fun (s, rest) => (c :: s, rest)

theorem isReserved_quote : isReserved '"' = true := by decide

theorem isReserved_backslash : isReserved '\\' = true := by decide

/-- Reading is the inverse of writing, and takes nothing of what follows. -/
theorem read_escape (s rest : List Char) : read (escape s ++ '"' :: rest) = .ok (s, rest) := by
  induction s with
  | nil => simp [escape, read.eq_def]
  | cons c r ih =>
    by_cases h : isReserved c = true
    · rw [escape, if_pos h, List.cons_append, List.cons_append, read.eq_def]
      simp [h, ih, Except.map]
    · have hq : c ≠ '"' := fun e => h (e ▸ isReserved_quote)
      have hb : c ≠ '\\' := fun e => h (e ▸ isReserved_backslash)
      rw [escape, if_neg h, List.cons_append, read.eq_def]
      simp [hq, hb, ih, Except.map]

end WidgetShorthand.Text.Quoted
