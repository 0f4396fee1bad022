/-!
# White space

Two sets of blank characters. The notation skips the five ASCII layout characters; texts of a host
language are compared modulo the Unicode property White_Space. `words` is a text cut at its white
space.
-/

namespace WidgetShorthand.Text

/-- The layout characters of the notation: space, tab, line feed, form feed, carriage return. -/
def isBlank (c : Char) : Bool :=
  c == ' ' || c == '\t' || c == '\n' || c == '\x0c' || c == '\r'

/-- The text without the layout characters at its front. -/
def dropBlanks (cs : List Char) : List Char :=
  cs.dropWhile isBlank

/-- The Unicode property White_Space, as closed ranges of code points. -/
def whiteRanges : List (Nat × Nat) :=
  [(0x9, 0xd), (0x20, 0x20), (0x85, 0x85), (0xa0, 0xa0), (0x1680, 0x1680), (0x2000, 0x200a),
   (0x2028, 0x2029), (0x202f, 0x202f), (0x205f, 0x205f), (0x3000, 0x3000)]

/-- Whether a code point lies in one of the closed ranges. -/
def inRanges (ranges : List (Nat × Nat)) (n : Nat) : Bool :=
  ranges.any fun (first, last) => first ≤ n && n ≤ last

def isWhite (c : Char) : Bool :=
  inRanges whiteRanges c.toNat

/-- Whether the first word of a text begins at its first character. -/
def startsWord : List Char → Bool
  | [] => false
  | c :: _ => !isWhite c

/-- Puts a character in front of the first word. -/
def consWord (c : Char) : List (List Char) → List (List Char)
  | [] => [[c]]
  | w :: ws => (c :: w) :: ws

/-- The words of a text: its longest runs without white space, in order. -/
def words : List Char → List (List Char)
  | [] => []
  | c :: r =>
    if isWhite c then words r
    else if startsWord r then consWord c (words r)
    else [c] :: words r

end WidgetShorthand.Text
