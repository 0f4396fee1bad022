/-!
# Names

The character classes that the notation is built from, and the name forms they make: identifiers,
dotted identifier paths, and reference ids. All of them are ASCII, so a name is as many bytes long
as it has characters.
-/

namespace WidgetShorthand.Text

/-- An identifier starts with an ASCII letter, an underscore or a dollar sign. -/
def isNameStart (c : Char) : Bool :=
  c.isAlpha || c == '_' || c == '$'

/-- After its first character an identifier may hold digits too. -/
def isNameChar (c : Char) : Bool :=
  c.isAlphanum || c == '_' || c == '$'

/-- The characters of a reference id: ASCII letters, digits and the underscore. -/
def isReferenceChar (c : Char) : Bool :=
  c.isAlphanum || c == '_'

/-- Whether a text begins like an identifier. -/
def startsName : List Char → Bool
  | [] => false
  | c :: _ => isNameStart c

/-- Whether a text is exactly one identifier. -/
def isIdentifier (s : String) : Bool :=
  startsName s.toList && s.toList.tail.all isNameChar

/-- Whether a text is identifiers joined by single dots; `atStart` says that an identifier is
due. -/
def isPathFrom (atStart : Bool) : List Char → Bool
  | [] => !atStart
  | c :: r =>
    if atStart then isNameStart c && isPathFrom false r
    else if c == '.' then isPathFrom true r
    else isNameChar c && isPathFrom false r

/-- A dotted identifier path, such as `MainAxisAlignment.center`; a single identifier is one too. -/
def isPath (s : String) : Bool :=
  isPathFrom true s.toList

/-- Whether a text can stand as the id of a reference. -/
def isReferenceId (s : String) : Bool :=
  !s.toList.isEmpty && s.toList.all isReferenceChar

/-- Splits off the path that a text begins with, or the rest of one. A dot belongs to the path only
where an identifier follows it. -/
def spanPath : List Char → List Char × List Char
  | [] => ([], [])
  | c :: r =>
    if isNameChar c || (c == '.' && startsName r) then
      let (path, rest) := spanPath r
      (c :: path, rest)
    else ([], c :: r)

theorem isNameChar_of_isNameStart {c : Char} (h : isNameStart c = true) : isNameChar c = true := by
  simp only [isNameStart, isNameChar, Char.isAlphanum, Bool.or_eq_true] at h ⊢
  grind

end WidgetShorthand.Text
