import Mathlib.Data.List.Forall2
import WidgetShorthand.Dart.Source
import WidgetShorthand.Validation.RoundTrip

/-!
# Indentation is only layout

A tree is written with two indents, and the two sources have the same words. Sources are put
together from parts that need not begin or end with a word, so the relation of two parts has to be
kept by putting them together: `SameWords` asks that they make the same words of any text in which
they stand.

Spaces at the start of a line are of no account because there is a line break in front of them. That
break belongs to the part before, or to none where a source begins. So lines are related behind a
line break, by `SameLine`, and lines that other lines follow by `SameLines`.

The induction is on the tree, with a relation of lists beside each function that gives a list of
parts. What the tree itself holds, names, literals and expressions, is the same text on both sides,
whatever white space there is in it.
-/

namespace WidgetShorthand

namespace Text

/-! ## Words of a text in parts -/

variable {c : Char} {cs : List Char}

theorem words_ne_nil (h : startsWord cs = true) : words cs ≠ [] := by
  cases cs with
  | nil => cases h
  | cons c r =>
      have hc : isWhite c = false := by simpa [startsWord] using h
      rw [words, hc, if_neg Bool.false_ne_true]
      split
      · cases words r <;> simp [consWord]
      · simp

theorem consWord_append {ws : List (List Char)} (h : ws ≠ []) (vs : List (List Char)) :
    consWord c (ws ++ vs) = consWord c ws ++ vs := by
  cases ws with
  | nil => exact absurd rfl h
  | cons w ws => rfl

/-- White space cuts a text: first come the words before it, then those behind it. -/
theorem words_append_white (hc : isWhite c = true) (before after : List Char) :
    words (before ++ c :: after) = words before ++ words after := by
  induction before with
  | nil => simp [words, hc]
  | cons d before ih =>
      have hstart : startsWord (before ++ c :: after) = startsWord before := by
        cases before <;> simp [startsWord, hc]
      simp only [List.cons_append, words, hstart, ih]
      split
      · rfl
      · split
        · next h => exact consWord_append (words_ne_nil h) _
        · rfl

theorem words_spaces_append (n : Nat) (cs : List Char) :
    words (List.replicate n ' ' ++ cs) = words cs := by
  induction n with
  | zero => rfl
  | succ n ih =>
      have hspace : isWhite ' ' = true := by decide
      rw [List.replicate_succ, List.cons_append, words, if_pos hspace, ih]

end Text

namespace Dart

/-! ## Parts that make the same words -/

/-- The two parts make the same words of any text that they are a part of. -/
def SameWords (a b : String) : Prop :=
  ∀ before after : List Char,
    Text.words (before ++ a.toList ++ after) = Text.words (before ++ b.toList ++ after)

/-- Behind a line break the two parts make the same words. -/
def SameLine (a b : String) : Prop :=
  SameWords ("\n" ++ a) ("\n" ++ b)

/-- The two parts are as good as one another between a line break and a line. -/
def SameLines (a b : String) : Prop :=
  ∀ c d : String, SameLine c d → SameLine (a ++ c) (b ++ d)

/-- Whether a text ends with a line break. -/
def endsInBreak (x : String) : Bool :=
  x.toList.getLast? == some '\n'

variable {a b c d x : String} {i j level : Nat}

theorem SameWords.refl (a : String) : SameWords a a :=
  fun _ _ => rfl

theorem SameWords.append (h : SameWords a b) (h' : SameWords c d) :
    SameWords (a ++ c) (b ++ d) := by
  intro before after
  have hfirst := h before (c.toList ++ after)
  have hsecond := h' (before ++ b.toList) after
  simp only [String.toList_append, List.append_assoc] at hfirst hsecond ⊢
  rw [hfirst, hsecond]

theorem SameWords.sameLine (h : SameWords a b) : SameLine a b :=
  (SameWords.refl _).append h

theorem SameLine.append (h : SameLine a b) (h' : SameWords c d) : SameLine (a ++ c) (b ++ d) := by
  rw [SameLine, ← String.append_assoc, ← String.append_assoc]
  exact SameWords.append h h'

/-- A line behind whatever ends with a line break. -/
theorem SameLine.behind (h : SameLine a b) (hx : endsInBreak x = true) :
    SameWords (x ++ a) (x ++ b) := by
  obtain ⟨y, hy⟩ := List.getLast?_eq_some_iff.mp (beq_iff_eq.mp hx)
  obtain rfl : x = String.ofList y ++ "\n" := by
    rw [← String.toList_inj, hy]
    simp
  rw [String.append_assoc, String.append_assoc]
  exact (SameWords.refl _).append h

theorem SameLine.sameLines (h : SameLine a b) (hx : endsInBreak x = true) :
    SameLines (a ++ x) (b ++ x) := by
  intro c d h'
  rw [String.append_assoc, String.append_assoc]
  exact h.append (h'.behind hx)

theorem sameLines_of_break (hx : endsInBreak x = true) : SameLines x x :=
  fun _ _ h => (h.behind hx).sameLine

theorem sameLines_nil : SameLines "" "" := by
  intro c d h
  rwa [String.empty_append, String.empty_append]

theorem SameLines.append (h : SameLines a b) (h' : SameLines c d) :
    SameLines (a ++ c) (b ++ d) := by
  intro e f hlast
  rw [String.append_assoc, String.append_assoc]
  exact h _ _ (h' _ _ hlast)

/-- At the start of a source there is no word before a line either. -/
theorem SameLine.sourceWords_eq (h : SameLine a b) : sourceWords a = sourceWords b := by
  have hbreak (cs : List Char) : Text.words ('\n' :: cs) = Text.words cs :=
    Text.words_append_white (by decide) [] cs
  have hwords : Text.words ('\n' :: a.toList) = Text.words ('\n' :: b.toList) := by
    simpa using h [] []
  rw [hbreak, hbreak] at hwords
  rw [sourceWords, sourceWords, hwords]

/-- The spaces at the start of a line do not matter. -/
theorem sameLine_pad : SameLine (pad i level) (pad j level) := by
  intro before after
  have hcut (n : Nat) : Text.words (before ++ '\n' :: (List.replicate n ' ' ++ after)) =
      Text.words before ++ Text.words after := by
    rw [Text.words_append_white (by decide), Text.words_spaces_append]
  simp [pad, hcut]

/-- Lines that end with one of which only the indent and a mark are known. -/
theorem SameLines.closed (h : SameLines a b) (x : String) :
    SameLine (a ++ pad i level ++ x) (b ++ pad j level ++ x) := by
  rw [String.append_assoc, String.append_assoc]
  exact h _ _ (sameLine_pad.append (.refl x))

theorem SameLines.enclosed (h : SameLines a b) (hx : endsInBreak x = true) (y : String) :
    SameWords (x ++ a ++ pad i level ++ y) (x ++ b ++ pad j level ++ y) := by
  have hclosed : SameLine (a ++ pad i level ++ y) (b ++ pad j level ++ y) := h.closed y
  simpa only [String.append_assoc] using hclosed.behind hx

/-! ## Lists of parts -/

variable {xs ys : List String}

theorem sameLines_join (h : List.Forall₂ SameLines xs ys) :
    SameLines (String.join xs) (String.join ys) := by
  induction h with
  | nil => exact sameLines_nil
  | cons hx _ ih =>
      rw [String.join_cons, String.join_cons]
      exact hx.append ih

theorem sameLines_map {α : Type} {f g : α → String} (h : ∀ x, SameLines (f x) (g x)) (xs : List α) :
    SameLines (String.join (xs.map f)) (String.join (xs.map g)) := by
  refine sameLines_join ?_
  rw [List.forall₂_map_left_iff, List.forall₂_map_right_iff, List.forall₂_same]
  exact fun x _ => h x

/-- Parts on lines of their own, with a comma behind each. -/
theorem sameLines_each (h : List.Forall₂ SameWords xs ys) :
    SameLines (String.join (xs.map fun x => pad i level ++ x ++ ",\n"))
      (String.join (ys.map fun y => pad j level ++ y ++ ",\n")) := by
  refine sameLines_join ?_
  rw [List.forall₂_map_left_iff, List.forall₂_map_right_iff]
  exact h.imp fun x y hxy => (sameLine_pad.append hxy).sameLines (by decide)

/-- A relation of texts goes over to what is put together with a separator that it allows. -/
theorem related_intercalate {R : String → String → Prop} {separator : String} (hnil : R "" "")
    (hsep : ∀ {a b c d}, R a b → R c d → R (a ++ separator ++ c) (b ++ separator ++ d))
    (h : List.Forall₂ R xs ys) : R (separator.intercalate xs) (separator.intercalate ys) := by
  induction h with
  | nil => exact hnil
  | cons hx hxs ih =>
      cases hxs with
      | nil => simpa using hx
      | cons hy hys =>
          rw [String.intercalate_cons_cons, String.intercalate_cons_cons]
          exact hsep hx ih

/-! ## Widgets -/

theorem sameWords_argumentLines (h : List.Forall₂ SameWords xs ys) :
    SameWords (argumentLines i level xs) (argumentLines j level ys) := by
  have hbreak : endsInBreak "\n" = true := by decide
  have hlines : SameLines (String.join (xs.map fun x => pad i (level + 1) ++ x ++ ",\n"))
      (String.join (ys.map fun y => pad j (level + 1) ++ y ++ ",\n")) := sameLines_each h
  cases h with
  | nil => exact .refl _
  | cons hx hxs => exact hlines.enclosed hbreak ")"

theorem sameWords_childrenArgument (i j level : Nat) (h : List.Forall₂ SameWords xs ys) :
    List.Forall₂ SameWords (childrenArgument i level xs) (childrenArgument j level ys) := by
  have hbreak : endsInBreak "children: [\n" = true := by decide
  have hlines : SameLines (String.join (xs.map fun x => pad i (level + 2) ++ x ++ ",\n"))
      (String.join (ys.map fun y => pad j (level + 2) ++ y ++ ",\n")) := sameLines_each h
  cases h with
  | nil => exact .nil
  | cons hx hxs =>
      cases hxs with
      | nil => exact .cons ((SameWords.refl _).append hx) .nil
      | cons hy hys => exact .cons (hlines.enclosed hbreak "]") .nil

mutual

theorem sameWords_widget (i j : Nat) : ∀ (level : Nat) (w : Widget),
    SameWords (widget i level w) (widget j level w)
  | level, ⟨typeName, ps, cs⟩ => by
      have hpositional := sameWords_positional i j (level + 1) ps
      have hnamed := sameWords_named i j (level + 1) ps
      -- How far children are indented depends on their number, which the indent has no part in.
      have hchildren := sameWords_children i j (if cs.length = 1 then level + 1 else level + 2) cs
      have hlast := sameWords_childrenArgument i j level hchildren
      rw [widget, widget]
      refine (SameWords.refl _).append (sameWords_argumentLines ?_)
      exact List.rel_append hpositional (List.rel_append hnamed hlast)

theorem sameWords_positional (i j : Nat) : ∀ (level : Nat) (ps : List Property),
    List.Forall₂ SameWords (positional i level ps) (positional j level ps)
  | _, [] => .nil
  | level, ⟨key, v⟩ :: ps => by
      have hps := sameWords_positional i j level ps
      rw [positional, positional]
      split
      · exact .cons (sameWords_value i j level v) hps
      · exact hps

theorem sameWords_named (i j : Nat) : ∀ (level : Nat) (ps : List Property),
    List.Forall₂ SameWords (named i level ps) (named j level ps)
  | _, [] => .nil
  | level, ⟨key, v⟩ :: ps => by
      have hps := sameWords_named i j level ps
      rw [named, named]
      split
      · exact hps
      · exact .cons ((SameWords.refl _).append (sameWords_value i j level v)) hps

theorem sameWords_children (i j : Nat) : ∀ (level : Nat) (cs : List Widget),
    List.Forall₂ SameWords (children i level cs) (children j level cs)
  | _, [] => .nil
  | level, c :: cs => .cons (sameWords_widget i j level c) (sameWords_children i j level cs)

theorem sameWords_value (i j : Nat) : ∀ (level : Nat) (v : Value),
    SameWords (value i level v) (value j level v)
  | _, .scalar s => .refl _
  | level, .widget w => sameWords_widget i j level w
  | level, .list vs => by
      have hitems : SameWords (", ".intercalate (items i level vs))
        (", ".intercalate (items j level vs)) :=
        related_intercalate (.refl _) (fun h h' => (h.append (.refl _)).append h')
          (sameWords_items i j level vs)
      rw [value, value]
      exact ((SameWords.refl _).append hitems).append (.refl _)

theorem sameWords_items (i j : Nat) : ∀ (level : Nat) (vs : List Value),
    List.Forall₂ SameWords (items i level vs) (items j level vs)
  | _, [] => .nil
  | level, v :: vs => .cons (sameWords_value i j level v) (sameWords_items i j level vs)

end

/-! ## Declarations

A declaration begins with an indent of its own, so it is a line, or several. -/

theorem sameLine_modifiers (words : List String) :
    SameLine (modifiers i level words) (modifiers j level words) := by
  have hpad : SameLine (pad i level) (pad j level) := sameLine_pad
  have hlast := hpad.append
    (.refl (String.join ((words.filter (· != "override")).map fun word => word ++ " ")))
  have hannotation : SameLines (pad i level ++ "@override\n") (pad j level ++ "@override\n") :=
    sameLine_pad.sameLines (by decide)
  rw [modifiers, modifiers, String.append_assoc, String.append_assoc]
  split
  · exact hannotation _ _ hlast
  · exact sameLines_nil _ _ hlast

/-- A value that need not be there. -/
theorem sameWords_optional (before : String) (v : Option Value) :
    SameWords (v.elim "" fun v => before ++ value i level v)
      (v.elim "" fun v => before ++ value j level v) := by
  cases v with
  | none => exact .refl ""
  | some v =>
      rw [Option.elim_some, Option.elim_some]
      exact (SameWords.refl before).append (sameWords_value i j level v)

theorem sameLines_field (f : Field) : SameLines (field i level f) (field j level f) := by
  refine SameLine.sameLines ?_ (by decide)
  refine .append (.append (.append ?_ (.refl _)) (.refl _)) (sameWords_optional " = " f.initializer)
  exact sameLine_modifiers f.modifiers

theorem sameLines_statement (s : Statement) :
    SameLines (statement i level s) (statement j level s) := by
  refine SameLine.sameLines ?_ (by decide)
  exact (sameLine_pad.append (.refl _)).append (sameWords_optional _ s.value)

theorem sameLines_methodBody (body : MethodBody) :
    SameLines (methodBody i level body) (methodBody j level body) := by
  cases body with
  | widget w =>
      refine SameLine.sameLines ?_ (by decide)
      exact (sameLine_pad.append (.refl _)).append (sameWords_widget i j level w)
  | statements block => exact sameLines_map sameLines_statement block

theorem sameLine_method (m : Method) : SameLine (method i level m) (method j level m) := by
  have hbreak : endsInBreak ") \x7b\n" = true := by decide
  have hmodifiers : SameLine (modifiers i level m.modifiers) (modifiers j level m.modifiers) :=
    sameLine_modifiers m.modifiers
  have hbody : SameLines (methodBody i (level + 1) m.body) (methodBody j (level + 1) m.body) :=
    sameLines_methodBody m.body
  rw [method, method]
  refine SameLines.closed (.append (SameLine.sameLines ?_ hbreak) hbody) "\x7d"
  exact (((hmodifiers.append (.refl _)).append (.refl _)).append (.refl _)).append (.refl _)

theorem sameLines_methods (afterMember : Bool) (ms : List Method) :
    SameLines (methods i level afterMember ms) (methods j level afterMember ms) := by
  induction ms generalizing afterMember with
  | nil => exact sameLines_nil
  | cons m ms ih =>
      have hbreak : endsInBreak "\n" = true := by decide
      have hgap : SameLines (if afterMember then "\n" else "")
        (if afterMember then "\n" else "") := by
        split
        · exact sameLines_of_break hbreak
        · exact sameLines_nil
      have hmethod : SameLines (method i level m ++ "\n") (method j level m ++ "\n") :=
        (sameLine_method m).sameLines hbreak
      have hall := (hgap.append hmethod).append (ih true)
      rw [methods, methods]
      rwa [← String.append_assoc, ← String.append_assoc] at hall

theorem sameLine_classDecl (c : ClassDecl) :
    SameLine (classDecl i level c) (classDecl j level c) := by
  have hbreak : endsInBreak " \x7b\n" = true := by decide
  have hpad : SameLine (pad i level) (pad j level) := sameLine_pad
  have hfields : SameLines (String.join (c.fields.map (field i (level + 1))))
      (String.join (c.fields.map (field j (level + 1)))) := sameLines_map sameLines_field c.fields
  have hmethods : SameLines (methods i (level + 1) (!c.fields.isEmpty) c.methods)
      (methods j (level + 1) (!c.fields.isEmpty) c.methods) := sameLines_methods _ c.methods
  rw [classDecl, classDecl]
  refine SameLines.closed (.append (.append (SameLine.sameLines ?_ hbreak) hfields) hmethods) "\x7d"
  exact ((hpad.append (.refl _)).append (.refl _)).append (.refl _)

/-! ## Sources -/

mutual

theorem sameLine_source (i j : Nat) : ∀ n : Node, SameLine (source i n) (source j n)
  | .classDecl c => sameLine_classDecl c
  | .method m => sameLine_method m
  | .widget w => (sameWords_widget i j 0 w).sameLine
  | .literal l => (SameWords.refl (literal l)).sameLine
  | .unit ns => by
      rw [source, source]
      refine related_intercalate (SameWords.refl _).sameLine (fun h h' => ?_)
        (sameLine_sources i j ns)
      exact h.sameLines (by decide) _ _ h'

theorem sameLine_sources (i j : Nat) : ∀ ns : List Node,
    List.Forall₂ SameLine (sources i ns) (sources j ns)
  | [] => .nil
  | n :: ns => .cons (sameLine_source i j n) (sameLine_sources i j ns)

end

/-- The width of the indent makes no difference to the words of a source, so the comparison of the
two sources finds no difference at all. -/
theorem indent_keeps_words (n : Node) (i j : Nat) :
    sourceWords (source i n) = sourceWords (source j n) ∧
      compareSources (source i n) (source j n) = ⟨true, 1.0⟩ := by
  have hwords : sourceWords (source i n) = sourceWords (source j n) :=
    (sameLine_source i j n).sourceWords_eq
  refine ⟨hwords, ?_⟩
  rw [compareSources, if_pos hwords]

end Dart

end WidgetShorthand
