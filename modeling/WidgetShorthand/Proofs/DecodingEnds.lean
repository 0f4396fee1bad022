import WidgetShorthand.Proofs.Progress

/-!
# Decoding ends

Three things keep a text from being read forever. The forms of the notation pass characters. A loop
goes round again only when its last round has passed something, so the fuel that the loops are
given never runs out: without it they would do the same. And where forms stand inside one another,
one level of depth is taken each time, and there are only so many; so it makes no difference what
would be read further in.
-/

namespace WidgetShorthand

open Text Reader

/-- What is further on begins with fewer characters left. -/
theorem Text.Further.length_lt {a b : List Char} (h : Further 1 a b) : b.length < a.length := by
  obtain ⟨passed, rfl⟩ := h.suffix
  have hbytes := h.bytes
  rw [byteLength_append] at hbytes
  cases passed with
  | nil =>
      rw [byteLength_nil] at hbytes
      omega
  | cons c passed =>
      rw [List.length_append, List.length_cons]
      omega

namespace Reader

variable {α β : Type}

/-! ## Loops -/

/-- Some rounds of a loop, from the one with a given number on, and what comes of them. A round
answers what it has found and whether the loop goes on, for which it must have passed something. -/
inductive Repeats (round : Nat → Reader (List α × Bool)) :
    Nat → Cursor → Except ParseError (List α × Cursor) → Prop where
  | failed {i : Nat} {s : Cursor} {error : ParseError} (h : round i s = .error error) :
      Repeats round i s (.error error)
  | last {i : Nat} {s s' : Cursor} {xs : List α} (h : round i s = .ok ((xs, false), s')) :
      Repeats round i s (.ok (xs, s'))
  | more {i : Nat} {s s₁ : Cursor} {xs : List α} {result : Except ParseError (List α × Cursor)}
      (h : round i s = .ok ((xs, true), s₁)) (passed : Further 1 s.rest s₁.rest)
      (later : Repeats round (i + 1) s₁ result) :
      Repeats round i s (result.map fun q => (xs ++ q.1, q.2))

theorem run_bind_of_ok {r : Reader α} {f : α → Reader β} {s s₁ : Cursor} {x : α}
    (h : r s = .ok (x, s₁)) : (r >>= f) s = f x s₁ :=
  bind_of_ok h

theorem run_bind_of_error {r : Reader α} {f : α → Reader β} {s : Cursor} {error : ParseError}
    (h : r s = .error error) : (r >>= f) s = .error error :=
  bind_of_error h

theorem run_bind_pure (r : Reader α) (f : α → β) (s : Cursor) :
    (r >>= fun x => pure (f x)) s = (r s).map fun q => (f q.1, q.2) := by
  cases h : r s with
  | error error => exact run_bind_of_error h
  | ok q => exact run_bind_of_ok h

/-- At the end of the text there is nothing to pass. -/
theorem eat_at_end (c : Char) {s : Cursor} (h : s.rest = []) : eat c s = .ok (false, s) := by
  obtain ⟨rest, opened, expecting⟩ := s
  cases h
  rfl

/-- A loop in one step: a round, and the rest of the loop if it goes on. -/
def roundThen (round : Reader (List α × Bool)) (later : Reader (List α)) : Reader (List α) := do
  let answer ← round
  if answer.2 then
    let ys ← later
    return answer.1 ++ ys
  else return answer.1

/-- Only of a round after which the loop goes on is there anything to show. -/
theorem Repeats.of_round {round : Nat → Reader (List α × Bool)} {later : Reader (List α)} {i : Nat}
    {s : Cursor}
    (h : ∀ xs s₁, round i s = .ok ((xs, true), s₁) →
      Further 1 s.rest s₁.rest ∧ Repeats round (i + 1) s₁ (later s₁)) :
    Repeats round i s (roundThen (round i) later s) := by
  cases hround : round i s with
  | error error =>
      rw [roundThen, run_bind_of_error hround]
      exact .failed hround
  | ok q =>
      obtain ⟨⟨xs, more⟩, s₁⟩ := q
      rw [roundThen, run_bind_of_ok hround]
      cases more with
      | false => exact .last hround
      | true =>
          obtain ⟨hpassed, hlater⟩ := h xs s₁ hround
          rw [if_pos rfl, run_bind_pure]
          exact .more hround hpassed hlater

/-- One round of a list: an element, and whether a separator follows. -/
def listRound (separator : Char) (element : Reader α) : Reader (List α × Bool) := do
  let x ← element
  return ([x], ← eat separator)

section

variable {separator : Char} {element : Reader α}

theorem further_of_listRound (h : Passes 0 element) {xs : List α} {s s₂ : Cursor}
    (hround : listRound separator element s = .ok ((xs, true), s₂)) : Further 1 s.rest s₂.rest := by
  obtain ⟨x, s₁, hx, hround⟩ := run_bind_eq_ok.mp hround
  obtain ⟨found, s₃, hfound, hround⟩ := run_bind_eq_ok.mp hround
  cases hround
  exact (h hx).trans (further_of_eat hfound)

theorem separatedLoop_succ (fuel : Nat) : separatedLoop separator element (fuel + 1) =
    roundThen (listRound separator element) (separatedLoop separator element fuel) := by
  simp only [separatedLoop, roundThen, listRound, bind_assoc, pure_bind]
  rfl

/-- The fuel goes down by one with each round, and the text that is left by one character at least.
So the fuel lasts. -/
theorem repeats_separatedLoop (h : Passes 0 element) (fuel i : Nat) (s : Cursor)
    (hfuel : s.rest.length ≤ fuel) :
    Repeats (fun _ => listRound separator element) i s
      (separatedLoop separator element fuel s) := by
  induction fuel generalizing i s with
  | zero =>
      have hend : s.rest = [] := List.length_eq_zero_iff.mp (Nat.le_zero.mp hfuel)
      cases hx : element s with
      | error error =>
          rw [separatedLoop, run_bind_of_error hx]
          exact .failed (run_bind_of_error hx)
      | ok q =>
          obtain ⟨x, s₁⟩ := q
          -- The element does not go back, so it ends where it began, and no separator follows.
          have hrest : s₁.rest = [] := List.suffix_nil.mp (hend ▸ (h hx).suffix)
          rw [separatedLoop, run_bind_of_ok hx]
          exact .last ((run_bind_of_ok hx).trans (run_bind_of_ok (eat_at_end separator hrest)))
  | succ fuel ih =>
      rw [separatedLoop_succ]
      refine Repeats.of_round fun xs s₁ hround => ?_
      have hpassed := further_of_listRound h hround
      have hlength := hpassed.length_lt
      exact ⟨hpassed, ih (i + 1) s₁ (by omega)⟩

theorem repeats_separated (h : Passes 0 element) (s : Cursor) :
    Repeats (fun _ => listRound separator element) 0 s (separated separator element s) :=
  repeats_separatedLoop h _ 0 s (Nat.le_refl _)

end

end Reader

namespace Decoding

variable {d : Decoding}

/-- One round of keywords. There may be none at all. -/
def keywordRound (d : Decoding) : Reader (List String × Bool) := do
  if (← next) = some '%' then
    let word ← d.modifier
    return ([word], true)
  else return ([], false)

theorem further_of_keywordRound {xs : List String} {s s₁ : Cursor}
    (h : d.keywordRound s = .ok ((xs, true), s₁)) : Further 1 s.rest s₁.rest := by
  obtain ⟨c, s₂, hnext, h⟩ := run_bind_eq_ok.mp h
  split at h
  · have hword : Passes 1 (d.modifier >>= fun word => pure ([word], true)) :=
      passes_modifier.then fun _ => passes_pure _
    exact (passes_next hnext).trans (hword h)
  · cases h

theorem modifiersLoop_succ (fuel : Nat) :
    d.modifiersLoop (fuel + 1) = roundThen d.keywordRound (d.modifiersLoop fuel) := by
  rw [modifiersLoop, roundThen, keywordRound, bind_assoc]
  congr 1
  funext c
  split
  · rw [bind_assoc]
    rfl
  · rfl

theorem repeats_modifiersLoop (fuel i : Nat) (s : Cursor) (hfuel : s.rest.length < fuel) :
    Repeats (fun _ => d.keywordRound) i s (d.modifiersLoop fuel s) := by
  induction fuel generalizing i s with
  | zero => exact absurd hfuel (Nat.not_lt_zero _)
  | succ fuel ih =>
      rw [modifiersLoop_succ]
      refine Repeats.of_round fun xs s₁ hround => ?_
      have hpassed := further_of_keywordRound hround
      have hlength := hpassed.length_lt
      exact ⟨hpassed, ih (i + 1) s₁ (by omega)⟩

theorem repeats_modifiers (s : Cursor) :
    Repeats (fun _ => d.keywordRound) 0 s (d.modifiers s) :=
  repeats_modifiersLoop _ 0 s (Nat.lt_succ_self _)

section

variable {value : Reader Value} {entry : Entry}

/-- One round of the arguments of a reference: an argument, of which there may not be more than
slots, and whether a comma follows. -/
def argumentRound (d : Decoding) (value : Reader Value) (entry : Entry) (i : Nat) :
    Reader (List (Option Scalar) × Bool) := do
  let arg ← d.argument value
  if i < entry.arity then return ([arg], ← eat ',')
  else fail d.size (.tooManyArguments entry.id entry.arity)

theorem argumentRound_of_lt {i : Nat} (hi : i < entry.arity) :
    d.argumentRound value entry i = listRound ',' (d.argument value) := by
  rw [argumentRound]
  simp only [if_pos hi]
  rfl

theorem arguments_succ {arg : Reader (Option Scalar)} {tooMany : Reader (List (Option Scalar))}
    (slots : Nat) : arguments arg tooMany (slots + 1) =
      roundThen (listRound ',' arg) (arguments arg tooMany slots) := by
  simp only [arguments, roundThen, listRound, bind_assoc, pure_bind]
  rfl

/-- As many rounds are left as there are slots left, and then one that fails. -/
theorem repeats_arguments (hv : Passes 0 value) (slots i : Nat) (s : Cursor)
    (hslots : i + slots = entry.arity) :
    Repeats (d.argumentRound value entry) i s
      (arguments (d.argument value) (fail d.size (.tooManyArguments entry.id entry.arity)) slots
        s) := by
  induction slots generalizing i s with
  | zero =>
      have hi : ¬ i < entry.arity := by omega
      cases harg : d.argument value s with
      | error error =>
          rw [arguments, run_bind_of_error harg]
          exact .failed (run_bind_of_error harg)
      | ok q =>
          rw [arguments, run_bind_of_ok harg]
          refine .failed ((run_bind_of_ok harg).trans ?_)
          rw [if_neg hi]
          rfl
  | succ slots ih =>
      have hround : d.argumentRound value entry i = listRound ',' (d.argument value) :=
        argumentRound_of_lt (by omega)
      rw [arguments_succ, ← hround]
      refine Repeats.of_round fun xs s₁ hone => ?_
      rw [hround] at hone
      exact ⟨further_of_listRound (passes_argument hv) hone, ih (i + 1) s₁ (by omega)⟩

end

/-! ## Forms -/

/-- A reader of one of the forms of the notation. -/
inductive Production (d : Decoding) : {α : Type} → Reader α → Prop where
  | identifier : Production d (identifier d.size)
  | path : Production d (path d.size)
  | code (table : Table) : Production d (d.code table)
  | propertyKey : Production d d.propertyKey
  | string : Production d d.string
  | number : Production d d.number
  | constant : Production d d.constant
  | foldedLiteral : Production d d.foldedLiteral
  | expression : Production d d.expression
  | typeRef (levels : Nat) : Production d (d.typeRef levels)
  | typeArgs (levels : Nat) : Production d (d.typeArgs (d.typeRef levels))
  | reference (levels : Nat) : Production d (d.reference (d.value levels))
  | property (levels : Nat) : Production d (d.property (d.value levels))
  | properties (levels : Nat) : Production d (d.properties (d.value levels))
  | child (levels : Nat) : Production d (child (d.widget levels))
  | children (levels : Nat) : Production d (d.children (d.widget levels))
  | fullWidget (levels : Nat) : Production d (d.fullWidget (d.value levels) (d.widget levels))
  | widget (levels : Nat) : Production d (d.widget levels)
  | list (levels : Nat) : Production d (d.list (d.value levels))
  | value (levels : Nat) : Production d (d.value levels)
  | modifier : Production d d.modifier
  | field : Production d d.field
  | param : Production d d.param
  | params : Production d d.params
  | statement : Production d d.statement
  | statements : Production d d.statements
  | methodBody : Production d d.methodBody
  | method : Production d d.method
  | classDecl : Production d d.classDecl
  | declarationHeader : Production d d.declarationHeader
  | item : Production d d.item
  | root : Production d d.root

theorem Production.passes {α : Type} {r : Reader α} (h : Production d r) : Passes 1 r := by
  cases h with
  | identifier => exact passes_identifier
  | path => exact passes_path
  | code table => exact passes_code table
  | propertyKey => exact passes_propertyKey
  | string => exact passes_string
  | number => exact passes_number
  | constant => exact passes_constant
  | foldedLiteral => exact passes_foldedLiteral
  | expression => exact passes_expression
  | typeRef levels => exact passes_typeRef levels
  | typeArgs levels => exact passes_typeArgs (passes_typeRef levels).onward
  | reference levels => exact passes_reference (passes_value levels).onward
  | property levels => exact passes_property (passes_value levels).onward
  | properties levels => exact passes_properties (passes_value levels).onward
  | child levels => exact passes_child (passes_widget levels)
  | children levels => exact passes_children (passes_widget levels).onward
  | fullWidget levels =>
      exact passes_fullWidget (passes_value levels).onward (passes_widget levels).onward
  | widget levels => exact passes_widget levels
  | list levels => exact passes_list (passes_value levels).onward
  | value levels => exact passes_value levels
  | modifier => exact passes_modifier
  | field => exact passes_field
  | param => exact passes_param
  | params => exact passes_params
  | statement => exact passes_statement
  | statements => exact passes_statements
  | methodBody => exact passes_methodBody
  | method => exact passes_method
  | classDecl => exact passes_classDecl
  | declarationHeader => exact passes_declarationHeader
  | item => exact passes_item
  | root => exact passes_root

/-! ## Levels -/

/-- Reads on one level further in. Where as many levels as may be are active, this is refused. -/
def nested {α : Type} (d : Decoding) (active : Nat) (body : Nat → Reader α) : Reader α :=
  if active < d.maxDepth then body (active + 1) else d.tooDeep

/-- What would be read too far in. -/
structure Beyond where
  value : Reader Value
  widget : Reader Widget
  typeRef : Reader TypeRef

/-- Reads what stands inside a number of active levels, or something else if these are too many. -/
def allowed {α : Type} (d : Decoding) (active : Nat) (beyond inside : Reader α) : Reader α :=
  if d.maxDepth < active then beyond else inside

/-- Reads a type inside a number of active levels, and goes in for a number of rounds. When no
rounds are left or too many levels are active, it reads whatever is given. -/
def typeRefInside (d : Decoding) (beyond : Beyond) : Nat → Nat → Reader TypeRef
  | 0, _ => beyond.typeRef
  | rounds + 1, active => d.allowed active beyond.typeRef <| d.typeRefWith <|
    d.nested active fun active => d.typeArgs (d.typeRefInside beyond rounds active)

mutual

/-- Reads a value inside a number of active levels. -/
def valueInside (d : Decoding) (beyond : Beyond) : Nat → Nat → Reader Value
  | 0, _ => beyond.value
  | rounds + 1, active => d.allowed active beyond.value <| d.valueWith
    (d.nested active fun active => d.list (d.valueInside beyond rounds active))
    (d.widgetWith <| d.nested active fun active =>
      d.widgetBody (d.valueInside beyond rounds active) (d.widgetInside beyond rounds active))

/-- Reads a widget inside a number of active levels. -/
def widgetInside (d : Decoding) (beyond : Beyond) : Nat → Nat → Reader Widget
  | 0, _ => beyond.widget
  | rounds + 1, active => d.allowed active beyond.widget <| d.widgetWith <|
    d.nested active fun active =>
      d.widgetBody (d.valueInside beyond rounds active) (d.widgetInside beyond rounds active)

end

section

variable {levels active : Nat}

theorem allowed_of_add {α : Type} {beyond inside : Reader α} (h : active + levels = d.maxDepth) :
    d.allowed active beyond inside = inside :=
  if_neg (by omega)

theorem nested_of_succ {α : Type} {body : Nat → Reader α}
    (h : active + (levels + 1) = d.maxDepth) : d.nested active body = body (active + 1) :=
  if_pos (by omega)

theorem nested_of_zero {α : Type} {body : Nat → Reader α} (h : active + 0 = d.maxDepth) :
    d.nested active body = d.tooDeep :=
  if_neg (by omega)

/-- The levels that are active and those that are left always make the greatest depth. So never too
many are active, and no more rounds are needed than there are levels left. -/
theorem typeRefInside_eq (beyond : Beyond) {rounds : Nat} (h : active + levels = d.maxDepth)
    (hrounds : levels < rounds) : d.typeRefInside beyond rounds active = d.typeRef levels := by
  induction rounds generalizing active levels with
  | zero => exact absurd hrounds (Nat.not_lt_zero levels)
  | succ rounds ih =>
      cases levels with
      | zero =>
          rw [typeRefInside, allowed_of_add h, nested_of_zero h]
          rfl
      | succ levels =>
          have htypeRef : d.typeRefInside beyond rounds (active + 1) = d.typeRef levels :=
            ih (by omega) (by omega)
          rw [typeRefInside, allowed_of_add h, nested_of_succ h, htypeRef]
          rfl

theorem valueInside_eq_and_widgetInside_eq (beyond : Beyond) {rounds : Nat}
    (h : active + levels = d.maxDepth) (hrounds : levels < rounds) :
    d.valueInside beyond rounds active = d.value levels ∧
      d.widgetInside beyond rounds active = d.widget levels := by
  induction rounds generalizing active levels with
  | zero => exact absurd hrounds (Nat.not_lt_zero levels)
  | succ rounds ih =>
      cases levels with
      | zero =>
          rw [valueInside, widgetInside, allowed_of_add h, allowed_of_add h, nested_of_zero h,
            nested_of_zero h]
          exact ⟨rfl, rfl⟩
      | succ levels =>
          have hnext : d.valueInside beyond rounds (active + 1) = d.value levels ∧
              d.widgetInside beyond rounds (active + 1) = d.widget levels :=
            ih (by omega) (by omega)
          obtain ⟨hvalue, hwidget⟩ := hnext
          rw [valueInside, widgetInside, allowed_of_add h, allowed_of_add h, nested_of_succ h,
            nested_of_succ h, hvalue, hwidget]
          exact ⟨rfl, rfl⟩

end

/-! ## Everything together -/

/-- What makes reading come to an end. -/
structure Ends (d : Decoding) : Prop where
  /-- Each form passes something. -/
  productions : ∀ {α : Type} {r : Reader α}, Production d r → Passes 1 r
  /-- Keywords pass something if there are any. -/
  modifiers : ∀ {s s' : Cursor} {words : List String}, d.modifiers s = .ok (words, s') →
    Further 0 s.rest s'.rest ∧ (words ≠ [] → Further 1 s.rest s'.rest)
  /-- A document is read to its end. -/
  document : ∀ {s s' : Cursor} {tree : Node}, d.document s = .ok (tree, s') → s'.rest = []
  /-- Loops end without the help of fuel, and pass something before they go on. -/
  lists : ∀ {α : Type} {element : Reader α}, Production d element →
    ∀ (separator : Char) (s : Cursor),
      Repeats (fun _ => listRound separator element) 0 s (separated separator element s)
  keywords : ∀ s : Cursor, Repeats (fun _ => d.keywordRound) 0 s (d.modifiers s)
  arguments : ∀ (levels : Nat) (entry : Entry) (s : Cursor),
    Repeats (d.argumentRound (d.value levels) entry) 0 s
      (arguments (d.argument (d.value levels))
        (fail d.size (.tooManyArguments entry.id entry.arity)) entry.arity s)
  /-- Whatever would be read inside more levels than may be makes no difference, and so many rounds
  are enough. -/
  levels : ∀ (beyond : Beyond) {rounds : Nat}, d.maxDepth < rounds →
    d.typeRefInside beyond rounds 0 = d.typeRef d.maxDepth ∧
      d.valueInside beyond rounds 0 = d.value d.maxDepth ∧
      d.widgetInside beyond rounds 0 = d.widget d.maxDepth

end Decoding

open Decoding in
/-- A text is read, or it is refused. -/
theorem decode_ends (d : Decoder) (text : String) :
    ((∃ tree, d.decode text = .ok tree) ∨ ∃ error, d.decode text = .error error) ∧
      Ends { d with size := byteLength text.toList } := by
  refine ⟨?_, ?_⟩
  · cases h : d.decode text with
    | ok tree => exact .inl ⟨tree, rfl⟩
    | error error => exact .inr ⟨error, rfl⟩
  · exact
      { productions := fun h => h.passes
        modifiers := fun h => ⟨passes_modifiers h, further_of_modifiers h⟩
        document := rest_of_document
        lists := fun h separator s => repeats_separated h.passes.onward s
        keywords := repeats_modifiers
        arguments := fun levels entry s =>
          repeats_arguments (passes_value levels).onward _ 0 s (Nat.zero_add _)
        levels := fun beyond _ h =>
          ⟨typeRefInside_eq beyond (Nat.zero_add _) h,
            valueInside_eq_and_widgetInside_eq beyond (Nat.zero_add _) h⟩ }

/-- The empty document is a document, and there is nothing in it to pass. -/
theorem document_passes_nothing : ∃ d : Decoding,
    d.document ⟨[], [], .node⟩ = .ok (.unit [], ⟨[], [], .node⟩) ∧ ¬ Passes 1 d.document := by
  let d : Decoding := ⟨⟨.empty, .empty, 0⟩, 0⟩
  have hempty : d.document ⟨[], [], .node⟩ = .ok (.unit [], ⟨[], [], .node⟩) := rfl
  exact ⟨d, hempty, fun h => absurd (h hempty).bytes (by decide)⟩

end WidgetShorthand
