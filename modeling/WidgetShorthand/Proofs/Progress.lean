import WidgetShorthand.Document.Decode
import WidgetShorthand.Proofs.Success
import WidgetShorthand.Proofs.WidgetReading

/-!
# Readers go forward

A reader may look ahead, and it goes back once: a name turns out to be the type of a widget when a
bracket stands behind it, and then it is read again. So on the way the cursor is not monotone. But
from where a reader starts to where it succeeds it has always gone on in the same text. `Passes`
says so and by how many bytes at least; a reader of a form of the notation passes at least one,
since every form has something that must be there. Only lists of keywords, optional parts and the
document itself may be empty.
-/

namespace WidgetShorthand

open Text Reader

namespace Text

/-! ## Places in a text -/

/-- The second rest of a text begins at least `n` bytes behind the first. -/
structure Further (n : Nat) (a b : List Char) : Prop where
  suffix : b <:+ a
  bytes : byteLength b + n ≤ byteLength a

variable {m n : Nat} {a b c : List Char}

theorem Further.refl (a : List Char) : Further 0 a a :=
  ⟨List.suffix_refl a, Nat.le_refl _⟩

theorem Further.mono (h : Further n a b) (hm : m ≤ n) : Further m a b :=
  ⟨h.suffix, Nat.le_trans (Nat.add_le_add_left hm _) h.bytes⟩

theorem Further.trans (h : Further m a b) (h' : Further n b c) : Further (m + n) a c := by
  refine ⟨h'.suffix.trans h.suffix, ?_⟩
  have hbytes := h.bytes
  have hbytes' := h'.bytes
  omega

theorem further_of_suffix (h : b <:+ a) : Further 0 a b := by
  obtain ⟨passed, rfl⟩ := h
  exact ⟨List.suffix_append _ _, by simp⟩

theorem further_dropWhile (p : Char → Bool) (cs : List Char) : Further 0 cs (cs.dropWhile p) :=
  further_of_suffix (List.dropWhile_suffix p)

/-- Every character takes at least one byte. -/
theorem further_of_suffix_tail {x : Char} (h : b <:+ a) : Further 1 (x :: a) b := by
  have hrest := (further_of_suffix h).bytes
  have hsize := x.utf8Size_pos
  refine ⟨h.trans (List.suffix_cons x a), ?_⟩
  rw [byteLength_cons]
  omega

/-- A name at the front is passed. -/
theorem further_name {cs : List Char} (h : startsName cs = true) :
    Further 1 cs (cs.dropWhile isNameChar) := by
  cases cs with
  | nil => cases h
  | cons c cs =>
      have hc : isNameChar c = true := isNameChar_of_isNameStart h
      rw [List.dropWhile_cons_of_pos hc]
      exact further_of_suffix_tail (List.dropWhile_suffix _)

theorem suffix_spanPath (cs : List Char) : (spanPath cs).2 <:+ cs := by
  induction cs with
  | nil => exact List.suffix_refl _
  | cons c cs ih =>
      rw [spanPath]
      split
      · exact ih.trans (List.suffix_cons c cs)
      · exact List.suffix_refl _

theorem further_spanPath {cs : List Char} (h : startsName cs = true) :
    Further 1 cs (spanPath cs).2 := by
  cases cs with
  | nil => cases h
  | cons c cs =>
      have hc : isNameChar c = true := isNameChar_of_isNameStart h
      rw [spanPath, hc, Bool.true_or, if_pos rfl]
      exact further_of_suffix_tail (suffix_spanPath cs)

theorem Numeral.suffix_spanFrom (hex : Bool) (last : Char) (cs : List Char) :
    (Numeral.spanFrom hex last cs).2 <:+ cs := by
  induction cs generalizing last with
  | nil => exact List.suffix_refl _
  | cons c cs ih =>
      rw [Numeral.spanFrom]
      split
      · exact (ih c).trans (List.suffix_cons c cs)
      · exact List.suffix_refl _

theorem Numeral.further_splitUnsigned {cs run rest : List Char}
    (h : Numeral.splitUnsigned cs = some (run, rest)) : Further 1 cs rest := by
  cases cs with
  | nil => cases h
  | cons c cs =>
      rw [Numeral.splitUnsigned] at h
      split at h
      · cases h
        exact further_of_suffix_tail (Numeral.suffix_spanFrom _ _ _)
      · cases h

theorem Numeral.further_split {cs run rest : List Char}
    (h : Numeral.split cs = some (run, rest)) : Further 1 cs rest := by
  unfold Numeral.split at h
  split at h
  · obtain ⟨⟨run', rest'⟩, hdigits, heq⟩ := Option.map_eq_some_iff.mp h
    cases heq
    exact further_of_suffix_tail (Numeral.further_splitUnsigned hdigits).suffix
  · exact Numeral.further_splitUnsigned h

theorem Quoted.suffix_read {cs s rest : List Char} (h : Quoted.read cs = .ok (s, rest)) :
    rest <:+ cs := by
  fun_induction Quoted.read cs generalizing s rest with
  | case1 => cases h
  | case2 r =>
      cases h
      exact List.suffix_cons _ r
  | case3 => cases h
  | case4 c r hc hq ih =>
      obtain ⟨⟨s', rest'⟩, hr, heq⟩ := map_eq_ok.mp h
      cases heq
      exact ((ih hr).trans (List.suffix_cons c r)).trans (List.suffix_cons _ _)
  | case5 => cases h
  | case6 c r hq hb ih =>
      obtain ⟨⟨s', rest'⟩, hr, heq⟩ := map_eq_ok.mp h
      cases heq
      exact (ih hr).trans (List.suffix_cons c r)

end Text

namespace Reader

variable {α β : Type} {m n : Nat} {size : Nat}

/-- A reader that succeeds has gone on by at least `n` bytes. -/
def Passes (n : Nat) (r : Reader α) : Prop :=
  ∀ ⦃s x s'⦄, r s = .ok (x, s') → Further n s.rest s'.rest

/-- The same, from one cursor. -/
def PassesFrom (s : Cursor) (n : Nat) (r : Reader α) : Prop :=
  ∀ ⦃x s'⦄, r s = .ok (x, s') → Further n s.rest s'.rest

/-! ## Steps -/

/-- The second reader goes on where the first one stopped. -/
theorem run_bind_eq_ok {r : Reader α} {f : α → Reader β} {s : Cursor} {q : β × Cursor} :
    (r >>= f) s = .ok q ↔ ∃ x s₁, r s = .ok (x, s₁) ∧ f x s₁ = .ok q := by
  show Except.bind (r s) (fun p => f p.1 p.2) = .ok q ↔ _
  refine bind_eq_ok.trans ⟨?_, ?_⟩
  · rintro ⟨⟨x, s₁⟩, hx, hf⟩
    exact ⟨x, s₁, hx, hf⟩
  · rintro ⟨x, s₁, hx, hf⟩
    exact ⟨⟨x, s₁⟩, hx, hf⟩

theorem Passes.mono {r : Reader α} (h : Passes n r) (hm : m ≤ n) : Passes m r :=
  fun _ _ _ hr => (h hr).mono hm

/-- What passes something has not gone back. -/
theorem Passes.onward {r : Reader α} (h : Passes n r) : Passes 0 r :=
  h.mono (Nat.zero_le n)

theorem Passes.bind {r : Reader α} {f : α → Reader β} (h : Passes m r) (hf : ∀ x, Passes n (f x)) :
    Passes (m + n) (r >>= f) := by
  intro s y s' hr
  obtain ⟨x, s₁, hx, hy⟩ := run_bind_eq_ok.mp hr
  exact (h hx).trans (hf x hy)

/-- What comes later does not go back. -/
theorem Passes.then {r : Reader α} {f : α → Reader β} (h : Passes n r) (hf : ∀ x, Passes 0 (f x)) :
    Passes n (r >>= f) :=
  h.bind hf

/-- What comes first does not go back. -/
theorem Passes.after {r : Reader α} {f : α → Reader β} (h : Passes 0 r)
    (hf : ∀ x, Passes n (f x)) : Passes n (r >>= f) :=
  (h.bind hf).mono (Nat.le_of_eq (Nat.zero_add n).symm)

theorem passes_pure (x : α) : Passes 0 (pure x) := by
  intro s y s' hr
  cases hr
  exact .refl _

theorem Passes.ite {c : Prop} [Decidable c] {a b : Reader α} (ha : Passes n a) (hb : Passes n b) :
    Passes n (if c then a else b) := by
  split
  · exact ha
  · exact hb

theorem passes_failAt {place : List Char} {fault : Fault} :
    Passes n (failAt (α := α) size place fault) :=
  nofun

/-- A reader that looks at the cursor only to see which way to go. -/
theorem passes_look {f : Cursor → Reader α} (h : ∀ s, Passes n (f s)) : Passes n (get >>= f) :=
  fun s _ _ hr => h s hr

theorem passes_get {f : Cursor → Reader α} (h : ∀ s, PassesFrom s n (f s)) : Passes n (get >>= f) :=
  fun s _ _ hr => h s hr

theorem Passes.from {r : Reader α} (h : Passes n r) (s : Cursor) : PassesFrom s n r :=
  fun _ _ hr => h hr

theorem passes_fail {fault : Fault} : Passes n (fail (α := α) size fault) :=
  passes_look fun _ => passes_failAt

theorem passes_unexpected {wanted : Wanted} : Passes n (unexpected (α := α) size wanted) :=
  passes_look fun _ => passes_fail

section

variable {s : Cursor} {rest : List Char} {f : Unit → Reader α}

theorem passesFrom_moveTo (h : Further n s.rest rest) (hf : Passes 0 (f ())) :
    PassesFrom s n (moveTo rest >>= f) := by
  intro x s' hr
  exact h.trans (hf (s := { s with rest := rest }) hr)

theorem passesFrom_moveTo_after (h : Further 0 s.rest rest) (hf : Passes n (f ())) :
    PassesFrom s n (moveTo rest >>= f) := by
  intro x s' hr
  exact (h.trans (hf (s := { s with rest := rest }) hr)).mono (Nat.le_of_eq (Nat.zero_add n).symm)

end

theorem passes_moveTo {f : List Char → List Char} (h : ∀ rest, Further n rest (f rest)) :
    Passes n (do moveTo (f (← get).rest)) := by
  intro s x s' hr
  cases hr
  exact h s.rest

/-- What happens to the brackets and to what is looked for moves nothing. -/
theorem passes_modify {f : Cursor → Cursor} (h : ∀ s, (f s).rest = s.rest) :
    Passes 0 (modify f : Reader Unit) := by
  intro s x s' hr
  cases hr
  show Further 0 s.rest (f s).rest
  rw [h]
  exact .refl _

theorem passes_expectNow (e : Expectation) : Passes 0 (expectNow e) :=
  passes_modify fun _ => rfl

theorem passes_peek : Passes 0 peek :=
  passes_look fun _ => passes_pure _

theorem passes_advance : Passes 0 advance :=
  passes_moveTo fun rest => further_of_suffix (List.tail_suffix rest)

theorem passes_skipBlanks : Passes 0 skipBlanks :=
  passes_moveTo (further_dropWhile isBlank)

theorem passes_next : Passes 0 next :=
  passes_skipBlanks.after fun _ => passes_peek

/-- Where no character is left to look at, the text is over. -/
theorem rest_of_next {s s' : Cursor} (h : next s = .ok (none, s')) : s'.rest = [] := by
  have hnext : next s =
      .ok ((dropBlanks s.rest).head?, { s with rest := dropBlanks s.rest }) := rfl
  obtain ⟨hhead, rfl⟩ := Prod.mk.inj (Except.ok.inj (hnext.symm.trans h))
  exact List.head?_eq_none_iff.mp hhead

/-! ## Punctuation -/

/-- Whether it passes the character or not, this never fails. -/
theorem eat_eq (c : Char) (s : Cursor) :
    eat c s = .ok (if (dropBlanks s.rest).head? = some c
      then (true, { s with rest := (dropBlanks s.rest).tail })
      else (false, { s with rest := dropBlanks s.rest })) := by
  show (if (dropBlanks s.rest).head? = some c then _ else _ : Reader Bool) _ = _
  split <;> rfl

theorem passes_eat (c : Char) : Passes 0 (eat c) :=
  passes_next.after fun _ =>
    Passes.ite (passes_advance.after fun _ => passes_pure _) (passes_pure _)

/-- A character that is found is passed. -/
theorem further_of_eat {c : Char} {s s' : Cursor} (h : eat c s = .ok (true, s')) :
    Further 1 s.rest s'.rest := by
  rw [eat_eq] at h
  split at h
  · next hhead =>
      cases h
      obtain ⟨cs, hcs⟩ := List.head?_eq_some_iff.mp hhead
      have htail := further_of_suffix_tail (x := c) (List.suffix_refl cs)
      have hblanks : Further 0 s.rest (c :: cs) := hcs ▸ further_dropWhile isBlank s.rest
      show Further 1 s.rest (dropBlanks s.rest).tail
      rw [hcs]
      exact hblanks.trans htail
  · cases h

theorem passes_ifEat {c : Char} {a b : Reader α} (ha : Passes 0 a) (hb : Passes 1 b) :
    Passes 1 (do if ← eat c then a else b) := by
  intro s x s' hr
  obtain ⟨found, s₁, hfound, hr⟩ := run_bind_eq_ok.mp hr
  cases found with
  | true => exact (further_of_eat hfound).trans (ha hr)
  | false => exact (passes_eat c hfound).trans (hb hr)

theorem passes_expect (c : Char) : Passes 1 (expect size c) :=
  passes_ifEat (passes_pure ()) passes_unexpected

theorem passes_openBracket (c : Char) : Passes 1 (openBracket size c) :=
  passes_skipBlanks.after fun _ => passes_look fun _ =>
    (passes_expect c).then fun _ => passes_modify fun _ => rfl

theorem passes_closeBracket : Passes 1 (closeBracket size) := by
  refine passes_look fun s => ?_
  split
  · exact passes_unexpected
  · exact passes_ifEat (passes_modify fun _ => rfl) passes_unexpected

/-- What ends with a bracket. -/
theorem passes_closing (x : α) : Passes 0 (do closeBracket size; return x) :=
  passes_closeBracket.onward.then fun _ => passes_pure _

/-- What stands between brackets. -/
theorem passes_between {r : Reader α} {f : α → β} (bracket : Char) (h : Passes 0 r) :
    Passes 1 (do
      openBracket size bracket
      let x ← r
      closeBracket size
      return f x) :=
  (passes_openBracket _).then fun _ => h.after fun _ => passes_closing _

/-! ## Lists -/

theorem passes_separatedLoop {r : Reader α} (separator : Char) (h : Passes n r) (fuel : Nat) :
    Passes n (separatedLoop separator r fuel) := by
  induction fuel with
  | zero => exact h.then fun _ => passes_pure _
  | succ fuel ih =>
      refine h.then fun _ => (passes_eat _).after fun _ => ?_
      exact (ih.onward.then fun _ => passes_pure _).ite (passes_pure _)

theorem passes_separated {r : Reader α} (separator : Char) (h : Passes n r) :
    Passes n (separated separator r) :=
  passes_look fun _ => passes_separatedLoop separator h _

theorem passes_separatedUnless {r : Reader α} (stop : Option Char → Bool) (separator : Char)
    (h : Passes 0 r) : Passes 0 (separatedUnless stop separator r) :=
  passes_next.after fun _ => (passes_pure _).ite (passes_separated separator h)

/-! ## Names -/

theorem passes_identifier : Passes 1 (identifier size) := by
  refine passes_skipBlanks.after fun _ => passes_get fun s => ?_
  dsimp only
  split
  · next hname => exact passesFrom_moveTo (further_name hname) (passes_pure _)
  · exact passes_unexpected.from s

theorem passes_path : Passes 1 (path size) := by
  refine passes_skipBlanks.after fun _ => passes_get fun s => ?_
  dsimp only
  split
  · next hname => exact passesFrom_moveTo (further_spanPath hname) (passes_pure _)
  · exact passes_unexpected.from s

theorem passes_markedName {wanted : Wanted} : Passes 1 (markedName size wanted) :=
  passes_advance.after fun _ => passes_look fun _ => passes_identifier.ite passes_unexpected

end Reader

namespace Decoding

variable {d : Decoding}

/-! ## Tokens -/

theorem passes_code (table : Table) : Passes 1 (d.code table) := by
  refine passes_skipBlanks.after fun _ => passes_look fun s => passes_markedName.ite ?_
  refine passes_identifier.then fun short => ?_
  split
  · exact passes_pure _
  · exact passes_failAt

theorem passes_propertyKey : Passes 1 d.propertyKey := by
  refine passes_next.after fun c => ?_
  split
  · exact passes_markedName.ite
      ((passes_identifier.then fun _ => passes_pure _).ite passes_unexpected)
  · exact passes_unexpected

theorem passes_string : Passes 1 d.string := by
  refine (passes_expect _).then fun _ => passes_look fun outer => ?_
  refine (passes_expectNow _).after fun _ => passes_get fun s => ?_
  split
  · next hread =>
      have hrest := further_of_suffix (Quoted.suffix_read hread)
      exact passesFrom_moveTo hrest ((passes_expectNow _).after fun _ => passes_pure _)
  · exact passes_failAt.from s

theorem passes_number : Passes 1 d.number := by
  refine passes_get fun s => ?_
  split
  · next hsplit => exact passesFrom_moveTo (Numeral.further_split hsplit) (passes_pure _)
  · exact passes_unexpected.from s

/-- The mark stands in front of the character that names a constant. -/
theorem further_constant {rest : List Char} {c : Scalar} (h : constant? rest.tail.head? = some c) :
    Further 1 rest rest.tail.tail := by
  cases rest with
  | nil => cases h
  | cons mark behind => exact further_of_suffix_tail (List.tail_suffix behind)

theorem passes_constant : Passes 1 d.constant := by
  refine passes_get fun s => ?_
  dsimp only
  split
  · next hconstant => exact passesFrom_moveTo (further_constant hconstant) (passes_pure _)
  · exact passes_fail.from s

theorem passes_foldedLiteral : Passes 1 d.foldedLiteral :=
  passes_advance.after fun _ => (passes_code _).then fun _ => passes_pure _

theorem passes_expression : Passes 1 d.expression :=
  passes_advance.after fun _ => passes_peek.after fun _ =>
    (passes_string.then fun _ => passes_pure _).ite passes_unexpected

/-! ## Types -/

theorem passes_typeRefWith {args : Reader (List TypeRef)} (h : Passes 0 args) :
    Passes 1 (d.typeRefWith args) :=
  (passes_code _).then fun _ => passes_next.after fun _ =>
    (h.then fun _ => passes_pure _).ite (passes_pure _)

theorem passes_typeArgs {arg : Reader TypeRef} (h : Passes 0 arg) : Passes 1 (d.typeArgs arg) :=
  passes_between '<' (passes_separated ',' h)

theorem passes_typeRef (levels : Nat) : Passes 1 (d.typeRef levels) := by
  induction levels with
  | zero => exact passes_typeRefWith passes_fail
  | succ levels ih =>
      exact passes_typeRefWith (passes_typeArgs ih.onward).onward

section

variable {value : Reader Value} {widget body : Reader Widget} {list : Reader (List Value)}

/-! ## References -/

theorem passes_argument (hv : Passes 0 value) : Passes 0 (d.argument value) := by
  refine passes_next.after fun c => ?_
  split
  · exact passes_pure _
  · exact passes_pure _
  · refine passes_look fun s => hv.then fun v => ?_
    split
    · exact passes_pure _
    · exact passes_failAt

theorem passes_arguments {arg : Reader (Option Scalar)} {tooMany : Reader (List (Option Scalar))}
    (h : Passes 0 arg) (htooMany : Passes 0 tooMany) (slots : Nat) :
    Passes 0 (arguments arg tooMany slots) := by
  induction slots with
  | zero => exact h.then fun _ => htooMany
  | succ slots ih =>
      refine h.then fun _ => (passes_eat _).after fun _ => ?_
      exact (ih.then fun _ => passes_pure _).ite (passes_pure _)

theorem passes_callArguments (hv : Passes 0 value) (entry : Entry) :
    Passes 0 (d.callArguments value entry) :=
  passes_next.after fun _ =>
    (passes_pure _).ite (passes_arguments (passes_argument hv) passes_fail _)

theorem passes_referenceFrom (hv : Passes 0 value) (start : List Char) :
    Passes 1 (d.referenceFrom value start) := by
  refine passes_get fun s => ?_
  refine passesFrom_moveTo_after (further_dropWhile _ _) (passes_unexpected.ite ?_)
  split
  · exact passes_failAt
  · refine (passes_openBracket _).then fun _ => (passes_callArguments hv _).after fun _ => ?_
    refine passes_closeBracket.onward.then fun _ => ?_
    split
    · exact passes_pure _
    · exact passes_failAt

theorem passes_reference (hv : Passes 0 value) : Passes 1 (d.reference value) :=
  passes_look fun _ => passes_advance.after fun _ => passes_referenceFrom hv _

/-! ## Widgets and values -/

theorem passes_property (hv : Passes 0 value) : Passes 1 (d.property value) :=
  (passes_expectNow _).after fun _ => passes_propertyKey.then fun _ =>
    (passes_expect _).onward.then fun _ => (passes_expectNow _).after fun _ =>
      hv.then fun _ => (passes_expectNow _).after fun _ => passes_pure _

theorem passes_properties (hv : Passes 0 value) : Passes 1 (d.properties value) :=
  (passes_openBracket _).then fun _ => (passes_expectNow _).after fun _ =>
    (passes_separatedUnless _ _ (passes_property hv).onward).after passes_closing

theorem passes_child (hw : Passes n widget) : Passes n (child widget) :=
  hw.then fun _ => (passes_expectNow _).after fun _ => passes_pure _

theorem passes_children (hw : Passes 0 widget) : Passes 1 (d.children widget) :=
  (passes_openBracket _).then fun _ => (passes_expectNow _).after fun _ =>
    (passes_separatedUnless _ _ (passes_child hw)).after passes_closing

/-- The name must be there, what stands behind it need not. -/
theorem passes_fullWidget (hv : Passes 0 value) (hw : Passes 0 widget) :
    Passes 1 (d.fullWidget value widget) := by
  refine (passes_code _).then fun t => passes_next.after fun c => ?_
  have hbehind (ps : List Property) : Passes 0 (do
      let ws ← if (← next) = some '[' then d.children widget else pure []
      return (⟨t, ps, ws⟩ : Widget)) :=
    passes_next.after fun _ =>
      ((passes_children hw).onward.then fun _ => passes_pure _).ite (passes_pure _)
  exact ((passes_properties hv).onward.then hbehind).ite
    ((passes_pure _).after hbehind)

theorem passes_widgetBody (hv : Passes 0 value) (hw : Passes 0 widget) :
    Passes 1 (d.widgetBody value widget) :=
  passes_peek.after fun _ => (passes_reference hv).ite (passes_fullWidget hv hw)

theorem passes_widgetWith (hb : Passes n body) : Passes n (d.widgetWith body) := by
  refine (passes_expectNow _).after fun _ => passes_next.after fun c => ?_
  split
  · exact hb.ite passes_unexpected
  · exact passes_unexpected

theorem passes_list (hv : Passes 0 value) : Passes 1 (d.list value) :=
  passes_between '[' (passes_separatedUnless _ ',' hv)

/-- When a bracket stands behind the name, the cursor goes back in front of the name. The widget
passes the name again, so counting starts from there. -/
theorem passes_nameOrWidget (hw : Passes 1 widget) : Passes 1 (d.nameOrWidget widget) := by
  refine passes_get fun s v s' hr => ?_
  obtain ⟨name, s₁, hname, hr⟩ := run_bind_eq_ok.mp hr
  obtain ⟨c, s₂, hnext, hr⟩ := run_bind_eq_ok.mp hr
  have hwidget : Passes 1 (widget >>= fun w => pure (Value.widget w)) :=
    hw.then fun _ => passes_pure _
  have hback (h : (widget >>= fun w => pure (Value.widget w)) { s₂ with rest := s.rest } =
      .ok (v, s')) : Further 1 s.rest s'.rest :=
    @hwidget { s₂ with rest := s.rest } v s' h
  split at hr
  · exact hback hr
  · exact hback hr
  · cases hr
    exact (passes_path hname).trans (passes_next hnext)

theorem passes_valueWith (hl : Passes 1 list) (hw : Passes 1 widget) :
    Passes 1 (d.valueWith list widget) := by
  refine passes_next.after fun c => ?_
  split
  · exact passes_string.then fun _ => passes_pure _
  · exact passes_constant.then fun _ => passes_pure _
  · exact passes_foldedLiteral.then fun _ => passes_pure _
  · exact passes_expression.then fun _ => passes_pure _
  · exact hl.then fun _ => passes_pure _
  · exact hw.then fun _ => passes_pure _
  · exact hw.then fun _ => passes_pure _
  · exact (passes_number.then fun _ => passes_pure _).ite
      ((passes_nameOrWidget hw).ite passes_unexpected)
  · exact passes_unexpected

theorem passes_value_widget (levels : Nat) :
    Passes 1 (d.value levels) ∧ Passes 1 (d.widget levels) := by
  induction levels with
  | zero =>
      have hwidget : Passes 1 (d.widget 0) := passes_widgetWith passes_fail
      exact ⟨passes_valueWith passes_fail hwidget, hwidget⟩
  | succ levels ih =>
      have hvalue := ih.1.onward
      have hwidget := ih.2.onward
      rw [value_succ, widget_succ]
      have hbody : Passes 1 (d.widgetWith (d.widgetBody (d.value levels) (d.widget levels))) :=
        passes_widgetWith (passes_widgetBody hvalue hwidget)
      exact ⟨passes_valueWith (passes_list hvalue) hbody, hbody⟩

theorem passes_value (levels : Nat) : Passes 1 (d.value levels) :=
  (passes_value_widget levels).1

theorem passes_widget (levels : Nat) : Passes 1 (d.widget levels) :=
  (passes_value_widget levels).2

end

/-! ## Declarations -/

theorem passes_modifier : Passes 1 d.modifier :=
  passes_advance.after fun _ => (passes_code _).then fun _ => passes_peek.after fun _ =>
    (passes_advance.after fun _ => passes_pure _).ite passes_unexpected

theorem passes_modifiersLoop (fuel : Nat) : Passes 0 (d.modifiersLoop fuel) := by
  induction fuel with
  | zero => exact passes_pure _
  | succ fuel ih =>
      refine passes_next.after fun _ => Passes.ite ?_ (passes_pure _)
      exact passes_modifier.onward.then fun _ => ih.then fun _ => passes_pure _

theorem passes_modifiers : Passes 0 d.modifiers :=
  passes_look fun _ => passes_modifiersLoop _

/-- Keywords that were read have been passed. -/
theorem further_of_modifiers {s s' : Cursor} {words : List String}
    (h : d.modifiers s = .ok (words, s')) (hwords : words ≠ []) : Further 1 s.rest s'.rest := by
  obtain ⟨c, s₁, hnext, h⟩ := run_bind_eq_ok.mp
    (show (next >>= fun c => if c = some '%' then _ else pure []) s = .ok (words, s') from h)
  split at h
  · have hword : Passes 1 (d.modifier >>= fun word =>
        d.modifiersLoop s.rest.length >>= fun words => pure (word :: words)) :=
      passes_modifier.then fun _ => (passes_modifiersLoop _).then fun _ => passes_pure _
    exact (passes_next hnext).trans (hword h)
  · cases h
    exact absurd rfl hwords

theorem passes_declaredType : Passes 0 d.declaredType :=
  (passes_eat _).after fun _ =>
    ((passes_typeRef _).onward.then fun _ => passes_pure _).ite (passes_pure _)

theorem passes_initializer : Passes 0 d.initializer :=
  (passes_eat _).after fun _ =>
    ((passes_value _).onward.then fun _ => passes_pure _).ite (passes_pure _)

theorem passes_field : Passes 1 d.field :=
  passes_modifiers.after fun _ => passes_identifier.then fun _ =>
    passes_declaredType.after fun _ => passes_initializer.after fun _ => passes_pure _

theorem passes_param : Passes 1 d.param :=
  passes_identifier.then fun _ => passes_declaredType.after fun _ => passes_pure _

theorem passes_statementValue : Passes 0 d.statementValue := by
  refine passes_next.after fun c => ?_
  split
  · exact passes_pure _
  · exact passes_pure _
  · exact (passes_value _).onward.then fun _ => passes_pure _

/-- A value that was read has been passed. -/
theorem further_of_statementValue {s s' : Cursor} {v : Value}
    (h : d.statementValue s = .ok (some v, s')) : Further 1 s.rest s'.rest := by
  obtain ⟨c, s₁, hnext, h⟩ := run_bind_eq_ok.mp h
  split at h
  · cases h
  · cases h
  · have hvalue : Passes 1 (d.value d.maxDepth >>= fun v => pure (some v)) :=
      (passes_value _).then fun _ => passes_pure _
    exact (passes_next hnext).trans (hvalue h)

/-- Keywords and value may each be missing, but not both. -/
theorem passes_statement : Passes 1 d.statement := by
  intro s statement s' hr
  obtain ⟨keywords, s₁, hkeywords, hr⟩ := run_bind_eq_ok.mp hr
  obtain ⟨value, s₂, hvalue, hr⟩ := run_bind_eq_ok.mp hr
  split at hr
  · cases hr
  · next hfull =>
      cases hr
      cases value with
      | some v => exact (passes_modifiers hkeywords).trans (further_of_statementValue hvalue)
      | none =>
          -- Without a value there must be keywords, or the statement would have been refused.
          have hwords : keywords ≠ [] := by
            rintro rfl
            exact hfull rfl
          exact (further_of_modifiers hkeywords hwords).trans (passes_statementValue hvalue)

theorem passes_statements : Passes 1 d.statements :=
  passes_between '{' (passes_separatedUnless _ ';' passes_statement.onward)

theorem passes_methodBody : Passes 1 d.methodBody := by
  refine passes_next.after fun c => ?_
  split
  · exact passes_advance.after fun _ => (passes_widget _).then fun _ => passes_pure _
  · exact passes_statements.then fun _ => passes_pure _
  · exact passes_unexpected

theorem passes_params : Passes 1 d.params :=
  passes_between '(' (passes_separatedUnless _ ',' passes_param.onward)

theorem passes_method : Passes 1 d.method :=
  passes_modifiers.after fun _ => passes_identifier.then fun _ =>
    passes_params.onward.then fun _ => passes_declaredType.after fun _ =>
      passes_methodBody.onward.then fun _ => passes_pure _

theorem passes_superType : Passes 0 d.superType :=
  passes_next.after fun _ => Passes.ite
    (passes_between '<' (passes_typeRef _).onward).onward
    (passes_pure _)

theorem passes_classDecl : Passes 1 d.classDecl :=
  passes_identifier.then fun _ => passes_superType.after fun _ =>
    (passes_expect _).onward.then fun _ =>
      (passes_separatedUnless _ ',' passes_field.onward).after fun _ =>
        (passes_expect _).onward.then fun _ =>
          (passes_separatedUnless _ ',' passes_method.onward).after fun _ =>
            passes_pure _

/-! ## Documents -/

theorem passes_declarationHeader : Passes 1 d.declarationHeader :=
  passes_identifier.then fun _ => (passes_expect _).onward

theorem passes_plainItem : Passes 1 d.plainItem := by
  refine passes_next.after fun c => Passes.ite ?_ ((passes_widget _).then fun _ => passes_pure _)
  refine (passes_value _).then fun v => ?_
  split
  · exact passes_pure _
  · exact passes_fail

theorem passes_item : Passes 1 d.item := by
  refine (passes_expectNow _).after fun _ => passes_look fun s => ?_
  have hheader := d.passes_declarationHeader
  split
  · exact hheader.then fun _ => passes_classDecl.onward.then fun _ => passes_pure _
  · exact hheader.then fun _ => passes_method.onward.then fun _ => passes_pure _
  · exact passes_fail
  · exact passes_fail
  · exact passes_plainItem

theorem passes_root : Passes 1 d.root :=
  passes_look fun _ => Passes.ite
    (passes_declarationHeader.then fun _ =>
      (passes_separated '|' passes_item).onward.then fun _ => passes_pure _)
    passes_item

/-- A document that is read is read to its end. -/
theorem rest_of_document {s s' : Cursor} {tree : Node} (h : d.document s = .ok (tree, s')) :
    s'.rest = [] := by
  obtain ⟨c, s₁, hfirst, h⟩ := run_bind_eq_ok.mp h
  split at h
  · next hc =>
      cases h
      exact rest_of_next (Option.isNone_iff_eq_none.mp hc ▸ hfirst)
  · obtain ⟨node, s₂, -, h⟩ := run_bind_eq_ok.mp h
    obtain ⟨c', s₃, hlast, h⟩ := run_bind_eq_ok.mp h
    split at h
    · cases h
    · next hc' =>
        cases h
        exact rest_of_next (Option.not_isSome_iff_eq_none.mp hc' ▸ hlast)

end Decoding

end WidgetShorthand
