import WidgetShorthand.Proofs.TokenReading

/-!
# What a text ends with

The beginning of a text says, without a look at what follows, which brackets it has left open and
what the next character would go on with: a name, a numeral, a string. `scan` works both out, one
character at a time. It knows the tokens of the notation and nothing of its grammar, so it can speak
about any text, also about one that stops in the middle of something.

A `-` is a sign of its own only where it is not part of a numeral, and a `.` belongs to a path, to a
numeral, or to a keyword; that is why the characters of a numeral are remembered, and for a name
whether it is a keyword.
-/

namespace WidgetShorthand

open Text

/-- What a text ends with. -/
inductive Ending where
  /-- Nothing that could be gone on with. -/
  | gap
  | name (keyword : Bool)
  /-- The mark of a keyword, and layout behind it. -/
  | percent
  /-- The mark in front of a name. -/
  | mark (keyword : Bool)
  /-- The mark in front of an expression or of a reference. -/
  | sigil
  | reference
  /-- The mark in front of a constant. -/
  | tilde
  /-- The sign in front of a numeral. -/
  | minus
  /-- The numeral so far, without its sign. -/
  | numeral (spelling : List Char)
  | dot
  | string
  /-- The mark in front of a character of a string. -/
  | escape
  /-- A mark was parted from what it has to stand in front of. This does not get well again. -/
  | torn
  deriving DecidableEq, Repr

namespace Ending

/-- What a token begins as. -/
def fresh (c : Char) : Ending :=
  if isNameStart c then .name false
  else if c.isDigit then .numeral [c]
  else match c with
    | '%' => .percent
    | '!' => .mark false
    | '&' | '@' => .sigil
    | '~' => .tilde
    | '-' => .minus
    | '.' => .dot
    | '"' => .string
    | _ => .gap

def step : Ending → Char → Ending
  | .gap, c | .dot, c => fresh c
  | .name keyword, c =>
    if isNameChar c then .name keyword
    else if keyword && c == '.' then .gap
    else fresh c
  | .percent, c =>
    if isBlank c then .percent
    else if c = '!' then .mark true
    else if isNameStart c then .name true
    else fresh c
  | .mark keyword, c =>
    if isBlank c then .torn
    else if isNameStart c then .name keyword
    else fresh c
  | .sigil, c =>
    if isBlank c then .torn
    else if isReferenceChar c then .reference
    else fresh c
  | .reference, c => if isReferenceChar c then .reference else fresh c
  | .tilde, c => if c == '1' || c == '0' || c == '_' then .gap else .torn
  | .minus, c => if isBlank c then .torn else fresh c
  | .numeral spelling, c =>
    if Numeral.isNumeral (spelling ++ [c]) then .numeral (spelling ++ [c]) else fresh c
  | .string, c =>
    if c = '"' then .gap
    else if c = '\\' then .escape
    else .string
  | .escape, _ => .string
  | .torn, _ => .torn

/-- Whether the text ends inside a string. -/
def quoted : Ending → Bool
  | .string | .escape => true
  | _ => false

/-- The endings that a reader comes to between two tokens, or behind a mark. -/
def calm : Ending → Bool
  | .tilde | .minus | .dot | .string | .escape | .torn => false
  | _ => true

end Ending

def isOpener (c : Char) : Bool :=
  c == '{' || c == '[' || c == '(' || c == '<'

def isBracket (c : Char) : Bool :=
  isOpener c || isCloser c

/-- What is known of a text that was seen from its beginning. -/
structure Scan where
  ending : Ending
  /-- The brackets that are open, innermost first. -/
  opened : List Char
  deriving DecidableEq, Repr

namespace Scan

def step (x : Scan) (c : Char) : Scan where
  ending := x.ending.step c
  opened :=
    if x.ending.quoted then x.opened
    else if isOpener c then c :: x.opened
    else if isCloser c then x.opened.tail
    else x.opened

def run (x : Scan) (text : List Char) : Scan :=
  text.foldl step x

end Scan

def scan (text : List Char) : Scan :=
  Scan.run ⟨.gap, []⟩ text

example : scan "!P\x7ba:[-1e-".toList = ⟨.numeral "1e-".toList, ['[', '{']⟩ := by decide +kernel

/-! ## Characters -/

theorem isBracket_eq_false {p : Char → Bool}
    (hp : ['{', '[', '(', '<', '}', ']', ')', '>'].all (fun c => !p c) = true) {c : Char}
    (hc : p c = true) : isBracket c = false := by
  rw [← Bool.not_eq_true]
  intro hb
  have hmem : among ['{', '[', '(', '<', '}', ']', ')', '>'] c = true := by
    simp only [isBracket, isOpener, isCloser, Bool.or_eq_true, beq_iff_eq] at hb
    rcases hb with (((rfl | rfl) | rfl) | rfl) | (((rfl | rfl) | rfl) | rfl) <;> decide
  have hnot := of_among hp hmem
  rw [hc] at hnot
  cases hnot

namespace Ending

theorem fresh_of_isNameStart {c : Char} (h : isNameStart c = true) : fresh c = .name false :=
  if_pos h

theorem fresh_of_isDigit {c : Char} (h : c.isDigit = true) : fresh c = .numeral [c] := by
  unfold fresh
  rw [isNameStart_of_isDigit h, if_neg Bool.false_ne_true, if_pos h]

theorem fresh_of_isBlank {c : Char} (h : isBlank c = true) : fresh c = .gap := by
  simp only [isBlank, Bool.or_eq_true, beq_iff_eq] at h
  rcases h with (((rfl | rfl) | rfl) | rfl) | rfl <;> decide

theorem quoted_of_calm {e : Ending} (h : e.calm = true) : e.quoted = false := by
  cases e <;> first | rfl | cases h

end Ending

/-! ## Runs -/

namespace Scan

variable {x : Scan} {o : List Char} {c : Char} {u v : List Char}

theorem run_cons : x.run (c :: u) = (x.step c).run u := rfl

theorem run_append : x.run (u ++ v) = (x.run u).run v :=
  List.foldl_append

theorem step_of_not_bracket (h : isBracket c = false) : x.step c = ⟨x.ending.step c, x.opened⟩ := by
  rw [isBracket, Bool.or_eq_false_iff] at h
  simp [step, h.1, h.2]

theorem step_of_quoted (h : x.ending.quoted = true) : x.step c = ⟨x.ending.step c, x.opened⟩ := by
  simp [step, h]

/-- The next character is all that counts. -/
theorem step_congr {e e' : Ending} (h : e.step c = e'.step c) (hq : e.quoted = e'.quoted) :
    step ⟨e, o⟩ c = step ⟨e', o⟩ c := by
  unfold step
  dsimp only
  rw [h, hq]

/-- Outside of strings and apart from brackets, nothing is opened or closed. -/
theorem opened_run (h : ∀ c ∈ u, isBracket c = false) : (x.run u).opened = x.opened := by
  induction u generalizing x with
  | nil => rfl
  | cons c u ih =>
      rw [List.forall_mem_cons] at h
      rw [run_cons, ih h.2, step_of_not_bracket h.1]

/-- Characters that an ending is gone on with. -/
theorem run_of_step {e : Ending} {p : Char → Bool} (hp : ∀ c, p c = true → isBracket c = false)
    (hstep : ∀ c, p c = true → e.step c = e) (hu : ∀ c ∈ u, p c = true) :
    run ⟨e, o⟩ u = ⟨e, o⟩ := by
  induction u with
  | nil => rfl
  | cons c u ih =>
      rw [List.forall_mem_cons] at hu
      rw [run_cons, step_of_not_bracket (hp c hu.1), hstep c hu.1]
      exact ih hu.2

/-! ### Layout and names -/

theorem isBracket_of_isBlank (c : Char) (h : isBlank c = true) : isBracket c = false :=
  isBracket_eq_false (by decide) h

theorem isBracket_of_isNameChar (c : Char) (h : isNameChar c = true) : isBracket c = false :=
  isBracket_eq_false (by decide) h

theorem isBracket_of_isReferenceChar (c : Char) (h : isReferenceChar c = true) :
    isBracket c = false :=
  isBracket_eq_false (by decide) h

theorem run_blanks (hu : ∀ c ∈ u, isBlank c = true) : run ⟨.gap, o⟩ u = ⟨.gap, o⟩ :=
  run_of_step isBracket_of_isBlank (fun _ => Ending.fresh_of_isBlank) hu

theorem run_percent_blanks (hu : ∀ c ∈ u, isBlank c = true) : run ⟨.percent, o⟩ u = ⟨.percent, o⟩ :=
  run_of_step isBracket_of_isBlank (fun _ h => if_pos h) hu

theorem run_nameChars {keyword : Bool} (hu : ∀ c ∈ u, isNameChar c = true) :
    run ⟨.name keyword, o⟩ u = ⟨.name keyword, o⟩ :=
  run_of_step isBracket_of_isNameChar (fun _ h => if_pos h) hu

theorem isBlank_of_isReferenceChar (h : isReferenceChar c = true) : isBlank c = false := by
  have hname : isNameChar c = true := by
    simp only [isReferenceChar, isNameChar, Bool.or_eq_true] at h ⊢
    exact .inl h
  simpa [isSolid] using isSolid_of_isNameChar hname

/-- The id of a reference behind its mark. -/
theorem run_reference (hu : ∀ c ∈ u, isReferenceChar c = true) (hne : u ≠ []) :
    run ⟨.sigil, o⟩ u = ⟨.reference, o⟩ := by
  cases u with
  | nil => exact absurd rfl hne
  | cons c u =>
      rw [List.forall_mem_cons] at hu
      have hc : Ending.sigil.step c = .reference := by
        show (if isBlank c = true then _ else _) = _
        rw [isBlank_of_isReferenceChar hu.1, if_neg Bool.false_ne_true, if_pos hu.1]
      rw [run_cons, step_of_not_bracket (isBracket_of_isReferenceChar c hu.1), hc]
      exact run_of_step isBracket_of_isReferenceChar (fun _ h => if_pos h) hu.2

/-- A name, from any ending that a name can follow. -/
theorem run_name {e : Ending} {keyword : Bool} (hc : e.step c = .name keyword)
    (hu : ∀ d ∈ c :: u, isNameChar d = true) : run ⟨e, o⟩ (c :: u) = ⟨.name keyword, o⟩ := by
  rw [List.forall_mem_cons] at hu
  rw [run_cons, step_of_not_bracket (isBracket_of_isNameChar c hu.1), hc]
  exact run_nameChars hu.2

/-- The character that a name begins with, where there is no mark in front of it. -/
theorem step_nameStart {e : Ending} (he : ∀ c, isNameStart c = true → e.step c = .name false)
    (h : isNameStart c = true) : step ⟨e, o⟩ c = ⟨.name false, o⟩ := by
  rw [step_of_not_bracket (isBracket_of_isNameChar c (isNameChar_of_isNameStart h)), he c h]

theorem run_spanPath_behind (cs : List Char) :
    run ⟨.name false, o⟩ (spanPath cs).1 = ⟨.name false, o⟩ := by
  induction cs with
  | nil => rfl
  | cons c cs ih =>
      rw [spanPath]
      split
      · next hc =>
          rw [run_cons]
          rcases (Bool.or_eq_true ..).mp hc with hname | hdot
          · rw [step_of_not_bracket (isBracket_of_isNameChar c hname),
              show (Ending.name false).step c = _ from if_pos hname]
            exact ih
          · rw [Bool.and_eq_true, beq_iff_eq] at hdot
            obtain ⟨rfl, hstart⟩ := hdot
            cases cs with
            | nil => cases hstart
            | cons d cs =>
                -- Behind the dot a name begins, and it would not matter if it went on there.
                have hd : isNameChar d = true := isNameChar_of_isNameStart hstart
                simp only [spanPath, hd, Bool.true_or, if_true, run_cons] at ih ⊢
                have hname := step_nameStart (o := o) (e := .name false)
                  (fun c h => if_pos (isNameChar_of_isNameStart h)) hstart
                have hdot : step (step ⟨.name false, o⟩ '.') d = ⟨.name false, o⟩ :=
                  step_nameStart (e := .dot) (fun c h => Ending.fresh_of_isNameStart h) hstart
                rw [hname] at ih
                rw [hdot]
                exact ih
      · rfl

theorem run_spanPath {cs : List Char} (h : startsName cs = true) :
    run ⟨.gap, o⟩ (spanPath cs).1 = ⟨.name false, o⟩ := by
  cases cs with
  | nil => cases h
  | cons c cs =>
      have hc : isNameChar c = true := isNameChar_of_isNameStart h
      simp only [spanPath, hc, Bool.true_or, if_true]
      rw [run_cons, step_nameStart (fun _ => Ending.fresh_of_isNameStart) h]
      exact run_spanPath_behind cs

end Scan

/-! ### Numerals -/

namespace Text.Numeral

variable {c : Char} {r v run left : List Char}

theorem ends_eq_false_of_continues {hex : Bool} {last : Char} (h : continues hex last c = true) :
    ends c = false := by
  rw [← Bool.not_eq_true]
  intro hends
  rw [continues_of_ends hends] at h
  cases h

/-- What goes on as one numeral has no character in it that would end one. -/
theorem ends_eq_false_of_spanFrom {hex : Bool} {last : Char} (h : (spanFrom hex last r).2 = []) :
    ∀ c ∈ r, ends c = false := by
  induction r generalizing last with
  | nil => exact nofun
  | cons c r ih =>
      simp only [spanFrom] at h
      split at h
      · next hc => exact List.forall_mem_cons.mpr ⟨ends_eq_false_of_continues hc, ih h⟩
      · cases h

/-- What goes on as one numeral does so up to any place in it. -/
theorem spanFrom_eq_nil_of_append {hex : Bool} {last : Char}
    (h : (spanFrom hex last (r ++ v)).2 = []) : (spanFrom hex last r).2 = [] := by
  induction r generalizing last with
  | nil => rfl
  | cons c r ih =>
      simp only [List.cons_append, spanFrom] at h ⊢
      split at h
      · next hc =>
          rw [if_pos hc]
          exact ih h
      · cases h

/-- The character that ends a numeral does not belong to it when it is the last one either. -/
theorem spanFrom_ne_nil_of_append {hex : Bool} {last : Char}
    (h : spanFrom hex last (r ++ c :: v) = (r, c :: v)) :
    (spanFrom hex last (r ++ [c])).2 ≠ [] := by
  induction r generalizing last with
  | nil =>
      simp only [List.nil_append, spanFrom] at h ⊢
      split at h
      · cases h
      · next hc =>
          rw [if_neg hc]
          exact List.cons_ne_nil c []
  | cons d r ih =>
      simp only [List.cons_append, spanFrom] at h ⊢
      split at h
      · next hd =>
          rw [if_pos hd]
          obtain ⟨hrun, hleft⟩ := Prod.mk.inj h
          have hspan : spanFrom hex d (r ++ c :: v) = (r, c :: v) :=
            Prod.ext (List.cons.inj hrun).2 hleft
          exact ih hspan
      · cases h

theorem isNumeral_cons (hc : c.isDigit = true) :
    isNumeral (c :: r) = true ↔ (spanFrom (isHex c r) c r).2 = [] := by
  have hminus : c ≠ '-' := by
    rintro rfl
    exact absurd hc (by decide)
  rw [isNumeral, split_of_ne_minus (by simpa using hminus)]
  simp only [splitUnsigned, hc, if_true]
  split
  · next hsplit => simp_all
  · next hsplit => simpa using fun hnil => hsplit _ (by rw [hnil])

theorem isNumeral_of_append (hc : c.isDigit = true) (h : isNumeral (c :: (r ++ v)) = true) :
    isNumeral (c :: r) = true := by
  rw [isNumeral_cons hc] at h ⊢
  cases r with
  | nil => rfl
  | cons d r => exact spanFrom_eq_nil_of_append h

/-- A numeral ends where nothing can be added to it. -/
theorem isNumeral_append_eq_false (h : splitUnsigned r = some (run, c :: left)) :
    isNumeral (run ++ [c]) = false := by
  have hconcat := splitUnsigned_concat h
  cases r with
  | nil => cases h
  | cons d r =>
      simp only [splitUnsigned] at h
      split at h
      · next hd =>
          obtain ⟨u, hu⟩ : ∃ u, (spanFrom (isHex d r) d r).1 = u := ⟨_, rfl⟩
          rw [hu] at h
          obtain ⟨rfl, hleft⟩ := Prod.mk.inj (Option.some.inj h)
          have hspan : spanFrom (isHex d r) d r = (u, c :: left) := Prod.ext hu hleft
          obtain rfl : u ++ c :: left = r := (List.cons.inj hconcat).2
          have hhex : isHex d (u ++ c :: left) = isHex d (u ++ [c]) := by cases u <;> rfl
          rw [hhex] at hspan
          rw [← Bool.not_eq_true, List.cons_append, isNumeral_cons hd]
          exact spanFrom_ne_nil_of_append hspan
      · cases h

end Text.Numeral

namespace Scan

variable {x : Scan} {o : List Char} {c : Char} {u v : List Char}

theorem isBracket_of_not_ends (h : Numeral.ends c = false) : isBracket c = false :=
  isBracket_eq_false (p := fun c => !Numeral.ends c) (by decide) (by rw [h]; rfl)

/-- Each character of a numeral makes a longer numeral of what stands before it. -/
theorem run_numeral (hc : c.isDigit = true) (h : Numeral.isNumeral (c :: u) = true) :
    run ⟨.gap, o⟩ (c :: u) = ⟨.numeral (c :: u), o⟩ := by
  have hinside := Numeral.ends_eq_false_of_spanFrom ((Numeral.isNumeral_cons hc).mp h)
  have hbracket : isBracket c = false := isBracket_eq_false (p := Char.isDigit) (by decide) hc
  induction u using List.reverseRecOn with
  | nil =>
      rw [run_cons, step_of_not_bracket hbracket]
      simp only [Ending.step, Ending.fresh_of_isDigit hc]
      rfl
  | append_singleton u d ih =>
      rw [List.forall_mem_append] at hinside
      have hd := isBracket_of_not_ends (hinside.2 d List.mem_cons_self)
      rw [← List.cons_append, run_append, ih (Numeral.isNumeral_of_append hc h) hinside.1]
      rw [run_cons, step_of_not_bracket hd]
      simp only [Ending.step, List.cons_append, h, if_true]
      rfl

/-! ### Strings -/

/-- The body of a string, up to the quote behind it. -/
theorem run_read {cs s rest : List Char} (h : Quoted.read cs = .ok (s, rest)) :
    ∃ body, cs = body ++ rest ∧ run ⟨.string, o⟩ body = ⟨.gap, o⟩ := by
  fun_induction Quoted.read cs generalizing s rest with
  | case1 => cases h
  | case2 r =>
      cases h
      exact ⟨['"'], rfl, rfl⟩
  | case3 => cases h
  | case4 c r hc hq ih =>
      obtain ⟨⟨s', rest'⟩, hr, heq⟩ := map_eq_ok.mp h
      cases heq
      obtain ⟨body, rfl, hrun⟩ := ih hr
      refine ⟨'\\' :: c :: body, rfl, ?_⟩
      rw [run_cons, run_cons, step_of_quoted rfl, step_of_quoted rfl]
      exact hrun
  | case5 => cases h
  | case6 c r hq hb ih =>
      obtain ⟨⟨s', rest'⟩, hr, heq⟩ := map_eq_ok.mp h
      cases heq
      obtain ⟨body, rfl, hrun⟩ := ih hr
      refine ⟨c :: body, rfl, ?_⟩
      rw [run_cons, step_of_quoted rfl]
      simp only [Ending.step, hq, hb, if_false]
      exact hrun

/-- What ends inside a string, or behind the mark of one of its characters. -/
theorem run_read_error {cs place : List Char} {fault : Quoted.Fault}
    (h : Quoted.read cs = .error (fault, place)) (hfault : ∀ c, fault ≠ .badEscape c) :
    ∃ e : Ending, e.quoted = true ∧ run ⟨.string, o⟩ cs = ⟨e, o⟩ := by
  fun_induction Quoted.read cs generalizing fault place with
  | case1 => exact ⟨.string, rfl, rfl⟩
  | case2 => cases h
  | case3 => exact ⟨.escape, rfl, rfl⟩
  | case4 c r hc hq ih =>
      obtain ⟨e, he, hrun⟩ := ih (map_eq_error.mp h) hfault
      refine ⟨e, he, ?_⟩
      rw [run_cons, run_cons, step_of_quoted rfl, step_of_quoted rfl]
      exact hrun
  | case5 c r =>
      cases h
      exact absurd rfl (hfault c)
  | case6 c r hq hb ih =>
      obtain ⟨e, he, hrun⟩ := ih (map_eq_error.mp h) hfault
      refine ⟨e, he, ?_⟩
      rw [run_cons, step_of_quoted rfl]
      simp only [Ending.step, hq, hb, if_false]
      exact hrun

end Scan

end WidgetShorthand
