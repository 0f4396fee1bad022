import WidgetShorthand.Proofs.DecodingEnds
import WidgetShorthand.Proofs.ScalarTexts
import WidgetShorthand.Proofs.TextEndings

/-!
# Reading what is left of a text

A text is cut in two, and a reader that reads the whole is compared with one that is given the first
part only. Up to the cut they do the same. What happens there is decided by what the first part ends
with: the second reader finds nothing where the first one goes on, and since a bracket is open it
has to fail, sooner or later. `Lockstep` says both, that the second reader follows the first one to
the cut, and that at the cut it stops without passing anything or fails with a fault that the cut
explains.

Two things complicate this. A token may be cut, and what is left of it may be a token too, so that
the second reader comes to the end with another result; it does not matter, since nothing is read
any more. And a dot that belongs to a path only together with what follows is left over when the
path is cut behind it, so a reader may be stuck in front of a single dot as well (`Stuck`).
-/

namespace WidgetShorthand

open Text Reader

/-! ## Runs up to a cut -/

section

variable {p : Char → Bool} {c : Char} {u v : List Char}

theorem takeWhile_append_of_ne (h : u.dropWhile p ≠ []) :
    (u ++ v).takeWhile p = u.takeWhile p := by
  rw [List.takeWhile_append]
  split
  · next hlen =>
      have hsplit := congrArg List.length (List.takeWhile_append_dropWhile (p := p) (l := u))
      rw [List.length_append, hlen] at hsplit
      exact absurd (List.length_eq_zero_iff.mp (by omega)) h
  · rfl

theorem dropWhile_append_of_ne (h : u.dropWhile p ≠ []) :
    (u ++ v).dropWhile p = u.dropWhile p ++ v := by
  rw [List.dropWhile_append, if_neg (by simpa using h)]

theorem takeWhile_of_dropWhile_eq_nil (h : u.dropWhile p = []) : u.takeWhile p = u :=
  List.takeWhile_eq_self_iff.mpr (List.dropWhile_eq_nil_iff.mp h)

/-- A run that goes on behind the cut. -/
theorem starts_of_takeWhile_ne (h : u.dropWhile p = []) (hne : (u ++ v).takeWhile p ≠ u) :
    Starts p v := by
  have hall : ∀ c ∈ u, p c = true := by rwa [List.dropWhile_eq_nil_iff] at h
  rw [List.takeWhile_append_of_pos hall] at hne
  cases v with
  | nil => exact absurd (List.append_nil u) hne
  | cons c v =>
      by_cases hc : p c = true
      · exact hc
      · rw [List.takeWhile_cons_of_neg hc, List.append_nil] at hne
        exact absurd rfl hne

theorem eq_false_of_dropWhile (h : u.dropWhile p = c :: v) : p c = false := by
  have hhead := List.head?_dropWhile_not p u
  rw [h] at hhead
  exact hhead

end

/-! ## Faults at a cut -/

/-- The cursor in the whole text, where `lost` is what was cut off. -/
def Cursor.restored (t : Cursor) (lost : List Char) : Cursor where
  rest := t.rest ++ lost
  opened := t.opened.map fun o => { o with start := o.start ++ lost }
  expecting := t.expecting

def Cursor.brackets (t : Cursor) : List Char :=
  t.opened.map (·.bracket)

theorem Cursor.rest_restored (t : Cursor) (lost : List Char) :
    (t.restored lost).rest = t.rest ++ lost :=
  rfl

theorem Cursor.rest_restored_of_cons {t : Cursor} {c : Char} {u : List Char}
    (h : t.rest = c :: u) (lost : List Char) : (t.restored lost).rest = c :: (u ++ lost) := by
  rw [rest_restored, h, List.cons_append]

/-- The fault of a code, or of the id of a reference, of which only the beginning is left. -/
inductive CutName (left lost : List Char) : Fault → Prop where
  | code (category : Category) (short : String) (hname : startsName short.toList = true)
      (hleft : short.toList <:+ left) (hlost : Starts isNameChar lost) :
      CutName left lost (.unknownCode category short)
  | reference (id : String) (hleft : '@' :: id.toList <:+ left)
      (hlost : Starts isReferenceChar lost) :
      CutName left lost (.unknownReference id)

/-- The faults that a cut between two texts leads to. -/
def CutFault (left lost : List Char) (fault : Fault) : Prop :=
  match (scan left).ending with
  | .string | .escape => fault.kind = .unterminatedString
  | .tilde | .minus | .dot => fault.kind = .unexpectedToken
  | _ => fault.kind = .unbalancedBracket ∨ CutName left lost fault

/-- If a bracket is open at the cut, the fault comes from the cut. -/
def Explained (left lost : List Char) (error : ParseError) : Prop :=
  (scan left).opened ≠ [] → CutFault left lost error.fault

/-! ## Where a cursor is -/

/-- What the text says up to a rest of it. -/
def Scanned (text rest : List Char) (x : Scan) : Prop :=
  ∃ seen, text = seen ++ rest ∧ scan seen = x

theorem Scanned.run {text u rest : List Char} {x : Scan} (h : Scanned text (u ++ rest) x) :
    Scanned text rest (x.run u) := by
  obtain ⟨seen, rfl, rfl⟩ := h
  exact ⟨seen ++ u, (List.append_assoc ..).symm, Scan.run_append⟩

theorem Scanned.at_end {text : List Char} {x : Scan} (h : Scanned text [] x) : scan text = x := by
  obtain ⟨seen, rfl, rfl⟩ := h
  rw [List.append_nil]

theorem Scanned.suffix {text rest : List Char} {x : Scan} (h : Scanned text rest x) :
    rest <:+ text := by
  obtain ⟨seen, rfl, -⟩ := h
  exact List.suffix_append _ _

/-- The cursor stands between two tokens of the text, or at its end, and its brackets are those that
the text has open. -/
structure Fits (text : List Char) (t : Cursor) : Prop where
  scanned : ∃ e : Ending, Scanned text t.rest ⟨e, t.brackets⟩ ∧ e.calm = true ∧
    ∀ c r, t.rest = c :: r → e.step c = .fresh c

/-- What a reader has come to that cannot go on: the end, or what is left of a cut path. -/
def Stuck (rest : List Char) : Prop :=
  rest = [] ∨ rest = ['.']

section

variable {text rest : List Char} {t t' : Cursor}

theorem Fits.congr (h : Fits text t) (hrest : t'.rest = t.rest) (hopened : t'.opened = t.opened) :
    Fits text t' := by
  obtain ⟨e, hs, hcalm, hfresh⟩ := h.scanned
  exact ⟨e, by rwa [hrest, Cursor.brackets, hopened], hcalm, by rwa [hrest]⟩

/-- What comes next is read as it would be behind layout. -/
theorem Fits.passed (h : Fits text t) {c : Char} {u : List Char} (ht : t.rest = c :: u ++ rest) :
    Scanned text rest (Scan.run ⟨.gap, t.brackets⟩ (c :: u)) := by
  obtain ⟨e, hs, hcalm, hfresh⟩ := h.scanned
  rw [ht] at hs
  have hstep : Scan.step ⟨e, t.brackets⟩ c = Scan.step ⟨.gap, t.brackets⟩ c :=
    Scan.step_congr (hfresh c _ ht) (Ending.quoted_of_calm hcalm)
  have hrun := hs.run
  rwa [Scan.run_cons, hstep] at hrun

theorem Fits.passed_char (h : Fits text t) {c : Char} (ht : t.rest = c :: rest) :
    Scanned text rest (Scan.step ⟨.gap, t.brackets⟩ c) :=
  h.passed (u := []) ht

theorem fits_of_gap (h : Scanned text t.rest ⟨.gap, t.brackets⟩) : Fits text t :=
  ⟨.gap, h, rfl, fun _ _ _ => rfl⟩

theorem Fits.dropBlanks (h : Fits text t) :
    Fits text { t with rest := dropBlanks t.rest } := by
  have hsplit : t.rest.takeWhile isBlank ++ Text.dropBlanks t.rest = t.rest :=
    List.takeWhile_append_dropWhile
  cases hblanks : t.rest.takeWhile isBlank with
  | nil =>
      rw [hblanks, List.nil_append] at hsplit
      exact h.congr hsplit rfl
  | cons c u =>
      rw [hblanks] at hsplit
      have hs := h.passed hsplit.symm
      rw [Scan.run_blanks (hblanks ▸ fun c hc => List.mem_takeWhile_imp hc)] at hs
      exact fits_of_gap hs

/-- A character that is a token of its own, and not the dot of a path. -/
def isPlain (c : Char) : Bool :=
  decide (Ending.fresh c = .gap) && !isBracket c

theorem Fits.punctuation (h : Fits text t) {c : Char} {u : List Char} (ht : t.rest = c :: u)
    (hc : isPlain c = true) : Fits text { t with rest := u } := by
  rw [isPlain, Bool.and_eq_true, decide_eq_true_eq, Bool.not_eq_true'] at hc
  have hs := h.passed_char ht
  rw [Scan.step_of_not_bracket hc.2] at hs
  exact ⟨.gap, hc.1 ▸ hs, rfl, fun _ _ _ => rfl⟩

theorem ne_dot_of_isPlain {c : Char} (hc : isPlain c = true) : c ≠ '.' := by
  rintro rfl
  exact absurd hc (by decide)

/-- A fault of finding nothing is explained by the cut, if the text was over. -/
theorem explained_of_end {lost : List Char} {e : Ending} (hs : Scanned text t.rest ⟨e, t.brackets⟩)
    (hcalm : e.calm = true) (hend : t.rest = []) (size position : Nat) (wanted : Wanted) :
    Explained text lost ⟨position, unexpectedFault size t wanted⟩ := by
  rw [hend] at hs
  intro hopened
  rw [hs.at_end] at hopened
  have hkind : (unexpectedFault size t wanted).kind = .unbalancedBracket := by
    unfold unexpectedFault
    rw [hend]
    cases ho : t.opened with
    | nil => exact absurd (by rw [Cursor.brackets, ho]; rfl) hopened
    | cons o os => rfl
  rw [CutFault, hs.at_end]
  cases e <;> first | exact .inl hkind | cases hcalm

theorem explained_of_stuck (h : Fits text t) (hstuck : Stuck t.rest) (lost : List Char)
    (size position : Nat) (wanted : Wanted) :
    Explained text lost ⟨position, unexpectedFault size t wanted⟩ := by
  rcases hstuck with hend | hdot
  · obtain ⟨e, hs, hcalm, -⟩ := h.scanned
    exact explained_of_end hs hcalm hend size position wanted
  · -- The text ends with the dot, and it is what is found instead of what is wanted.
    have hs := h.passed_char hdot
    intro _
    have hending : (scan text).ending = .dot := by rw [hs.at_end]; rfl
    rw [CutFault, hending]
    show (unexpectedFault size t wanted).kind = .unexpectedToken
    unfold unexpectedFault
    rw [hdot]
    rfl

end

namespace Reader

variable {α β : Type} {left lost : List Char}

/-! ## Lockstep -/

/-- What may come of a reader that is stuck: it passes nothing, or it fails because of the cut. -/
def Halted (left lost : List Char) (t : Cursor) : Except ParseError (α × Cursor) → Prop
  | .ok (_, t') => t'.rest = t.rest ∧ t'.opened = t.opened
  | .error error => Explained left lost error

/-- What may come of a reader at `t`, where on the whole text the answer is `x` and the cursor is
left at `s'`: the same, unless it gets stuck or fails because of the cut. -/
def Outcome (left lost : List Char) (t : Cursor) (x : α) (s' : Cursor) :
    Except ParseError (α × Cursor) → Prop
  | .ok (y, t') =>
    t'.opened = t.opened ∧ Fits left t' ∧ (y = x ∧ t'.restored lost = s' ∨ Stuck t'.rest)
  | .error error => Explained left lost error

/-- On what is left of the text the second reader does what the first one does on the whole, as far
as the cut. This is about the cursors that satisfy a condition. -/
def Tracks (left lost : List Char) (P : Cursor → Prop) (r r' : Reader α) : Prop :=
  ∀ ⦃t⦄, P t → Fits left t → ∀ ⦃x s'⦄, r (t.restored lost) = .ok (x, s') →
    Outcome left lost t x s' (r' t)

def Halts (left lost : List Char) (P : Cursor → Prop) (r : Reader α) : Prop :=
  ∀ ⦃t⦄, P t → Fits left t → Stuck t.rest → Halted left lost t (r t)

/-- The second reader goes with the first one up to the cut and stops there. -/
structure Lockstep (left lost : List Char) (P : Cursor → Prop) (r r' : Reader α) : Prop where
  follows : Tracks left lost P r r'
  halts : Halts left lost P r'

/-- No condition. -/
abbrev Anywhere : Cursor → Prop :=
  fun _ => True

/-- What the cursor is in front of: a certain character, or nothing. -/
def Ahead (c : Option Char) (t : Cursor) : Prop :=
  t.rest.head? = c

abbrev At (c : Char) : Cursor → Prop :=
  Ahead (some c)

abbrev AtEnd : Cursor → Prop :=
  Ahead none

/-- The condition is on the open brackets. -/
def Kept (P : Cursor → Prop) : Prop :=
  ∀ ⦃t t' : Cursor⦄, t'.opened = t.opened → P t → P t'

theorem kept_anywhere : Kept Anywhere :=
  fun _ _ _ _ => trivial

/-! ### Outcomes -/

section

variable {t t₁ : Cursor} {x : α} {s' : Cursor} {result : Except ParseError (α × Cursor)}

/-- What was done before has moved the cursor and left its brackets. -/
theorem Outcome.before (h : Outcome left lost t₁ x s' result) (hopened : t₁.opened = t.opened) :
    Outcome left lost t x s' result := by
  cases result with
  | error error => exact h
  | ok q => exact ⟨h.1.trans hopened, h.2⟩

/-- At a place where a reader is stuck it does not matter what the first reader would do. -/
theorem Halted.outcome (h : Halted left lost t result) (ht : Fits left t) (hstuck : Stuck t.rest) :
    Outcome left lost t x s' result := by
  cases result with
  | error error => exact h
  | ok q =>
      obtain ⟨hrest, hopened⟩ := h
      exact ⟨hopened, ht.congr hrest hopened, .inr (hrest ▸ hstuck)⟩

theorem Halted.before (h : Halted left lost t₁ result) (hrest : t₁.rest = t.rest)
    (hopened : t₁.opened = t.opened) : Halted left lost t result := by
  cases result with
  | error error => exact h
  | ok q => exact ⟨h.1.trans hrest, h.2.trans hopened⟩

end

/-! ### Steps -/

section

variable {P Q : Cursor → Prop} {r r' : Reader α} {t : Cursor}

theorem Lockstep.mono (h : Lockstep left lost P r r') (hQ : ∀ t, Q t → P t) :
    Lockstep left lost Q r r' :=
  ⟨fun _ ht => h.follows (hQ _ ht), fun _ ht => h.halts (hQ _ ht)⟩

theorem Lockstep.at (h : Lockstep left lost Anywhere r r') : Lockstep left lost P r r' :=
  h.mono fun _ _ => trivial

/-- A single dot and the end are the only places to get stuck. -/
theorem not_stuck_of_ahead {c : Char} (hat : Ahead (some c) t) (hc : c ≠ '.') : ¬Stuck t.rest := by
  rintro (hend | hdot)
  · exact absurd ((congrArg List.head? hend).symm.trans hat) nofun
  · have heq : some '.' = some c := (congrArg List.head? hdot).symm.trans hat
    exact hc (Option.some.inj heq).symm

theorem halts_at {c : Char} (hc : c ≠ '.') (r : Reader α) : Halts left lost (At c) r :=
  fun _ hat _ hstuck => absurd hstuck (not_stuck_of_ahead hat hc)

theorem halts_pure (x : α) : Halts left lost P (pure x) :=
  fun _ _ _ _ => ⟨rfl, rfl⟩

theorem lockstep_pure (x : α) : Lockstep left lost P (pure x) (pure x) where
  follows t _ ht y s' hr := by
    cases hr
    exact ⟨rfl, ht, .inl ⟨rfl, rfl⟩⟩
  halts := halts_pure x

/-- What is known of an answer may be used by the reader that goes on with it. -/
theorem Halts.bind {Q : α → Cursor → Prop} {f' : α → Reader β} (h : Halts left lost P r')
    (hQ : ∀ ⦃t x t'⦄, P t → r' t = .ok (x, t') → t'.opened = t.opened → Q x t')
    (hf : ∀ x, Halts left lost (Q x) (f' x)) : Halts left lost P (r' >>= f') := by
  intro t hP ht hstuck
  have hout := h hP ht hstuck
  cases hx' : r' t with
  | error error =>
      rw [run_bind_of_error hx']
      rwa [hx'] at hout
  | ok q =>
      obtain ⟨x', t₁⟩ := q
      rw [hx'] at hout
      obtain ⟨hrest, hopened⟩ := hout
      have hout' := hf x' (hQ hP hx' hopened) (ht.congr hrest hopened) (hrest ▸ hstuck)
      rw [run_bind_of_ok hx']
      exact hout'.before hrest hopened

theorem Outcome.bind {Q : α → Cursor → Prop} {f f' : α → Reader β} {t s₁ s' : Cursor} {x : α}
    {y : β} (h : Outcome left lost t x s₁ (r' t))
    (hQ : ∀ ⦃x t'⦄, r' t = .ok (x, t') → t'.opened = t.opened → Q x t')
    (hf : ∀ x, Lockstep left lost (Q x) (f x) (f' x)) (hr : f x s₁ = .ok (y, s')) :
    Outcome left lost t y s' ((r' >>= f') t) := by
  cases hx' : r' t with
  | error error =>
      rw [run_bind_of_error hx']
      rwa [hx'] at h
  | ok q =>
      obtain ⟨x', t₁⟩ := q
      rw [hx'] at h
      obtain ⟨hopened, ht₁, hcase⟩ := h
      have hQ' := hQ hx' hopened
      rw [run_bind_of_ok hx']
      rcases hcase with ⟨rfl, rfl⟩ | hstuck
      · exact ((hf x').follows hQ' ht₁ hr).before hopened
      · exact (((hf x').halts hQ' ht₁ hstuck).outcome ht₁ hstuck).before hopened

theorem Outcome.then {f f' : α → Reader β} {t s₁ s' : Cursor} {x : α} {y : β}
    (h : Outcome left lost t x s₁ (r' t))
    (hf : ∀ x, Lockstep left lost Anywhere (f x) (f' x)) (hr : f x s₁ = .ok (y, s')) :
    Outcome left lost t y s' ((r' >>= f') t) :=
  h.bind (fun _ _ _ _ => trivial) hf hr

theorem Lockstep.bind {Q : α → Cursor → Prop} {f f' : α → Reader β}
    (h : Lockstep left lost P r r')
    (hQ : ∀ ⦃t x t'⦄, P t → r' t = .ok (x, t') → t'.opened = t.opened → Q x t')
    (hf : ∀ x, Lockstep left lost (Q x) (f x) (f' x)) :
    Lockstep left lost P (r >>= f) (r' >>= f') where
  follows t hP ht y s' hr := by
    obtain ⟨x, s₁, hx, hr⟩ := run_bind_eq_ok.mp hr
    exact (h.follows hP ht hx).bind (fun _ _ hx' ho => hQ hP hx' ho) hf hr
  halts := h.halts.bind hQ fun x => (hf x).halts

theorem Lockstep.then {f f' : α → Reader β} (h : Lockstep left lost P r r')
    (hf : ∀ x, Lockstep left lost Anywhere (f x) (f' x)) :
    Lockstep left lost P (r >>= f) (r' >>= f') :=
  h.bind (fun _ _ _ _ _ _ => trivial) hf

theorem Lockstep.ite {c : Prop} [Decidable c] {a a' b b' : Reader α}
    (ha : Lockstep left lost P a a') (hb : Lockstep left lost P b b') :
    Lockstep left lost P (if c then a else b) (if c then a' else b') := by
  split
  · exact ha
  · exact hb

/-- Looking at the cursor for something that matters to errors only. -/
theorem lockstep_look {f f' : Cursor → Reader α}
    (h : ∀ s t, Lockstep left lost P (f s) (f' t)) :
    Lockstep left lost P (get >>= f) (get >>= f') where
  follows _ hP ht _ _ hr := (h _ _).follows hP ht hr
  halts t hP ht hstuck := (h t t).halts hP ht hstuck

/-- Looking at the cursor. -/
theorem lockstep_get {f f' : Cursor → Reader α}
    (h : ∀ t, P t → Fits left t →
      Lockstep left lost (fun s => s = t) (f (t.restored lost)) (f' t)) :
    Lockstep left lost P (get >>= f) (get >>= f') where
  follows t hP ht _ _ hr := (h t hP ht).follows rfl ht hr
  halts t hP ht hstuck := (h t hP ht).halts rfl ht hstuck

/-- What a reader looks for is not part of the place. -/
theorem lockstep_expectNow (e : Expectation) :
    Lockstep left lost P (expectNow e) (expectNow e) where
  follows t _ ht x s' hr := by
    cases hr
    exact ⟨rfl, ht.congr rfl rfl, .inl ⟨rfl, rfl⟩⟩
  halts _ _ _ _ := ⟨rfl, rfl⟩

/-! ### Failing -/

/-- The first reader fails, so there is nothing to follow. -/
theorem lockstep_of_fails (hr : ∀ s q, r s ≠ .ok q) (h : Halts left lost P r') :
    Lockstep left lost P r r' :=
  ⟨fun _ _ _ _ _ hx => absurd hx (hr _ _), h⟩

theorem lockstep_of_stuck (h : Halts left lost P r') (hP : ∀ t, P t → Stuck t.rest) :
    Lockstep left lost P r r' :=
  ⟨fun t ht hfits _ _ _ => (h ht hfits (hP t ht)).outcome hfits (hP t ht), h⟩

theorem lockstep_of_false (hP : ∀ t, ¬ P t) : Lockstep left lost P r r' :=
  ⟨fun t ht => absurd ht (hP t), fun t ht => absurd ht (hP t)⟩

theorem halts_unexpected (size : Nat) (wanted : Wanted) :
    Halts left lost P (unexpected (α := α) size wanted) :=
  fun _ _ ht hstuck => explained_of_stuck ht hstuck lost size _ wanted

theorem lockstep_unexpected (size size' : Nat) (wanted : Wanted) :
    Lockstep left lost P (unexpected (α := α) size wanted) (unexpected size' wanted) :=
  lockstep_of_fails unexpected_ne_ok (halts_unexpected size' wanted)

end

/-! ### Looking ahead -/

theorem dropBlanks_append_of_cons {cs u : List Char} {c : Char} (h : dropBlanks cs = c :: u)
    (lost : List Char) : dropBlanks (cs ++ lost) = c :: (u ++ lost) := by
  have hdrop : (cs ++ lost).dropWhile isBlank = cs.dropWhile isBlank ++ lost :=
    dropWhile_append_of_ne (by rw [show cs.dropWhile isBlank = _ from h]; exact nofun)
  rw [dropBlanks, hdrop, show cs.dropWhile isBlank = _ from h, List.cons_append]

theorem dropBlanks_dropBlanks {cs : List Char} : dropBlanks (dropBlanks cs) = dropBlanks cs :=
  dropBlanks_of_eq rfl

theorem dropBlanks_of_dot {rest : List Char} (h : rest = ['.']) : dropBlanks rest = ['.'] := by
  rw [h]
  rfl

section

variable {P : Cursor → Prop}

/-- The blanks go on behind the cut only if they go on up to it. -/
theorem lockstep_skipBlanks : Lockstep left lost P skipBlanks skipBlanks where
  follows t _ ht x s' hr := by
    cases hr
    refine ⟨rfl, ht.dropBlanks, ?_⟩
    cases hb : dropBlanks t.rest with
    | nil => exact .inr (.inl rfl)
    | cons c u =>
        refine .inl ⟨rfl, ?_⟩
        rw [Cursor.rest_restored, dropBlanks_append_of_cons hb]
        rfl
  halts t _ _ hstuck := by
    refine ⟨?_, rfl⟩
    show dropBlanks t.rest = t.rest
    rcases hstuck with hend | hdot
    · rw [hend]
      rfl
    · rw [dropBlanks_of_dot hdot, hdot]

/-- Both readers see the same character, unless there is none any more. -/
theorem lockstep_peek : Lockstep left lost P peek peek where
  follows t _ ht c s' hr := by
    cases hr
    refine ⟨rfl, ht, ?_⟩
    cases hrest : t.rest with
    | nil => exact .inr (.inl rfl)
    | cons c u =>
        refine .inl ⟨?_, rfl⟩
        rw [Cursor.rest_restored, hrest]
        rfl
  halts _ _ _ _ := ⟨rfl, rfl⟩

theorem lockstep_next : Lockstep left lost P next next :=
  lockstep_skipBlanks.then fun _ => lockstep_peek

theorem ahead_of_next {t t' : Cursor} {c : Option Char} (h : next t = .ok (c, t')) :
    Ahead c t' := by
  cases h
  exact rfl

theorem isSolid_of_next {t t' : Cursor} {c : Char} (h : next t = .ok (some c, t')) :
    isSolid c = true := by
  obtain ⟨u, hu⟩ : ∃ u, dropBlanks t.rest = c :: u :=
    List.head?_eq_some_iff.mp (congrArg (·.1) (Except.ok.inj h))
  rw [isSolid, eq_false_of_dropWhile hu]
  rfl

/-- The next character decides. -/
theorem lockstep_next_then {f f' : Option Char → Reader α}
    (hf : ∀ c, Lockstep left lost (Ahead c) (f c) (f' c)) :
    Lockstep left lost P (next >>= f) (next >>= f') :=
  lockstep_next.bind (fun _ _ _ _ h _ => ahead_of_next h) hf

/-- The character that was seen before decides. -/
theorem lockstep_peek_then {f f' : Option Char → Reader α} {c : Option Char}
    (hf : Lockstep left lost (Ahead c) (f c) (f' c)) :
    Lockstep left lost (Ahead c) (peek >>= f) (peek >>= f') := by
  refine lockstep_peek.bind (Q := fun c' t => c' = c ∧ Ahead c t) (fun t c' t' hat h _ => ?_)
    fun c' => ?_
  · cases h
    exact ⟨hat, hat⟩
  · by_cases hc : c' = c
    · subst hc
      exact hf.mono fun t ht => ht.2
    · exact lockstep_of_false fun t ht => hc ht.1

/-- A branch for a certain character. -/
theorem Lockstep.iteChar {a a' b b' : Reader α} {c : Option Char} {k : Char}
    (ha : Lockstep left lost (At k) a a') (hb : Lockstep left lost (Ahead c) b b') :
    Lockstep left lost (Ahead c) (if c = some k then a else b) (if c = some k then a' else b') := by
  split
  · next hc =>
      subst hc
      exact ha
  · exact hb

/-- A reader that passes layout first. -/
theorem lockstep_behind_blanks {r r' : Reader α} (hr : (next >>= fun _ => r) = r)
    (hr' : (next >>= fun _ => r') = r')
    (hf : ∀ c, isSolid c = true → Lockstep left lost (At c) r r')
    (hend : Halts left lost AtEnd r') : Lockstep left lost P r r' := by
  have hnext : Lockstep left lost P (next >>= fun _ => r) (next >>= fun _ => r') := by
    refine lockstep_next.bind
      (Q := fun c t => Ahead c t ∧ ∀ d, c = some d → isSolid d = true)
      (fun t c t' _ h _ => ⟨ahead_of_next h, fun d hd => isSolid_of_next (hd ▸ h)⟩) fun c => ?_
    cases c with
    | none =>
        refine lockstep_of_stuck (fun t ht => hend ht.1) fun t ht => .inl ?_
        exact List.head?_eq_none_iff.mp ht.1
    | some c =>
        by_cases hc : isSolid c = true
        · exact (hf c hc).mono fun t ht => ht.1
        · exact lockstep_of_false fun t ht => hc (ht.2 c rfl)
  rwa [hr, hr'] at hnext

end

/-! ### Punctuation -/

section

variable {P : Cursor → Prop} {t : Cursor} {c : Char}

theorem head?_ne_of_stuck {rest : List Char} (h : Stuck rest) (hc : c ≠ '.') :
    (dropBlanks rest).head? ≠ some c := by
  rcases h with rfl | hdot
  · exact nofun
  · rw [dropBlanks_of_dot hdot]
    exact fun heq => hc (Option.some.inj heq).symm

theorem dropBlanks_of_stuck {rest : List Char} (h : Stuck rest) : dropBlanks rest = rest := by
  rcases h with rfl | hdot
  · rfl
  · rw [dropBlanks_of_dot hdot, hdot]

theorem lockstep_eat (hc : isPlain c = true) : Lockstep left lost P (eat c) (eat c) where
  follows t _ ht x s' hr := by
    rw [eat_eq] at hr ⊢
    rw [Cursor.rest_restored] at hr
    have ht₁ := ht.dropBlanks
    cases hb : dropBlanks t.rest with
    | nil =>
        rw [hb] at ht₁
        exact ⟨rfl, ht₁, .inr (.inl rfl)⟩
    | cons d u =>
        rw [dropBlanks_append_of_cons hb] at hr
        rw [hb] at ht₁
        by_cases hd : d = c
        · rw [if_pos (by rw [hd]; rfl)] at hr ⊢
          cases hr
          exact ⟨rfl, Fits.punctuation ht₁ rfl (hd ▸ hc), .inl ⟨rfl, rfl⟩⟩
        · rw [if_neg (by simpa using hd)] at hr ⊢
          cases hr
          exact ⟨rfl, ht₁, .inl ⟨rfl, rfl⟩⟩
  halts t _ _ hstuck := by
    rw [eat_eq, if_neg (head?_ne_of_stuck hstuck (ne_dot_of_isPlain hc))]
    exact ⟨dropBlanks_of_stuck hstuck, rfl⟩

theorem lockstep_expect (size size' : Nat) (hc : isPlain c = true) :
    Lockstep left lost P (expect size c) (expect size' c) :=
  (lockstep_eat hc).then fun _ => (lockstep_pure ()).ite (lockstep_unexpected _ _ _)

/-- Passing a character that was seen. -/
theorem lockstep_advance {f f' : Unit → Reader α} (hc : isPlain c = true)
    (hf : Lockstep left lost Anywhere (f ()) (f' ())) :
    Lockstep left lost (At c) (advance >>= f) (advance >>= f') where
  follows t hat ht x s' hr := by
    obtain ⟨_, s₁, h, hr⟩ := run_bind_eq_ok.mp hr
    cases h
    obtain ⟨u, hu⟩ := List.head?_eq_some_iff.mp hat
    have hout := hf.follows (t := { t with rest := u }) trivial (ht.punctuation hu hc)
      (by rw [Cursor.rest_restored, hu] at hr; exact hr)
    show Outcome left lost t x s' (f' () { t with rest := t.rest.tail })
    rw [hu]
    exact hout.before rfl
  halts := halts_at (ne_dot_of_isPlain hc) _

end

/-! ### Brackets -/

section

variable {size : Nat} {s : Cursor} {c : Char} {u : List Char}

theorem eat_of_cons (h : dropBlanks s.rest = c :: u) :
    eat c s = .ok (true, { s with rest := u }) := by
  rw [eat_eq, h, if_pos (show (c :: u).head? = some c from rfl)]
  rfl

theorem eat_of_ne (h : (dropBlanks s.rest).head? ≠ some c) :
    eat c s = .ok (false, { s with rest := dropBlanks s.rest }) := by
  rw [eat_eq, if_neg h]

theorem expect_of_cons (h : dropBlanks s.rest = c :: u) :
    expect size c s = .ok ((), { s with rest := u }) := by
  rw [expect, run_bind_of_ok (eat_of_cons h)]
  rfl

theorem expect_of_ne (h : (dropBlanks s.rest).head? ≠ some c) :
    expect size c s = unexpected size (.char c) { s with rest := dropBlanks s.rest } := by
  rw [expect, run_bind_of_ok (eat_of_ne h)]
  rfl

theorem openBracket_eq (size : Nat) (c : Char) (s : Cursor) : openBracket size c s =
    (do
      expect size c
      modify fun t => { t with opened := ⟨c, dropBlanks s.rest⟩ :: t.opened } : Reader Unit)
      { s with rest := dropBlanks s.rest } :=
  rfl

theorem openBracket_of_cons (h : dropBlanks s.rest = c :: u) :
    openBracket size c s = .ok ((), ⟨u, ⟨c, c :: u⟩ :: s.opened, s.expecting⟩) := by
  have hagain : dropBlanks (dropBlanks s.rest) = c :: u := dropBlanks_dropBlanks.trans h
  rw [openBracket_eq, run_bind_of_ok (expect_of_cons hagain), h]
  rfl

/-- Where the bracket does not come next, the fault is noticed behind the layout. -/
theorem openBracket_of_ne (h : (dropBlanks s.rest).head? ≠ some c) :
    openBracket size c s = unexpected size (.char c) { s with rest := dropBlanks s.rest } := by
  have hexpect : expect size c { s with rest := dropBlanks s.rest } = _ :=
    expect_of_ne (by rwa [dropBlanks_dropBlanks])
  rw [dropBlanks_dropBlanks] at hexpect
  rw [openBracket_eq]
  exact run_bind_of_error hexpect

section

variable {o : OpenBracket} {os : List OpenBracket}

theorem closeBracket_eq (size : Nat) (ho : s.opened = o :: os) : closeBracket size s =
    (do
      if ← eat (closerOf o.bracket) then modify fun t => { t with opened := t.opened.tail }
      else unexpected size (.char (closerOf o.bracket)) : Reader Unit) s := by
  obtain ⟨rest, opened, expecting⟩ := s
  cases ho
  rfl

theorem closeBracket_of_cons (ho : s.opened = o :: os)
    (h : dropBlanks s.rest = closerOf o.bracket :: u) :
    closeBracket size s = .ok ((), ⟨u, os, s.expecting⟩) := by
  rw [closeBracket_eq size ho, run_bind_of_ok (eat_of_cons h), if_pos rfl]
  show Except.ok ((), Cursor.mk u s.opened.tail s.expecting) = _
  rw [ho]
  rfl

theorem closeBracket_of_ne (ho : s.opened = o :: os)
    (h : (dropBlanks s.rest).head? ≠ some (closerOf o.bracket)) : closeBracket size s =
      unexpected size (.char (closerOf o.bracket)) { s with rest := dropBlanks s.rest } := by
  rw [closeBracket_eq size ho, run_bind_of_ok (eat_of_ne h), if_neg Bool.false_ne_true]

theorem exists_cons_of_openBracket {q : Unit × Cursor} (h : openBracket size c s = .ok q) :
    ∃ u, dropBlanks s.rest = c :: u := by
  by_cases hhead : (dropBlanks s.rest).head? = some c
  · exact List.head?_eq_some_iff.mp hhead
  · rw [openBracket_of_ne hhead] at h
    exact absurd h (unexpected_ne_ok _ _)

theorem exists_cons_of_closeBracket (ho : s.opened = o :: os) {q : Unit × Cursor}
    (h : closeBracket size s = .ok q) : ∃ u, dropBlanks s.rest = closerOf o.bracket :: u := by
  by_cases hhead : (dropBlanks s.rest).head? = some (closerOf o.bracket)
  · exact List.head?_eq_some_iff.mp hhead
  · rw [closeBracket_of_ne ho hhead] at h
    exact absurd h (unexpected_ne_ok _ _)

end

theorem among_closerOf (c : Char) : among ['}', ']', ')', '>'] (closerOf c) = true := by
  unfold closerOf
  repeat' split
  all_goals decide

theorem closerOf_ne_dot (c : Char) : closerOf c ≠ '.' := by
  have hne := of_among (p := fun d => d != '.') (by decide) (among_closerOf c)
  simpa using hne

theorem step_opener (o : List Char) (hc : isOpener c = true) :
    Scan.step ⟨.gap, o⟩ c = ⟨.gap, c :: o⟩ := by
  have hfresh : Ending.fresh c = .gap := by
    simp only [isOpener, Bool.or_eq_true, beq_iff_eq] at hc
    rcases hc with ((rfl | rfl) | rfl) | rfl <;> decide
  unfold Scan.step
  dsimp only
  rw [show Ending.gap.step c = Ending.gap from hfresh, if_neg (by decide), if_pos hc]

theorem step_closerOf (o : List Char) (d c : Char) :
    Scan.step ⟨.gap, d :: o⟩ (closerOf c) = ⟨.gap, o⟩ := by
  let closes (e : Char) : Bool :=
    decide (Ending.fresh e = .gap) && (!isOpener e && isCloser e)
  have hcloses : closes (closerOf c) = true := of_among (by decide) (among_closerOf c)
  simp only [closes, Bool.and_eq_true, decide_eq_true_eq, Bool.not_eq_true'] at hcloses
  obtain ⟨hfresh, hopener, hcloser⟩ := hcloses
  unfold Scan.step
  dsimp only
  rw [show Ending.gap.step (closerOf c) = Ending.gap from hfresh, if_neg (by decide), hopener,
    if_neg Bool.false_ne_true, if_pos hcloser]
  rfl

end

section

variable {P : Cursor → Prop} {c : Char} {size size' : Nat}

theorem ne_dot_of_isOpener (hc : isOpener c = true) : c ≠ '.' := by
  rintro rfl
  exact absurd hc (by decide)

/-- A bracket is not closed while a reader is stuck. -/
theorem closeBracket_stuck {t : Cursor} {o : OpenBracket} {os : List OpenBracket}
    (ho : t.opened = o :: os) (ht : Fits left t) (hstuck : Stuck (dropBlanks t.rest)) :
    ∃ error, closeBracket size t = .error error ∧ Explained left lost error := by
  have hne : (dropBlanks t.rest).head? ≠ some (closerOf o.bracket) := by
    rw [← dropBlanks_dropBlanks]
    exact head?_ne_of_stuck hstuck (closerOf_ne_dot _)
  rw [closeBracket_of_ne ho hne]
  exact ⟨_, rfl, explained_of_stuck ht.dropBlanks hstuck lost size _ _⟩

/-- An opening bracket is passed in both texts, or the cut is in front of it. -/
theorem openBracket_follows
    (size' : Nat) {t s₁ : Cursor} (hc : isOpener c = true) (ht : Fits left t)
    (hopen : openBracket size c (t.restored lost) = .ok ((), s₁)) :
    (∃ error, openBracket size' c t = .error error ∧ Explained left lost error) ∨
      ∃ t₁ o, openBracket size' c t = .ok ((), t₁) ∧ Fits left t₁ ∧ t₁.restored lost = s₁ ∧
        t₁.opened = o :: t.opened := by
  have ht₀ := ht.dropBlanks
  cases hb : dropBlanks t.rest with
  | nil =>
      refine .inl ⟨_, openBracket_of_ne (by rw [hb]; exact nofun), ?_⟩
      exact explained_of_stuck ht₀ (.inl hb) lost size' _ _
  | cons d u =>
      have hb' : dropBlanks (t.restored lost).rest = d :: (u ++ lost) :=
        dropBlanks_append_of_cons hb lost
      obtain ⟨v, hv⟩ := exists_cons_of_openBracket hopen
      obtain ⟨rfl, -⟩ := List.cons.inj (hb'.symm.trans hv)
      rw [openBracket_of_cons hb'] at hopen
      cases hopen
      refine .inr ⟨_, _, openBracket_of_cons hb, fits_of_gap ?_, rfl, rfl⟩
      have hs := ht₀.passed_char hb
      rwa [step_opener _ hc] at hs

/-- The closing bracket is passed in both texts, or the cut is in front of it. -/
theorem closeBracket_follows (size' : Nat) {t s₁ : Cursor} {o : OpenBracket} {os : List OpenBracket}
    (ht : Fits left t) (ho : t.opened = o :: os)
    (hclose : closeBracket size (t.restored lost) = .ok ((), s₁)) :
    (∃ error, closeBracket size' t = .error error ∧ Explained left lost error) ∨
      ∃ t₁, closeBracket size' t = .ok ((), t₁) ∧ Fits left t₁ ∧ t₁.restored lost = s₁ ∧
        t₁.opened = os := by
  have ht₀ := ht.dropBlanks
  cases hb : dropBlanks t.rest with
  | nil => exact .inl (closeBracket_stuck ho ht (.inl hb))
  | cons d u =>
      have hb' : dropBlanks (t.restored lost).rest = d :: (u ++ lost) :=
        dropBlanks_append_of_cons hb lost
      have ho' : (t.restored lost).opened =
          { o with start := o.start ++ lost } ::
            os.map fun o => { o with start := o.start ++ lost } := by
        rw [Cursor.restored, ho]
        rfl
      obtain ⟨v, hv⟩ := exists_cons_of_closeBracket ho' hclose
      obtain ⟨rfl, -⟩ := List.cons.inj (hb'.symm.trans hv)
      rw [closeBracket_of_cons ho' hb'] at hclose
      cases hclose
      refine .inr ⟨_, closeBracket_of_cons ho hb, fits_of_gap ?_, rfl, rfl⟩
      have hs := ht₀.passed_char hb
      rwa [Cursor.brackets, ho, List.map_cons, step_closerOf] at hs

/-- What stands between brackets, and what is done with it. The brackets are open in the meantime
only, so they are the same again behind it. -/
theorem lockstep_between {r r' : Reader α} {f f' : α → Reader β} (hc : isOpener c = true)
    (h : Lockstep left lost Anywhere r r') (hf : ∀ x, Tracks left lost Anywhere (f x) (f' x)) :
    Lockstep left lost P
      (do
        openBracket size c
        let x ← r
        closeBracket size
        f x)
      (do
        openBracket size' c
        let x ← r'
        closeBracket size'
        f' x) where
  follows t _ ht y s' hr := by
    obtain ⟨_, s₁, hopen, hr⟩ := run_bind_eq_ok.mp hr
    obtain ⟨x, s₂, hx, hr⟩ := run_bind_eq_ok.mp hr
    obtain ⟨_, s₃, hclose, hr⟩ := run_bind_eq_ok.mp hr
    rcases openBracket_follows size' hc ht hopen with
      ⟨error, herror, hcut⟩ | ⟨t₁, o, hopen', ht₁, rfl, ho⟩
    · rw [run_bind_of_error herror]
      exact hcut
    rw [run_bind_of_ok hopen']
    have hout := h.follows trivial ht₁ hx
    cases hx' : r' t₁ with
    | error error =>
        rw [run_bind_of_error hx']
        rwa [hx'] at hout
    | ok q =>
        obtain ⟨x', t₂⟩ := q
        rw [hx'] at hout
        obtain ⟨hopened, ht₂, hcase⟩ := hout
        rw [ho] at hopened
        rw [run_bind_of_ok hx']
        have hcut : (∃ error, closeBracket size' t₂ = .error error ∧ Explained left lost error) →
            Outcome left lost t y s' ((do closeBracket size'; f' x') t₂) := by
          rintro ⟨error, herror, hcut⟩
          rw [run_bind_of_error herror]
          exact hcut
        rcases hcase with ⟨rfl, rfl⟩ | hstuck
        · rcases closeBracket_follows size' ht₂ hopened hclose with
            herror | ⟨t₃, hclose', ht₃, rfl, hos⟩
          · exact hcut herror
          · rw [run_bind_of_ok hclose']
            exact (hf x' trivial ht₃ hr).before hos
        · exact hcut (closeBracket_stuck hopened ht₂ (by rwa [dropBlanks_of_stuck hstuck]))
  halts t _ ht hstuck := by
    have hne := head?_ne_of_stuck hstuck (ne_dot_of_isOpener hc)
    have hblanks := dropBlanks_of_stuck hstuck
    rw [run_bind_of_error (openBracket_of_ne hne)]
    exact explained_of_stuck ht.dropBlanks (hblanks.symm ▸ hstuck) lost size' _ _

end

/-! ### Lists -/

section

variable {P : Cursor → Prop} {r r' : Reader α} {separator : Char}

theorem halts_separatedLoop (hP : Kept P) (h : Halts left lost P r')
    (hseparator : isPlain separator = true) (fuel : Nat) :
    Halts left lost P (separatedLoop separator r' fuel) := by
  induction fuel with
  | zero => exact h.bind (fun _ _ _ _ _ _ => trivial) fun _ => halts_pure (P := Anywhere) _
  | succ fuel ih =>
      refine h.bind (Q := fun _ => P) (fun _ _ _ hp _ ho => hP ho hp) fun x => ?_
      refine (lockstep_eat hseparator).halts.bind (Q := fun _ => P)
        (fun _ _ _ hp _ ho => hP ho hp) fun found => ?_
      split
      · exact ih.bind (fun _ _ _ _ _ _ => trivial) fun _ => halts_pure (P := Anywhere) _
      · exact halts_pure _

/-- The fuel is more than enough for both texts. Where one of them has none left, the cut has been
reached. -/
theorem lockstep_separatedLoop (hP : Kept P) (h : Lockstep left lost P r r') (hpasses : Passes 0 r')
    (hseparator : isPlain separator = true) (n n' : Nat) :
    Lockstep left lost
      (fun t => P t ∧ t.rest.length + lost.length ≤ n ∧ t.rest.length ≤ n')
      (separatedLoop separator r n) (separatedLoop separator r' n') := by
  -- One of the fuels is used up, so the text that is left is.
  have hstuck (n n' : Nat) (hn : n = 0 ∨ n' = 0) : Lockstep left lost
      (fun t => P t ∧ t.rest.length + lost.length ≤ n ∧ t.rest.length ≤ n')
      (separatedLoop separator r n) (separatedLoop separator r' n') := by
    have hhalts := halts_separatedLoop hP h.halts hseparator n'
    refine lockstep_of_stuck (fun t ht => hhalts ht.1) fun t ht => .inl ?_
    exact List.length_eq_zero_iff.mp (by omega)
  induction n' generalizing n with
  | zero => exact hstuck n 0 (.inr rfl)
  | succ n' ih =>
      cases n with
      | zero => exact hstuck 0 (n' + 1) (.inl rfl)
      | succ n =>
          refine (h.mono fun t ht => ht.1).bind
            (Q := fun _ t => P t ∧ t.rest.length + lost.length ≤ n + 1 ∧ t.rest.length ≤ n' + 1)
            ?_ fun x => ?_
          · rintro t x t' ⟨hp, hlen, hlen'⟩ hx ho
            have hle := (hpasses hx).suffix.length_le
            exact ⟨hP ho hp, by omega, by omega⟩
          · refine (lockstep_eat hseparator).bind
              (Q := fun found t => P t ∧
                (found = true → t.rest.length + lost.length ≤ n ∧ t.rest.length ≤ n'))
              ?_ fun found => ?_
            · rintro t found t' ⟨hp, hlen, hlen'⟩ hx ho
              refine ⟨hP ho hp, ?_⟩
              rintro rfl
              have hlt := (further_of_eat hx).length_lt
              omega
            · cases found with
              | true =>
                  refine Lockstep.then ?_ fun xs => lockstep_pure (x :: xs)
                  exact (ih n).mono fun t ht => ⟨ht.1, ht.2 rfl⟩
              | false => exact lockstep_pure [x]

theorem lockstep_separated (hP : Kept P) (h : Lockstep left lost P r r') (hpasses : Passes 0 r')
    (hseparator : isPlain separator = true) :
    Lockstep left lost P (separated separator r) (separated separator r') := by
  refine lockstep_get fun t ht _ => ?_
  refine (lockstep_separatedLoop hP h hpasses hseparator _ _).mono fun s hs => ?_
  rw [hs]
  exact ⟨ht, by rw [Cursor.restored, List.length_append], Nat.le_refl _⟩

theorem lockstep_separatedUnless (stop : Option Char → Bool) (h : Lockstep left lost Anywhere r r')
    (hpasses : Passes 0 r') (hseparator : isPlain separator = true) :
    Lockstep left lost P (separatedUnless stop separator r)
      (separatedUnless stop separator r') := by
  have hseparated (Q : Cursor → Prop) :
      Lockstep left lost Q (separated separator r) (separated separator r') :=
    (lockstep_separated kept_anywhere h hpasses hseparator).at
  exact lockstep_next_then fun c => (lockstep_pure []).ite (hseparated _)

end

end Reader

end WidgetShorthand
