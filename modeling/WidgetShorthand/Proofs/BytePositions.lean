import WidgetShorthand.Document.ByteDecode
import WidgetShorthand.Proofs.ByteScans
import WidgetShorthand.Proofs.CutTexts
import WidgetShorthand.Proofs.FaultPlaces

/-!
# The cursor in bytes keeps step

A reader with the cursor in bytes and a reader in front of the rest of the text do the same. Their
cursors are at the same place of the text all along (`Tracks`), they answer the same, and when they
fail it is with the same error (`SameOutcome`). That is more than the positions alone would need: a
step of one byte leads to a place between characters only because of the character that was seen,
and so it has to be known of both readers that they see the same.

Where a step depends on that character, the rule for it is about readers at a certain next character
(`SimulatesAt`). All other rules go along with how readers are put together.
-/

namespace WidgetShorthand

open Text

variable {α β : Type} {text : List Char}

/-- A number of bytes that leads to a place between the characters of a text. -/
def Text.IsPlace (text : List Char) (n : Nat) : Prop :=
  ∃ rest, rest <:+ text ∧ n = Reader.offset (byteLength text) rest

/-- Both cursors are at the same place of a text, and the one in bytes has always been between its
characters. -/
structure Tracks (text : List Char) (s : Cursor) (t : ByteCursor) : Prop where
  within : s.Within text
  position : t.position = Reader.offset (byteLength text) s.rest
  opened : t.opened = s.opened.map fun o => (o.bracket, Reader.offset (byteLength text) o.start)
  expecting : t.expecting = s.expecting
  earlier : ∀ n ∈ t.earlier, IsPlace text n

/-- Both readers have answered the same and are at the same place, or have failed with the same
error. -/
inductive SameOutcome (text : List Char) :
    Except ParseError (α × Cursor) → EStateM.Result Stop ByteCursor α → Prop where
  | ok {x : α} {s : Cursor} {t : ByteCursor} (h : Tracks text s t) :
      SameOutcome text (.ok (x, s)) (.ok x t)
  | error {error : ParseError} {t : ByteCursor} (h : ∀ n ∈ t.visited, IsPlace text n) :
      SameOutcome text (.error error) (.error (.fault error) t)

/-- A reader by bytes does the same as a reader wherever they are, if a certain character comes
next. -/
def SimulatesAt (text : List Char) (c : Option Char) (r : Reader α) (b : ByteReader α) : Prop :=
  ∀ s t, Tracks text s t → s.rest.head? = c → SameOutcome text (r s) (b t)

/-- A reader by bytes does the same as a reader wherever they are. -/
def Simulates (text : List Char) (r : Reader α) (b : ByteReader α) : Prop :=
  ∀ s t, Tracks text s t → SameOutcome text (r s) (b t)

section

variable {s s' : Cursor} {t : ByteCursor} {r : Reader α} {b : ByteReader α} {f : α → Reader β}
  {g : α → ByteReader β} {x : α} {c : Char} {cs a rest : List Char} {n : Nat}
  {out : Except ParseError (β × Cursor)}

/-! ## Places -/

theorem Tracks.visited (h : Tracks text s t) : ∀ n ∈ t.visited, IsPlace text n := by
  intro n hn
  cases hn with
  | head => exact ⟨s.rest, h.within.rest, h.position⟩
  | tail _ hn => exact h.earlier n hn

/-- Going to a place of the text. -/
theorem Tracks.moveTo (h : Tracks text s t) (hrest : rest <:+ text)
    (hn : n = Reader.offset (byteLength text) rest) :
    Tracks text { s with rest := rest } { t with position := n, earlier := t.visited } :=
  ⟨⟨hrest, h.within.opened⟩, hn, h.opened, h.expecting, h.visited⟩

/-! ## Rules -/

/-- What a reader by bytes does first need not be a step of the other reader. -/
theorem SameOutcome.then (h : SameOutcome text (.ok (x, s)) (b t))
    (hg : ∀ t', Tracks text s t' → SameOutcome text out (g x t')) :
    SameOutcome text out ((b >>= g) t) := by
  show SameOutcome text out (EStateM.bind b g t)
  unfold EStateM.bind
  generalize b t = result at h
  cases h with
  | ok h => exact hg _ h

theorem outcome_get {g : ByteCursor → ByteReader β} (h : SameOutcome text out (g t t)) :
    SameOutcome text out ((get >>= g) t) :=
  h

theorem outcome_look {f : Cursor → Reader β} {result : EStateM.Result Stop ByteCursor β}
    (h : SameOutcome text (f s s) result) : SameOutcome text ((get >>= f) s) result :=
  h

theorem SameOutcome.fails {error : ParseError} (h : SameOutcome text (.error error) (b t)) :
    SameOutcome text (.error error) ((b >>= g) t) := by
  show SameOutcome text (.error error) (EStateM.bind b g t)
  unfold EStateM.bind
  generalize b t = result at h
  cases h with
  | error h => exact .error h

theorem SameOutcome.exists_cursor (h : SameOutcome text (.ok (x, s)) (b t)) :
    ∃ t', b t = .ok x t' ∧ Tracks text s t' := by
  generalize b t = result at h
  cases h with
  | ok h => exact ⟨_, rfl, h⟩

theorem SimulatesAt.bind {c : Option Char} (h : SimulatesAt text c r b)
    (hf : ∀ x, Simulates text (f x) (g x)) : SimulatesAt text c (r >>= f) (b >>= g) := by
  intro s t ht hc
  have hr := h s t ht hc
  show SameOutcome text (Except.bind (r s) fun q => f q.1 q.2) (EStateM.bind b g t)
  unfold EStateM.bind
  generalize r s = result, b t = result' at hr
  cases hr with
  | ok h' => exact hf _ _ _ h'
  | error h' => exact .error h'

theorem Simulates.run (h : Simulates text r b) (ht : Tracks text s t) :
    SameOutcome text (r s) (b t) :=
  h s t ht

theorem Simulates.at (h : Simulates text r b) {c : Option Char} : SimulatesAt text c r b :=
  fun s t ht _ => h s t ht

theorem Simulates.bind (h : Simulates text r b) (hf : ∀ x, Simulates text (f x) (g x)) :
    Simulates text (r >>= f) (b >>= g) :=
  fun s t ht => h.at.bind hf s t ht rfl

theorem Simulates.ite {p : Prop} [Decidable p] {r' : Reader α} {b' : ByteReader α}
    (h : Simulates text r b) (h' : Simulates text r' b') :
    Simulates text (if p then r else r') (if p then b else b') := by
  split
  · exact h
  · exact h'

theorem simulates_pure (x : α) : Simulates text (pure x) (pure x) :=
  fun _ _ h => .ok h

theorem simulates_get {f : Cursor → Reader α} {g : ByteCursor → ByteReader α}
    (h : ∀ s t, Tracks text s t → Simulates text (f s) (g t)) :
    Simulates text (get >>= f) (get >>= g) :=
  fun s t ht => h s t ht s t ht

theorem simulates_modify {f : Cursor → Cursor} {g : ByteCursor → ByteCursor}
    (h : ∀ s t, Tracks text s t → Tracks text (f s) (g t)) :
    Simulates text (modify f : Reader Unit) (modify g : ByteReader Unit) :=
  fun s t ht => .ok (h s t ht)

theorem outcome_moveTo (h : Tracks text s t) (hrest : rest <:+ text)
    (hn : n = Reader.offset (byteLength text) rest) :
    SameOutcome text (.ok ((), { s with rest := rest })) (ByteReader.moveTo n t) :=
  .ok (h.moveTo hrest hn)

theorem simulates_moveTo (hrest : rest <:+ text) (hn : n = Reader.offset (byteLength text) rest) :
    Simulates text (Reader.moveTo rest) (ByteReader.moveTo n) :=
  simulates_modify fun _ _ h => h.moveTo hrest hn

theorem simulates_expectNow (e : Expectation) :
    Simulates text (Reader.expectNow e) (ByteReader.expectNow e) :=
  simulates_modify fun _ _ h =>
    ⟨⟨h.within.rest, h.within.opened⟩, h.position, h.opened, rfl, h.earlier⟩

theorem simulates_failAt {fault : Fault} (hn : n = Reader.offset (byteLength text) rest) :
    Simulates text (Reader.failAt (α := α) (byteLength text) rest fault)
      (ByteReader.failAt n fault) := by
  intro s t h
  rw [hn]
  exact .error h.visited

theorem simulates_fail {fault : Fault} :
    Simulates text (Reader.fail (α := α) (byteLength text) fault) (ByteReader.fail fault) :=
  simulates_get fun _ _ h => simulates_failAt h.position

theorem outcome_fail {fault : Fault} (h : Tracks text s t) (hrest : s.rest = rest) :
    SameOutcome (α := α) text (.error ⟨Reader.offset (byteLength text) rest, fault⟩)
      (ByteReader.fail fault t) := by
  subst hrest
  exact simulates_fail s t h

/-! ## Slices -/

theorem outcome_sliced (h : Tracks text s t) {slice? : Option (List Char)} (ha : slice? = some a) :
    SameOutcome text (.ok (a, s)) (ByteReader.sliced slice? t) := by
  rw [ha]
  exact .ok h

/-- What stands between two places is a slice. -/
theorem outcome_slice (h : Tracks text s t) {start stop : Nat} (hcs : cs <:+ text)
    (happend : a ++ rest = cs) (hstart : start = Reader.offset (byteLength text) cs)
    (hstop : stop = Reader.offset (byteLength text) rest) :
    SameOutcome text (.ok (a, s)) (ByteReader.slice text start stop t) := by
  subst happend
  refine outcome_sliced h ?_
  rw [hstart, hstop, slice?_offset hcs]

/-- What the cursor in bytes sees is the rest of the text. -/
theorem outcome_ahead (h : Tracks text s t) :
    SameOutcome text (.ok (s.rest, s)) (ByteReader.ahead text t) := by
  refine outcome_sliced h ?_
  rw [h.position]
  exact dropBytes_offset h.within.rest

theorem peek_eq (h : Tracks text s t) : ByteReader.peek text t = .ok s.rest.head? t := by
  have hahead : dropBytes t.position text = some s.rest := by
    rw [h.position, dropBytes_offset h.within.rest]
  show (ByteReader.sliced (dropBytes t.position text) >>= fun cs => pure cs.head?) t = _
  rw [hahead]
  rfl

theorem outcome_peek (h : Tracks text s t) :
    SameOutcome text (.ok (s.rest.head?, s)) (ByteReader.peek text t) := by
  rw [peek_eq h]
  exact .ok h

theorem outcome_peekSecond (h : Tracks text s t) :
    SameOutcome text (.ok (s.rest.tail.head?, s)) (ByteReader.peekSecond text t) :=
  (outcome_ahead h).then fun _ h' => .ok h'

theorem simulates_peek : Simulates text Reader.peek (ByteReader.peek text) :=
  fun _ _ h => outcome_peek h

/-- Whoever looks knows what comes next. -/
theorem simulates_peek_then {f : Option Char → Reader α} {g : Option Char → ByteReader α}
    (h : ∀ c, SimulatesAt text c (f c) (g c)) :
    Simulates text (Reader.peek >>= f) (ByteReader.peek text >>= g) :=
  fun s _ ht => (outcome_peek ht).then fun t' ht' => h s.rest.head? s t' ht' rfl

/-! ## Steps -/

/-- A step by the width of what stands in front of the cursor. -/
theorem outcome_advance (h : Tracks text s t) (hrest : s.rest = a ++ rest) (hn : byteLength a = n) :
    SameOutcome text (.ok ((), { s with rest := rest })) (ByteReader.advance n t) := by
  have hsuffix : a ++ rest <:+ text := hrest ▸ h.within.rest
  refine .ok (h.moveTo ((List.suffix_append a rest).trans hsuffix) ?_)
  rw [h.position, hrest, ← hn, offset_add hsuffix]

theorem outcome_advance_char (h : Tracks text s t) (hrest : s.rest = c :: rest)
    (hn : c.utf8Size = n) :
    SameOutcome text (.ok ((), { s with rest := rest })) (ByteReader.advance n t) :=
  outcome_advance (a := [c]) h hrest hn

theorem simulatesAt_advance (hn : c.utf8Size = n) :
    SimulatesAt text (some c) Reader.advance (ByteReader.advance n) := by
  intro s t h hc
  obtain ⟨rest, hrest⟩ := List.head?_eq_some_iff.mp hc
  have hrun : Reader.advance s = .ok ((), { s with rest := rest }) := by
    show Except.ok ((), { s with rest := s.rest.tail }) = _
    rw [hrest, List.tail_cons]
  rw [hrun]
  exact outcome_advance_char h hrest hn

theorem outcome_bump (h : Tracks text s t) (hrest : s.rest = c :: rest) :
    SameOutcome text (.ok ((), { s with rest := rest })) (ByteReader.bump text t) := by
  refine (outcome_peek h).then fun t' h' => ?_
  rw [hrest]
  exact outcome_advance_char h' hrest rfl

theorem Text.dropWhile_eq_self {p : Char → Bool} (h : ¬ cs.head?.any p = true) :
    cs.dropWhile p = cs := by
  cases cs with
  | nil => rfl
  | cons c cs => exact List.dropWhile_cons_of_neg h

/-- Byte by byte is character by character where only characters of one byte are passed. -/
theorem outcome_passLoop {p : Char → Bool} (hp : IsNarrow p) {fuel : Nat} (h : Tracks text s t)
    (hfuel : s.rest.length ≤ fuel) :
    SameOutcome text (.ok ((), { s with rest := s.rest.dropWhile p }))
      (ByteReader.passLoop text p fuel t) := by
  induction fuel generalizing s t with
  | zero =>
      have hend : s.rest = [] := List.length_eq_zero_iff.mp (Nat.le_zero.mp hfuel)
      rw [dropWhile_eq_self (by rw [hend]; exact nofun)]
      exact .ok h
  | succ fuel ih =>
      refine (outcome_peek h).then fun t₁ h₁ => ?_
      by_cases hc : s.rest.head?.any p = true
      · rw [if_pos hc]
        obtain ⟨c, hhead, hpc⟩ := (Option.any_eq_true _ _).mp hc
        obtain ⟨rest, hrest⟩ := List.head?_eq_some_iff.mp hhead
        refine (outcome_advance_char h₁ hrest (hp c hpc)).then fun t₂ h₂ => ?_
        have hlater := ih h₂ (by
          rw [hrest, List.length_cons] at hfuel
          exact Nat.le_of_succ_le_succ hfuel)
        rw [hrest, List.dropWhile_cons_of_pos hpc]
        exact hlater
      · rw [if_neg hc, dropWhile_eq_self hc]
        exact .ok h₁

theorem outcome_passWhile {p : Char → Bool} (hp : IsNarrow p) (h : Tracks text s t) :
    SameOutcome text (.ok ((), { s with rest := s.rest.dropWhile p }))
      (ByteReader.passWhile text p t) :=
  outcome_passLoop hp h h.within.rest.length_le

end

end WidgetShorthand
