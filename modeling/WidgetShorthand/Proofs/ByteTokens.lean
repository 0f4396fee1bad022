import WidgetShorthand.Proofs.BytePositions

/-!
# Tokens by their bytes

Each reader of a token does the same with both cursors. Punctuation and names consist of characters
of one byte, so here the steps are as long as what they pass. In a string any character may stand,
and the loop over it passes each by its width; what it puts together from slices is the string that
is read in one go from the rest of the text. A numeral is looked for in the bytes of the text, and
its end is that of the run of characters.
-/

namespace WidgetShorthand

open Text

namespace Reader

variable {α : Type} {round : Nat → Reader (List α × Bool)} {i : Nat} {s : Cursor}
  {result result' : Except ParseError (List α × Cursor)}

/-- What comes of the rounds of a loop is settled by the rounds. -/
theorem Repeats.unique (h : Repeats round i s result) (h' : Repeats round i s result') :
    result = result' := by
  induction h generalizing result' with
  | failed hround =>
      cases h' with
      | failed hround' => exact congrArg Except.error (Except.error.inj (hround.symm.trans hround'))
      | last hround' => cases hround.symm.trans hround'
      | more hround' _ _ => cases hround.symm.trans hround'
  | last hround =>
      cases h' with
      | failed hround' => cases hround.symm.trans hround'
      | last hround' =>
          cases hround.symm.trans hround'
          rfl
      | more hround' _ _ => cases hround.symm.trans hround'
  | more hround _ _ ih =>
      cases h' with
      | failed hround' => cases hround.symm.trans hround'
      | last hround' => cases hround.symm.trans hround'
      | more hround' _ hlater =>
          cases hround.symm.trans hround'
          rw [ih hlater]

theorem separatedLoop_of_le {separator : Char} {element : Reader α} (h : Passes 0 element)
    {fuel : Nat} (hfuel : s.rest.length ≤ fuel) :
    separatedLoop separator element fuel s = separated separator element s :=
  (repeats_separatedLoop h fuel 0 s hfuel).unique (repeats_separated h s)

end Reader

theorem Decoding.modifiersLoop_of_lt {d : Decoding} {fuel : Nat} {s : Cursor}
    (hfuel : s.rest.length < fuel) : d.modifiersLoop fuel s = d.modifiers s :=
  (repeats_modifiersLoop fuel 0 s hfuel).unique (repeats_modifiers s)

namespace ByteReader

variable {α : Type} {text : List Char} {s s' : Cursor} {t : ByteCursor} {r : Reader α}
  {b : ByteReader α} {c : Char}

/-! ## Layout and punctuation -/

theorem isNarrow_isBlank : IsNarrow isBlank :=
  ((((isNarrow_beq rfl).or (isNarrow_beq rfl)).or (isNarrow_beq rfl)).or (isNarrow_beq rfl)).or
    (isNarrow_beq rfl)

theorem outcome_skipBlanks (h : Tracks text s t) :
    SameOutcome text (.ok ((), { s with rest := dropBlanks s.rest })) (skipBlanks text t) :=
  outcome_passWhile isNarrow_isBlank h

theorem simulates_skipBlanks : Simulates text Reader.skipBlanks (skipBlanks text) :=
  fun _ _ h => outcome_skipBlanks h

theorem outcome_next (h : Tracks text s t) :
    SameOutcome text (.ok ((dropBlanks s.rest).head?, { s with rest := dropBlanks s.rest }))
      (next text t) :=
  (outcome_skipBlanks h).then fun _ h' => outcome_peek h'

theorem simulates_next : Simulates text Reader.next (next text) :=
  fun _ _ h => outcome_next h

/-- Whoever looks past the layout knows what comes next. -/
theorem simulates_next_then {f : Option Char → Reader α} {g : Option Char → ByteReader α}
    (h : ∀ c, SimulatesAt text c (f c) (g c)) :
    Simulates text (Reader.next >>= f) (next text >>= g) :=
  fun _ _ ht => (outcome_next ht).then fun t' ht' => h _ _ t' ht' rfl

theorem simulates_eat (c : Char) : Simulates text (Reader.eat c) (eat text c) := by
  refine simulates_next_then fun found => ?_
  split
  · next hfound =>
      subst hfound
      exact (simulatesAt_advance rfl).bind fun _ => simulates_pure _
  · exact (simulates_pure _).at

/-- What is found, and what is open, is the same. -/
theorem unexpectedFault_eq (h : Tracks text s t) (wanted : Wanted) :
    unexpectedFault s.rest.head? t wanted = Reader.unexpectedFault (byteLength text) s wanted := by
  obtain ⟨rest, opened, expecting⟩ := s
  have hopened := h.opened
  have hexpecting := h.expecting
  cases rest with
  | nil =>
      cases opened with
      | nil => simp [unexpectedFault, Reader.unexpectedFault, hopened]
      | cons o opened => simp [unexpectedFault, Reader.unexpectedFault, hopened, hexpecting]
  | cons c rest =>
      simp only [unexpectedFault, Reader.unexpectedFault, hopened, hexpecting, List.head?_cons,
        List.head?_map, Option.map_map]
      rfl

/-- The error of finding something else than what is wanted. -/
def unexpectedError (size : Nat) (s : Cursor) (wanted : Wanted) : ParseError :=
  ⟨Reader.offset size s.rest, Reader.unexpectedFault size s wanted⟩

theorem unexpected_eq (h : Tracks text s t) (wanted : Wanted) :
    unexpected (α := α) text wanted t =
      .error (.fault (unexpectedError (byteLength text) s wanted)) t := by
  show EStateM.bind (peek text) _ t = _
  unfold EStateM.bind
  rw [peek_eq h]
  show EStateM.Result.error (Stop.fault ⟨t.position, unexpectedFault s.rest.head? t wanted⟩) t = _
  rw [h.position, unexpectedFault_eq h]
  rfl

theorem simulates_unexpected {wanted : Wanted} :
    Simulates text (Reader.unexpected (α := α) (byteLength text) wanted)
      (unexpected text wanted) := by
  intro s t h
  rw [unexpected_eq h]
  exact .error h.visited

theorem simulates_expect (c : Char) :
    Simulates text (Reader.expect (byteLength text) c) (expect text c) :=
  (simulates_eat c).bind fun _ => (simulates_pure _).ite simulates_unexpected

theorem simulates_openBracket (c : Char) :
    Simulates text (Reader.openBracket (byteLength text) c) (openBracket text c) := by
  refine simulates_skipBlanks.bind fun _ => simulates_get fun s t h => ?_
  refine (simulates_expect c).bind fun _ => simulates_modify fun s' t' h' => ?_
  refine ⟨⟨h'.within.rest, fun o ho => ?_⟩, h'.position, ?_, h'.expecting, h'.earlier⟩
  · cases ho with
    | head => exact h.within.rest
    | tail _ ho => exact h'.within.opened o ho
  · show (c, t.position) :: t'.opened = _
    rw [h.position, h'.opened]
    rfl

theorem simulates_closeBracket :
    Simulates text (Reader.closeBracket (byteLength text)) (closeBracket text) := by
  refine simulates_get fun s t h => ?_
  rw [h.opened]
  cases s.opened with
  | nil => exact simulates_unexpected
  | cons o opened =>
      refine (simulates_eat _).bind fun _ => Simulates.ite ?_ simulates_unexpected
      refine simulates_modify fun s' t' h' => ?_
      refine ⟨⟨h'.within.rest, fun o ho => h'.within.opened o (List.mem_of_mem_tail ho)⟩,
        h'.position, ?_, h'.expecting, h'.earlier⟩
      show t'.opened.tail = _
      rw [h'.opened, List.map_tail]

/-- What ends with a bracket. -/
theorem simulates_closing (x : α) :
    Simulates text (do Reader.closeBracket (byteLength text); return x)
      (do closeBracket text; return x) :=
  simulates_closeBracket.bind fun _ => simulates_pure x

/-! ## Lists

The loop over bytes has the length of the whole text as its fuel, and the other one that of the
rest. Both are enough.
-/

theorem simulates_separatedLoop (separator : Char) (h : Simulates text r b) (fuel : Nat) :
    Simulates text (Reader.separatedLoop separator r fuel)
      (separatedLoop text separator b fuel) := by
  induction fuel with
  | zero => exact h.bind fun _ => simulates_pure _
  | succ fuel ih =>
      refine h.bind fun _ => (simulates_eat _).bind fun _ => ?_
      exact (ih.bind fun _ => simulates_pure _).ite (simulates_pure _)

theorem simulates_separated (separator : Char) (h : Simulates text r b)
    (hr : Reader.Passes 0 r) :
    Simulates text (Reader.separated separator r) (separated text separator b) := by
  intro s t ht
  rw [← Reader.separatedLoop_of_le hr ht.within.rest.length_le]
  exact simulates_separatedLoop separator h _ s t ht

theorem simulates_separatedUnless (stop : Option Char → Bool) (separator : Char)
    (h : Simulates text r b) (hr : Reader.Passes 0 r) :
    Simulates text (Reader.separatedUnless stop separator r)
      (separatedUnless text stop separator b) :=
  simulates_next_then fun _ =>
    ((simulates_pure _).ite (simulates_separated separator h hr)).at

/-! ## Names -/

theorem isNarrow_isNameChar : IsNarrow isNameChar :=
  (isNarrow_isAlphanum.or (isNarrow_beq rfl)).or (isNarrow_beq rfl)

theorem isNarrow_isNameStart : IsNarrow isNameStart :=
  fun c h => isNarrow_isNameChar c (isNameChar_of_isNameStart h)

theorem isNarrow_isReferenceChar : IsNarrow isReferenceChar :=
  isNarrow_isAlphanum.or (isNarrow_beq rfl)

/-- The name that comes next is the slice from where it begins to where the loop stops. -/
theorem outcome_identifier (h : Tracks text s t) (hname : startsName (dropBlanks s.rest) = true) :
    SameOutcome text (.ok (String.ofList ((dropBlanks s.rest).takeWhile isNameChar),
      { s with rest := (dropBlanks s.rest).dropWhile isNameChar })) (identifier text t) := by
  refine (outcome_skipBlanks h).then fun t₁ h₁ =>
    outcome_get ((outcome_peek h₁).then fun t₂ h₂ => ?_)
  rw [if_pos (by rw [← startsName_eq_any, hname])]
  obtain ⟨c, rest, hrest, hc⟩ : ∃ c rest, dropBlanks s.rest = c :: rest ∧ isNameStart c = true := by
    cases hrest : dropBlanks s.rest with
    | nil =>
        rw [hrest] at hname
        cases hname
    | cons c rest =>
        rw [hrest] at hname
        exact ⟨c, rest, rfl, hname⟩
  have hbehind : (dropBlanks s.rest).dropWhile isNameChar = rest.dropWhile isNameChar := by
    rw [hrest, List.dropWhile_cons_of_pos (isNameChar_of_isNameStart hc)]
  rw [hbehind]
  refine (outcome_advance_char h₂ hrest (isNarrow_isNameStart c hc)).then fun t₃ h₃ => ?_
  refine (outcome_passWhile isNarrow_isNameChar h₃).then fun t₄ h₄ => outcome_get ?_
  have happend : (dropBlanks s.rest).takeWhile isNameChar ++ rest.dropWhile isNameChar =
      dropBlanks s.rest := by
    rw [← hbehind, List.takeWhile_append_dropWhile]
  exact (outcome_slice h₄ h₁.within.rest happend h₁.position h₄.position).then fun _ h₅ => .ok h₅

/-- Where no name comes next both readers fail, and the cursor in bytes is behind the layout. -/
theorem identifier_fails (h : Tracks text s t) (hname : startsName (dropBlanks s.rest) = false) :
    ∃ error t', identifier text t = .error (.fault error) t' ∧
      Reader.identifier (byteLength text) s = .error error ∧
        Tracks text { s with rest := dropBlanks s.rest } t' := by
  obtain ⟨t', ht', h'⟩ := (outcome_skipBlanks h).exists_cursor
  refine ⟨unexpectedError (byteLength text) { s with rest := dropBlanks s.rest } .identifier, t',
    ?_, ?_, h'⟩
  · show EStateM.bind (skipBlanks text) _ t = _
    unfold EStateM.bind
    rw [ht']
    show EStateM.bind (peek text) _ t' = _
    unfold EStateM.bind
    rw [peek_eq h']
    dsimp only
    rw [if_neg (by rw [← startsName_eq_any, hname]; exact Bool.false_ne_true), unexpected_eq h']
  · show (if startsName (dropBlanks s.rest) = true then _ else _ : Reader String) _ = _
    rw [if_neg (by rw [hname]; exact Bool.false_ne_true)]
    rfl

theorem simulates_identifier :
    Simulates text (Reader.identifier (byteLength text)) (identifier text) := by
  intro s t h
  cases hname : startsName (dropBlanks s.rest) with
  | true =>
      have hrun := outcome_identifier h hname
      have hreader : Reader.identifier (byteLength text) s =
          .ok (String.ofList ((dropBlanks s.rest).takeWhile isNameChar),
            { s with rest := (dropBlanks s.rest).dropWhile isNameChar }) := by
        show (if startsName (dropBlanks s.rest) = true then _ else _ : Reader String) _ = _
        rw [if_pos hname]
        rfl
      rw [hreader]
      exact hrun
  | false =>
      obtain ⟨error, t', hrun, hreader, h'⟩ := identifier_fails h hname
      rw [hrun, hreader]
      exact .error h'.visited

theorem simulatesAt_markedName (hc : c.utf8Size = 1) {wanted : Wanted} :
    SimulatesAt text (some c) (Reader.markedName (byteLength text) wanted)
      (markedName text wanted) := by
  refine (simulatesAt_advance hc).bind fun _ => ?_
  intro s t h
  show SameOutcome text ((if startsName s.rest = true then _ else _ : Reader String) s) _
  rw [startsName_eq_any]
  exact (outcome_peek h).then fun t' h' =>
    simulates_identifier.ite simulates_unexpected s t' h'

/-! ## Paths -/

/-- A path begins with all of its first name. -/
theorem spanPath_eq (cs : List Char) : spanPath cs =
    (cs.takeWhile isNameChar ++ (spanPath (cs.dropWhile isNameChar)).1,
      (spanPath (cs.dropWhile isNameChar)).2) := by
  induction cs with
  | nil => rfl
  | cons c cs ih =>
      by_cases hc : isNameChar c = true
      · rw [spanPath, hc, Bool.true_or, if_pos rfl, List.takeWhile_cons_of_pos hc,
          List.dropWhile_cons_of_pos hc, ih]
        rfl
      · rw [List.takeWhile_cons_of_neg hc, List.dropWhile_cons_of_neg hc, List.nil_append]

theorem spanPath_dot {cs : List Char} (h : startsName cs = true) :
    spanPath ('.' :: cs) = ('.' :: (spanPath cs).1, (spanPath cs).2) := by
  rw [spanPath, h, if_pos (by decide)]

/-- What is read of a path up to a name, with what is left behind that name. -/
theorem append_spanPath_dot (path : String) (cs : List Char) :
    path ++ "." ++ String.ofList (cs.takeWhile isNameChar) ++
        String.ofList (spanPath (cs.dropWhile isNameChar)).1 =
      path ++ String.ofList ('.' :: (spanPath cs).1) := by
  have hdot (cs : List Char) : "." ++ String.ofList cs = String.ofList ('.' :: cs) :=
    String.ofList_append.symm
  rw [spanPath_eq cs, String.append_assoc, String.append_assoc, ← String.ofList_append, hdot]

theorem any_head?_dropWhile (p : Char → Bool) (cs : List Char) :
    ¬ (cs.dropWhile p).head?.any p = true := by
  rw [Option.any_eq_true]
  rintro ⟨c, hc, hpc⟩
  obtain ⟨u, hu⟩ := List.head?_eq_some_iff.mp hc
  rw [eq_false_of_dropWhile hu] at hpc
  cases hpc

/-- Where a path is at its end nothing is added to it. -/
theorem outcome_path_end
    {path : String} (h : Tracks text s t) (hspan : spanPath s.rest = ([], s.rest)) :
    SameOutcome text (.ok (path ++ String.ofList (spanPath s.rest).1,
      { s with rest := (spanPath s.rest).2 })) (.ok path t) := by
  rw [hspan, String.ofList_nil, String.append_empty]
  exact .ok h

/-- Behind a name the loop goes on from one dot to the next. -/
theorem outcome_pathLoop {fuel : Nat} (path : String) (h : Tracks text s t)
    (hfuel : s.rest.length ≤ fuel) (hend : ¬ s.rest.head?.any isNameChar = true) :
    SameOutcome text (.ok (path ++ String.ofList (spanPath s.rest).1,
      { s with rest := (spanPath s.rest).2 })) (pathLoop text fuel path t) := by
  induction fuel generalizing s t path with
  | zero =>
      have hrest : s.rest = [] := List.length_eq_zero_iff.mp (Nat.le_zero.mp hfuel)
      exact outcome_path_end h (by rw [hrest]; rfl)
  | succ fuel ih =>
      refine (outcome_peek h).then fun t₁ h₁ => (outcome_peekSecond h₁).then fun t₂ h₂ => ?_
      split
      · next hcond =>
          obtain ⟨hhead, hname⟩ : s.rest.head? = some '.' ∧
              s.rest.tail.head?.any isNameStart = true := by simpa using hcond
          obtain ⟨cs, hrest⟩ := List.head?_eq_some_iff.mp hhead
          rw [hrest, List.tail_cons, ← startsName_eq_any] at hname
          have hblanks : dropBlanks cs = cs := Reader.dropBlanks_of_startsName hname
          refine (outcome_advance_char h₂ hrest rfl).then fun t₃ h₃ => ?_
          have hidentifier := outcome_identifier h₃ (hblanks.symm ▸ hname)
          dsimp only at hidentifier
          rw [hblanks] at hidentifier
          refine hidentifier.then fun t₄ h₄ => ?_
          have hlength : (cs.dropWhile isNameChar).length ≤ fuel := by
            rw [hrest, List.length_cons] at hfuel
            exact Nat.le_trans (List.dropWhile_suffix _).length_le (Nat.le_of_succ_le_succ hfuel)
          have hlater := ih (path ++ "." ++ String.ofList (cs.takeWhile isNameChar)) h₄ hlength
            (any_head?_dropWhile _ _)
          rw [hrest, spanPath_dot hname, ← append_spanPath_dot, spanPath_eq cs]
          exact hlater
      · next hcond =>
          refine outcome_path_end h₂ ?_
          cases hrest : s.rest with
          | nil => rfl
          | cons c cs =>
              rw [hrest] at hcond hend
              have hc : isNameChar c = false := by simpa using hend
              have hdot : (c == '.' && startsName cs) = false := by
                rw [startsName_eq_any]
                simpa using hcond
              rw [spanPath, hc, hdot, if_neg (by decide)]

theorem simulates_path : Simulates text (Reader.path (byteLength text)) (path text) := by
  intro s t h
  cases hname : startsName (dropBlanks s.rest) with
  | true =>
      have hreader : Reader.path (byteLength text) s =
          .ok (String.ofList (spanPath (dropBlanks s.rest)).1,
            { s with rest := (spanPath (dropBlanks s.rest)).2 }) := by
        show (if startsName (dropBlanks s.rest) = true then _ else _ : Reader String) _ = _
        rw [if_pos hname]
        rfl
      rw [hreader, spanPath_eq, String.ofList_append]
      refine (outcome_identifier h hname).then fun t₁ h₁ => ?_
      exact outcome_pathLoop _ h₁ h₁.within.rest.length_le (any_head?_dropWhile _ _)
  | false =>
      obtain ⟨error, t', hrun, hreader, h'⟩ := identifier_fails h hname
      have hreader : Reader.path (byteLength text) s = .error error := by
        rw [← hreader]
        show (if startsName (dropBlanks s.rest) = true then _ else _ : Reader String) _ =
          (if startsName (dropBlanks s.rest) = true then _ else _ : Reader String) _
        rw [if_neg, if_neg]
        all_goals
          rw [hname]
          exact Bool.false_ne_true
      have hfails : SameOutcome (α := String) text (.error error) (identifier text t) := by
        rw [hrun]
        exact .error h'.visited
      rw [hreader]
      exact hfails.fails

/-! ## Declarations -/

theorem tryCatch_of_ok {handler : Stop → ByteReader α} {x : α} {t' : ByteCursor}
    (h : b t = .ok x t') : tryCatch b handler t = .ok x t' := by
  show EStateM.tryCatch b handler t = _
  unfold EStateM.tryCatch
  rw [h]

theorem tryCatch_of_error {handler : Stop → ByteReader α} {stop : Stop} {t' : ByteCursor}
    (h : b t = .error stop t') : tryCatch b handler t = handler stop t' := by
  show EStateM.tryCatch b handler t = _
  unfold EStateM.tryCatch
  rw [h]
  rfl

theorem outcome_nameBeforeColon (h : Tracks text s t)
    (hname : startsName (dropBlanks s.rest) = true) :
    SameOutcome text (.ok (Decoding.declaration? s.rest,
      { s with rest := dropBlanks ((dropBlanks s.rest).dropWhile isNameChar) }))
      (nameBeforeColon text t) := by
  refine (outcome_identifier h hname).then fun t₁ h₁ => (outcome_next h₁).then fun t₂ h₂ => ?_
  rw [Decoding.declaration?, hname, Bool.true_and]
  simp only [beq_iff_eq]
  exact .ok h₂

/-- The cursor comes back, whether or not a name was found. -/
theorem outcome_declaration? (h : Tracks text s t) :
    SameOutcome text (.ok (Decoding.declaration? s.rest, s)) (declaration? text t) := by
  have hback {s' : Cursor} {found : Option String} {t' : ByteCursor} (h' : Tracks text s' t')
      (hs : { s' with rest := s.rest } = s) :
      SameOutcome text (.ok (found, s)) ((moveTo t.position >>= fun _ => pure found) t') := by
    rw [← hs]
    exact (outcome_moveTo h' h.within.rest h.position).then fun _ h'' => .ok h''
  cases hname : startsName (dropBlanks s.rest) with
  | true =>
      obtain ⟨t', hrun, h'⟩ := (outcome_nameBeforeColon h hname).exists_cursor
      show SameOutcome text _ (EStateM.bind (tryCatch (nameBeforeColon text) _) _ t)
      unfold EStateM.bind
      rw [tryCatch_of_ok hrun]
      exact hback h' rfl
  | false =>
      obtain ⟨error, t', hrun, -, h'⟩ := identifier_fails h hname
      have hrun' : nameBeforeColon text t = .error (.fault error) t' := by
        show EStateM.bind (identifier text) _ t = _
        unfold EStateM.bind
        rw [hrun]
      have hnone : Decoding.declaration? s.rest = none := by
        rw [Decoding.declaration?, hname]
        rfl
      show SameOutcome text _ (EStateM.bind (tryCatch (nameBeforeColon text) _) _ t)
      unfold EStateM.bind
      rw [tryCatch_of_error hrun', hnone]
      exact hback h' rfl

end ByteReader

namespace ByteDecoding

open ByteReader

/-- The same document, read in front of the rest of its text. -/
def counted (d : ByteDecoding) : Decoding :=
  { d with size := byteLength d.text }

variable {d : ByteDecoding} {s : Cursor} {t : ByteCursor} {c : Char}

/-! ## Codes and keys -/

/-- When the code is unknown the cursor goes back to where it begins. -/
theorem simulates_code (table : Table) :
    Simulates d.text (d.counted.code table) (d.code table) := by
  refine simulates_skipBlanks.bind fun _ => ?_
  intro s t h
  show SameOutcome d.text ((if s.rest.head? = some '!' then _ else _ : Reader String) s) _
  refine (outcome_peek h).then fun t' h' => ?_
  split
  · next hmark => exact simulatesAt_markedName rfl s t' h' hmark
  · refine outcome_get (simulates_identifier.bind (fun short => ?_) s t' h')
    cases table.longFor? short with
    | some long => exact simulates_pure long
    | none =>
        intro s₁ t₁ h₁
        refine (outcome_moveTo h₁ h'.within.rest h'.position).then fun t₂ h₂ => ?_
        exact simulates_fail { s₁ with rest := s.rest } t₂ h₂

theorem simulates_propertyKey : Simulates d.text d.counted.propertyKey d.propertyKey := by
  refine simulates_next_then fun c => ?_
  cases c with
  | none => exact simulates_unexpected.at
  | some c =>
      show SimulatesAt d.text (some c) (if _ then _ else _) (if _ then _ else _)
      split
      · next hmark => exact simulatesAt_markedName (hmark ▸ rfl)
      · refine (Simulates.ite ?_ simulates_unexpected).at
        exact simulates_identifier.bind fun _ => simulates_pure _

/-! ## Strings -/

theorem isNarrow_isReserved : IsNarrow Quoted.isReserved := by
  have hall : Quoted.reserved.all (·.utf8Size == 1) = true := by decide
  intro c hc
  exact beq_iff_eq.mp (List.all_eq_true.mp hall c (List.contains_iff_mem.mp hc))

/-- What comes of a string whose body has been read, given what it held before. -/
def stringOutcome (size : Nat) (s : Cursor) (held : List Char) :
    Except (Quoted.Fault × List Char) (List Char × List Char) →
      Except ParseError (List Char × Cursor)
  | .ok (body, rest) => .ok (held ++ body, { s with rest := rest })
  | .error (fault, place) => .error ⟨Reader.offset size place, Decoding.stringFault fault⟩

theorem stringOutcome_map (size : Nat) (s : Cursor) (held : List Char) (c : Char)
    (body : Except (Quoted.Fault × List Char) (List Char × List Char)) :
    stringOutcome size s held (body.map fun q => (c :: q.1, q.2)) =
      stringOutcome size s (held ++ [c]) body := by
  cases body with
  | error _ => rfl
  | ok q =>
      show Except.ok (held ++ c :: q.1, _) = Except.ok (held ++ [c] ++ q.1, _)
      rw [List.append_assoc, List.singleton_append]

/-- The character behind an escape mark, if it may be marked. -/
theorem outcome_escaped (h : Tracks d.text s t) {cs : List Char} (hrest : s.rest = c :: cs)
    (hc : Quoted.isReserved c = true) :
    SameOutcome d.text (.ok (c, { s with rest := cs })) (d.escaped t) := by
  refine (outcome_peek h).then fun t₁ h₁ => ?_
  rw [hrest]
  dsimp only [List.head?_cons]
  rw [if_pos hc]
  exact (outcome_advance_char h₁ hrest (isNarrow_isReserved c hc)).then fun _ h₂ => .ok h₂

theorem outcome_escaped_bad (h : Tracks d.text s t) {cs : List Char} (hrest : s.rest = c :: cs)
    (hc : ¬ Quoted.isReserved c = true) :
    SameOutcome d.text (.error ⟨Reader.offset (byteLength d.text) (c :: cs), .badEscape c⟩)
      (d.escaped t) := by
  refine (outcome_peek h).then fun t₁ h₁ => ?_
  rw [hrest]
  dsimp only [List.head?_cons]
  rw [if_neg hc]
  exact outcome_fail h₁ hrest

theorem outcome_escaped_end (h : Tracks d.text s t) (hrest : s.rest = []) :
    SameOutcome d.text (.error ⟨Reader.offset (byteLength d.text) [], .endAfterEscape⟩)
      (d.escaped t) := by
  refine (outcome_peek h).then fun t₁ h₁ => ?_
  rw [hrest]
  exact outcome_fail h₁ hrest

/-- Behind an escape mark the loop goes on with the character that is marked, if it may be. -/
theorem outcome_escape {fuel : Nat} {held cs : List Char}
    (h : Tracks d.text { s with rest := cs } t)
    (hlater : ∀ {e rest t'}, cs = e :: rest → Tracks d.text { s with rest := rest } t' →
      SameOutcome d.text (stringOutcome (byteLength d.text) s (held ++ [e]) (Quoted.read rest))
        (d.stringLoop fuel (held ++ [e]) t'.position t')) :
    SameOutcome d.text (stringOutcome (byteLength d.text) s held (Quoted.read ('\\' :: cs)))
      ((d.escaped >>= fun c => get >>= fun s => d.stringLoop fuel (held ++ [c]) s.position) t) := by
  rw [Quoted.read.eq_def]
  dsimp only
  rw [if_neg (by decide), if_pos rfl]
  cases cs with
  | nil => exact (outcome_escaped_end h rfl).fails
  | cons e cs =>
      dsimp only
      split
      · next he =>
          rw [stringOutcome_map]
          exact (outcome_escaped h rfl he).then fun _ h' => outcome_get (hlater rfl h')
      · next he => exact (outcome_escaped_bad h rfl he).fails

/-- The loop over a string has read what it holds and, up to the cursor, a run that it does not yet
hold. -/
theorem outcome_stringLoop {fuel run : Nat} (held plain : List Char) (h : Tracks d.text s t)
    (hfuel : s.rest.length < fuel)
    (hrun : run = Reader.offset (byteLength d.text) (plain ++ s.rest))
    (hplain : plain ++ s.rest <:+ d.text) :
    SameOutcome d.text (stringOutcome (byteLength d.text) s (held ++ plain) (Quoted.read s.rest))
      (d.stringLoop fuel held run t) := by
  induction fuel generalizing s t held plain run with
  | zero => exact absurd hfuel (Nat.not_lt_zero _)
  | succ fuel ih =>
      refine (outcome_peek h).then fun t₁ h₁ => ?_
      have hslice {t : ByteCursor} (h : Tracks d.text s t) :
          SameOutcome d.text (.ok (plain, s)) (slice d.text run t.position t) :=
        outcome_slice h hplain rfl hrun h.position
      cases hrest : s.rest with
      | nil => exact outcome_fail h₁ hrest
      | cons c cs =>
          rw [hrest, List.length_cons] at hfuel
          dsimp only [List.head?_cons]
          split
          · next hquote =>
              refine outcome_get ((hslice h₁).then fun t₂ h₂ => ?_)
              refine (outcome_advance_char h₂ hrest (hquote ▸ rfl)).then fun t₃ h₃ => ?_
              rw [Quoted.read.eq_def]
              dsimp only
              rw [if_pos hquote, stringOutcome, List.append_nil]
              exact .ok h₃
          · next hquote =>
              split
              · next hescape =>
                  subst hescape
                  refine outcome_get ((hslice h₁).then fun t₂ h₂ => ?_)
                  refine (outcome_advance_char h₂ hrest rfl).then fun t₃ h₃ => ?_
                  refine outcome_escape h₃ fun {e rest t'} hcs h' => ?_
                  have hlength : rest.length < fuel := by
                    rw [hcs, List.length_cons] at hfuel
                    omega
                  have hlater := ih (held ++ plain ++ [e]) [] h' hlength h'.position h'.within.rest
                  rw [List.append_nil] at hlater
                  exact hlater
              · next hescape =>
                  refine (outcome_bump h₁ hrest).then fun t₂ h₂ => ?_
                  have happend : plain ++ s.rest = plain ++ [c] ++ cs := by
                    rw [hrest, List.append_assoc, List.singleton_append]
                  have hlater := ih held (plain ++ [c]) h₂ (Nat.lt_of_succ_lt_succ hfuel)
                    (happend ▸ hrun) (happend ▸ hplain)
                  rw [← List.append_assoc] at hlater
                  rw [Quoted.read.eq_def]
                  dsimp only
                  rw [if_neg hquote, if_neg hescape, stringOutcome_map]
                  exact hlater

theorem simulates_string : Simulates d.text d.counted.string d.string := by
  refine (simulates_expect _).bind fun _ => simulates_get fun s t h => ?_
  refine (simulates_expectNow _).bind fun _ => ?_
  intro s₁ t₁ h₁
  have hbody := outcome_stringLoop [] [] h₁
    (Nat.lt_succ_of_le h₁.within.rest.length_le) h₁.position h₁.within.rest
  refine outcome_look (outcome_get ?_)
  cases hread : Quoted.read s₁.rest with
  | error q =>
      rw [hread] at hbody
      exact hbody.fails
  | ok q =>
      rw [hread] at hbody
      refine hbody.then fun t₂ h₂ => ?_
      rw [h.expecting]
      exact ((simulates_expectNow s.expecting).bind fun _ => simulates_pure _) _ _ h₂

/-! ## Numerals and other scalars -/

/-- The end that is found in the bytes is that of the numeral in front of the cursor. -/
theorem simulates_number : Simulates d.text d.counted.number d.number := by
  intro s t h
  refine outcome_look (outcome_get ?_)
  have hscan : Numeral.scan? (utf8 d.text) t.position =
      (Numeral.split s.rest).map fun q => t.position + byteLength q.1 := by
    obtain ⟨before, hbefore⟩ := h.within.rest
    rw [h.position, ← hbefore, offset_append, Numeral.scan?_eq]
  rw [hscan]
  cases hsplit : Numeral.split s.rest with
  | none => exact simulates_unexpected s t h
  | some q =>
      obtain ⟨spelling, rest⟩ := q
      have hconcat : spelling ++ rest = s.rest := Numeral.split_concat hsplit
      have hplace : spelling ++ rest <:+ d.text := hconcat ▸ h.within.rest
      have hstop : t.position + byteLength spelling = Reader.offset (byteLength d.text) rest := by
        rw [h.position, ← hconcat, offset_add hplace]
      refine (outcome_moveTo h ((List.suffix_append _ _).trans hplace) hstop).then fun t₁ h₁ => ?_
      exact (outcome_slice h₁ h.within.rest hconcat h.position hstop).then fun _ h₂ => .ok h₂

theorem utf8Size_of_constant? {c : Option Char} {x : Scalar} (h : Decoding.constant? c = some x) :
    ∃ c', c = some c' ∧ c'.utf8Size = 1 := by
  unfold Decoding.constant? at h
  split at h
  · exact ⟨'1', rfl, rfl⟩
  · exact ⟨'0', rfl, rfl⟩
  · exact ⟨'_', rfl, rfl⟩
  · cases h

/-- The step of two bytes goes over the mark and the character behind it. -/
theorem simulatesAt_constant : SimulatesAt d.text (some '~') d.counted.constant d.constant := by
  intro s t h hc
  obtain ⟨cs, hrest⟩ := List.head?_eq_some_iff.mp hc
  refine outcome_look ((outcome_peekSecond h).then fun t₁ h₁ => ?_)
  cases hconstant : Decoding.constant? s.rest.tail.head? with
  | none => exact simulates_fail s t₁ h₁
  | some x =>
      obtain ⟨c, hhead, hc⟩ := utf8Size_of_constant? hconstant
      obtain ⟨rest, htail⟩ := List.head?_eq_some_iff.mp hhead
      have happend : s.rest = ['~', c] ++ rest := by
        rw [hrest, List.tail_cons] at htail
        rw [hrest, htail]
        rfl
      have hbytes : byteLength ['~', c] = 2 := by
        rw [byteLength_cons, byteLength_cons, hc]
        rfl
      rw [htail, List.tail_cons]
      exact (outcome_advance h₁ happend hbytes).then fun _ h₂ => .ok h₂

theorem simulatesAt_foldedLiteral :
    SimulatesAt d.text (some '#') d.counted.foldedLiteral d.foldedLiteral :=
  (simulatesAt_advance rfl).bind fun _ => (simulates_code _).bind fun _ => simulates_pure _

theorem simulatesAt_expression :
    SimulatesAt d.text (some '&') d.counted.expression d.expression :=
  (simulatesAt_advance rfl).bind fun _ => simulates_peek.bind fun _ =>
    (simulates_string.bind fun _ => simulates_pure _).ite simulates_unexpected

theorem simulates_tooDeep {α : Type} :
    Simulates d.text (d.counted.tooDeep (α := α)) d.tooDeep :=
  simulates_fail

end ByteDecoding

end WidgetShorthand
