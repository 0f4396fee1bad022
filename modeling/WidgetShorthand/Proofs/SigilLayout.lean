import WidgetShorthand.Proofs.CutDocuments

/-!
# Layout behind sigils

A sigil has to stand right in front of what it introduces: a text in which one does not is torn, it
stays so to its end, and no document ends like that. The readers of keywords and of folded literals
are the exception. They pass the mark and then read a code, and whatever reads a code passes layout
first.
-/

namespace WidgetShorthand

open Text Reader

/-! ## Sigils -/

/-- The sigils that do not bear layout behind them. -/
def isBinding (c : Char) : Bool :=
  among ['!', '&', '@', '~', '-'] c

namespace Ending

/-- Whether a character behind the text is a sigil that does not bear layout behind it. In a string
there are no sigils, and what goes on with a numeral is none. -/
def binds : Ending → Char → Bool
  | .string, _ | .escape, _ => false
  | .numeral spelling, c => isBinding c && !Numeral.isNumeral (spelling ++ [c])
  | _, c => isBinding c

/-- What has to be gone on with at once. -/
def pressing : Ending → Bool
  | .mark _ | .sigil | .tilde | .minus | .torn => true
  | _ => false

variable {e : Ending} {c blank : Char}

theorem pressing_of_binds (h : e.binds c = true) : (e.step c).pressing = true := by
  have hstep {e : Ending}
    (hall : ['!', '&', '@', '~', '-'].all (fun c => (e.step c).pressing) = true)
      (hc : isBinding c = true) : (e.step c).pressing = true :=
    of_among hall hc
  cases e with
  | string => cases h
  | escape => cases h
  | numeral spelling =>
      obtain ⟨hc, hend⟩ := (Bool.and_eq_true ..).mp h
      rw [Bool.not_eq_true'] at hend
      rw [show (Ending.numeral spelling).step c = fresh c from if_neg (by rw [hend]; exact nofun)]
      exact hstep (e := .gap) (by decide) hc
  | name keyword => exact hstep (by cases keyword <;> decide) h
  | mark keyword => exact hstep (by cases keyword <;> decide) h
  | _ => exact hstep (by decide) h

theorem torn_of_pressing (h : e.pressing = true) (hblank : isBlank blank = true) :
    e.step blank = .torn := by
  cases e with
  | mark keyword => exact if_pos hblank
  | sigil => exact if_pos hblank
  | minus => exact if_pos hblank
  | torn => rfl
  | tilde =>
      simp only [isBlank, Bool.or_eq_true, beq_iff_eq] at hblank
      rcases hblank with (((rfl | rfl) | rfl) | rfl) | rfl <;> decide
  | _ => cases h

end Ending

/-! ## Torn texts -/

namespace Scan

variable {x : Scan}

theorem ending_step (c : Char) : (x.step c).ending = x.ending.step c :=
  rfl

theorem torn_run (h : x.ending = .torn) (u : List Char) : (x.run u).ending = .torn := by
  induction u generalizing x with
  | nil => exact h
  | cons c u ih => exact ih (by rw [ending_step, h]; rfl)

end Scan

/-- A document is over where a token is. -/
theorem Decoder.calm_of_decode {d : Decoder} {text : String} {tree : Node}
    (h : d.decode text = .ok tree) : (scan text.toList).ending.calm = true := by
  have hwhole : d.decode (String.ofList (text.toList ++ [])) = .ok tree := by
    rwa [List.append_nil, String.ofList_toList]
  obtain ⟨s', hout⟩ := Decoder.outcome_of_decode hwhole (.inl rfl)
  obtain ⟨⟨tree', t'⟩, hrun, -⟩ := map_eq_ok.mp h
  rw [hrun] at hout
  obtain ⟨e, hs, hcalm, -⟩ := hout.2.1.scanned
  rw [Decoding.rest_of_document hrun] at hs
  rw [hs.at_end]
  exact hcalm

theorem Decoder.exists_error_of_torn (d : Decoder) {text : List Char}
    (h : (scan text).ending = .torn) : ∃ error, d.decode (String.ofList text) = .error error := by
  cases hread : d.decode (String.ofList text) with
  | error error => exact ⟨error, rfl⟩
  | ok tree =>
      have hcalm := Decoder.calm_of_decode hread
      rw [String.toList_ofList, h] at hcalm
      cases hcalm

/-! ## The marks that bear layout -/

namespace Decoding

variable {d : Decoding} {t : Cursor} {u layout rest : List Char} {o : List OpenBracket}
  {e : Expectation}

theorem foldedLiteral_eq (ht : t.rest = '#' :: u) : d.foldedLiteral t =
    (d.code d.symbols.literals >>= fun long => pure (unfold long))
      { t with rest := dropBlanks u } := by
  have hliteral : d.foldedLiteral t = (d.code d.symbols.literals >>= fun long => pure (unfold long))
      { t with rest := t.rest.tail } := rfl
  rw [hliteral, ht, List.tail_cons]
  show Except.bind _ _ = Except.bind _ _
  rw [code_dropBlanks]

theorem modifier_layout (h : ∀ c ∈ layout, isBlank c = true) :
    d.modifier ⟨'%' :: (layout ++ rest), o, e⟩ = d.modifier ⟨'%' :: rest, o, e⟩ := by
  rw [modifier_eq rfl, modifier_eq rfl, dropBlanks_append_of_all h]

theorem foldedLiteral_layout (h : ∀ c ∈ layout, isBlank c = true) :
    d.foldedLiteral ⟨'#' :: (layout ++ rest), o, e⟩ = d.foldedLiteral ⟨'#' :: rest, o, e⟩ := by
  rw [foldedLiteral_eq rfl, foldedLiteral_eq rfl, dropBlanks_append_of_all h]

end Decoding

/-- Outside of strings, a document with layout behind the mark of a name, an expression, a reference
or a constant, or behind the sign of a number, is refused. Behind the mark of a keyword or of a
folded literal layout makes no difference. -/
theorem Decoder.layout_behind_sigils (d : Decoder) :
    (∀ (before behind : List Char) (sigil blank : Char),
      (scan before).ending.binds sigil = true → isBlank blank = true →
        ∃ error, d.decode (String.ofList (before ++ sigil :: blank :: behind)) = .error error) ∧
    ∀ (size : Nat) (layout rest : List Char) (o : List OpenBracket) (e : Expectation),
      (∀ c ∈ layout, isBlank c = true) →
        let reading : Decoding := { d with size := size }
        reading.modifier ⟨'%' :: (layout ++ rest), o, e⟩ = reading.modifier ⟨'%' :: rest, o, e⟩ ∧
          reading.foldedLiteral ⟨'#' :: (layout ++ rest), o, e⟩ =
            reading.foldedLiteral ⟨'#' :: rest, o, e⟩ := by
  constructor
  · intro before behind sigil blank hbinds hblank
    refine d.exists_error_of_torn ?_
    have htorn : (scan (before ++ [sigil, blank])).ending = .torn := by
      rw [scan, Scan.run_append, Scan.run_cons, Scan.run_cons]
      exact Ending.torn_of_pressing (Ending.pressing_of_binds hbinds) hblank
    rw [show before ++ sigil :: blank :: behind = before ++ [sigil, blank] ++ behind by simp]
    rw [scan, Scan.run_append]
    exact Scan.torn_run htorn behind
  · intro size layout rest o e hlayout reading
    exact ⟨Decoding.modifier_layout hlayout, Decoding.foldedLiteral_layout hlayout⟩

/-- Layout behind two of the marks that do not bear it, and behind those that do. -/
theorem Decoder.layout_behind_sigils_forms :
    let literals : Table := ⟨.literal, [("double.infinity", "di")]⟩
    let d : Decoder := ⟨⟨.empty .type, .empty .property, .empty .keyword, literals⟩, .empty, 8⟩
    let reading : Decoding := { d with size := 12 }
    (∃ error, d.decode "!P\x7ba:~ 1\x7d" = .error error) ∧
      (∃ error, d.decode "!P\x7ba:- 1\x7d" = .error error) ∧
      (∃ s', reading.modifier ⟨"% !x.\x7d".toList, [], .node⟩ = .ok ("x", s')) ∧
      (∃ s', reading.foldedLiteral ⟨"# di\x7d".toList, [], .node⟩ =
        .ok (.ident "double.infinity", s')) ∧
      (d.decode "m:f()\x7b% !x.\x7d").toOption.isSome = true ∧
      (d.decode "!P\x7ba:# di\x7d").toOption.isSome = true := by
  intro literals d reading
  have hblank : ∀ c ∈ [' '], isBlank c = true := List.forall_mem_singleton.mpr rfl
  have hsigils := Decoder.layout_behind_sigils d
  refine ⟨?tilde, ?minus, ?percent, ?hash, by decide +kernel, by decide +kernel⟩
  case tilde =>
    exact hsigils.1 "!P\x7ba:".toList "1\x7d".toList '~' ' ' (by decide +kernel) (by decide)
  case minus =>
    exact hsigils.1 "!P\x7ba:".toList "1\x7d".toList '-' ' ' (by decide +kernel) (by decide)
  case percent =>
    have hread : reading.modifier ⟨"%!x.\x7d".toList, [], .node⟩ = .ok ("x", ⟨['}'], [], .node⟩) :=
      ok_of_toOption (by decide +kernel)
    exact ⟨_, (hsigils.2 12 [' '] "!x.\x7d".toList [] .node hblank).1.trans hread⟩
  case hash =>
    have hread : reading.foldedLiteral ⟨"#di\x7d".toList, [], .node⟩ =
        .ok (.ident "double.infinity", ⟨['}'], [], .node⟩) :=
      ok_of_toOption (by decide +kernel)
    exact ⟨_, (hsigils.2 12 [' '] "di\x7d".toList [] .node hblank).2.trans hread⟩

end WidgetShorthand
