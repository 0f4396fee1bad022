import WidgetShorthand.Proofs.CutValues

/-!
# Documents that were cut off

The forms of declarations, and whole documents. The theorem at the end says what becomes of a
document that ends inside a bracket: it is refused, and what the text ends with decides for what
reason.
-/

namespace WidgetShorthand

open Text Reader

namespace Decoding

variable {d : Decoding} {left lost : List Char} {size : Nat} {P : Cursor → Prop}

/-! ## Keywords -/

/-- The fuel is more than enough for both texts. -/
theorem lockstep_modifiersLoop (n n' : Nat) : Lockstep left lost
    (fun t => t.rest.length + lost.length < n ∧ t.rest.length < n')
    (d.modifiersLoop n) ((d.resized size).modifiersLoop n') := by
  induction n' generalizing n with
  | zero => exact lockstep_of_false fun t ht => Nat.not_lt_zero _ ht.2
  | succ n' ih =>
      cases n with
      | zero => exact lockstep_of_false fun t ht => Nat.not_lt_zero _ ht.1
      | succ n =>
          refine lockstep_next.bind (Q := fun c t => Ahead c t ∧
            t.rest.length + lost.length < n + 1 ∧ t.rest.length < n' + 1) ?_ fun c => ?_
          · rintro t c t' ⟨hlen, hlen'⟩ h _
            have hle := (passes_next h).suffix.length_le
            exact ⟨ahead_of_next h, by omega, by omega⟩
          · by_cases hc : c = some '%'
            · subst hc
              rw [if_pos rfl, if_pos rfl]
              refine (lockstep_modifier.mono fun t ht => ht.1).bind
                (Q := fun _ t => t.rest.length + lost.length < n ∧ t.rest.length < n')
                ?_ fun w => ?_
              · rintro t w t' ⟨_, hlen, hlen'⟩ h _
                have hlt := (passes_modifier h).length_lt
                omega
              · exact (ih n).then fun _ => lockstep_pure _
            · rw [if_neg hc, if_neg hc]
              exact lockstep_pure []

theorem lockstep_modifiers : Lockstep left lost P d.modifiers (d.resized size).modifiers := by
  refine lockstep_get fun t _ _ => (lockstep_modifiersLoop _ _).mono fun s hs => ?_
  rw [hs, Cursor.restored, List.length_append]
  exact ⟨Nat.lt_succ_self _, Nat.lt_succ_self _⟩

/-! ## Declarations -/

theorem lockstep_declaredType :
    Lockstep left lost P d.declaredType (Decoding.declaredType (d.resized size)) :=
  (lockstep_eat (by decide)).then fun _ =>
    ((lockstep_typeRef _).then fun _ => lockstep_pure _).ite (lockstep_pure _)

theorem lockstep_initializer : Lockstep left lost P d.initializer (d.resized size).initializer :=
  (lockstep_eat (by decide)).then fun _ =>
    ((lockstep_value _).then fun _ => lockstep_pure _).ite (lockstep_pure _)

theorem lockstep_field : Lockstep left lost P d.field (d.resized size).field :=
  lockstep_modifiers.then fun _ => lockstep_identifier.then fun _ =>
    lockstep_declaredType.then fun _ => lockstep_initializer.then fun _ => lockstep_pure _

theorem lockstep_param : Lockstep left lost P d.param (d.resized size).param :=
  lockstep_identifier.then fun _ => lockstep_declaredType.then fun _ => lockstep_pure _

theorem lockstep_statementValue :
    Lockstep left lost P d.statementValue (d.resized size).statementValue := by
  refine lockstep_next_then fun c => ?_
  split
  · exact lockstep_pure none
  · exact lockstep_pure none
  · exact (lockstep_value _).then fun _ => lockstep_pure _

/-- A statement without a value ends where something stands behind it. -/
theorem not_stuck_of_statementValue {t t' : Cursor} (h : d.statementValue t = .ok (none, t')) :
    ¬Stuck t'.rest := by
  obtain ⟨c, s₁, hnext, h⟩ := run_bind_eq_ok.mp h
  split at h
  · cases h
    exact not_stuck_of_ahead (ahead_of_next hnext) (by decide)
  · cases h
    exact not_stuck_of_ahead (ahead_of_next hnext) (by decide)
  · obtain ⟨v, s₂, -, h⟩ := run_bind_eq_ok.mp h
    cases h

/-- The statement that is left of one with a value has a value, or it is noticed that it is
missing. -/
theorem lockstep_statement : Lockstep left lost P d.statement (d.resized size).statement := by
  refine lockstep_modifiers.then fun keywords => ?_
  refine lockstep_statementValue.bind (Q := fun v t => v = none → ¬Stuck t.rest)
    (fun t v t' _ h _ hv => not_stuck_of_statementValue (hv ▸ h)) fun v => ?_
  split
  · next hempty =>
      have hnone : v = none := by simp_all
      exact lockstep_of_fails (fun _ _ => nofun) fun t ht _ hstuck => absurd hstuck (ht hnone)
  · exact lockstep_pure _

theorem lockstep_statements : Lockstep left lost P d.statements (d.resized size).statements :=
  lockstep_between (by decide)
    (lockstep_separatedUnless _ lockstep_statement passes_statement.onward (by decide))
    fun _ => (lockstep_pure _).follows

theorem lockstep_methodBody : Lockstep left lost P d.methodBody (d.resized size).methodBody := by
  refine lockstep_next_then fun c => ?_
  split
  · exact lockstep_advance (by decide) ((lockstep_widget _).then fun _ => lockstep_pure _)
  · exact lockstep_statements.then fun _ => lockstep_pure _
  · exact lockstep_unexpected _ _ _

theorem lockstep_params : Lockstep left lost P d.params (d.resized size).params :=
  lockstep_between (by decide)
    (lockstep_separatedUnless _ lockstep_param passes_param.onward (by decide))
    fun _ => (lockstep_pure _).follows

theorem lockstep_method : Lockstep left lost P d.method (d.resized size).method :=
  lockstep_modifiers.then fun _ => lockstep_identifier.then fun _ => lockstep_params.then fun _ =>
    lockstep_declaredType.then fun _ => lockstep_methodBody.then fun _ => lockstep_pure _

theorem lockstep_superType : Lockstep left lost P d.superType (d.resized size).superType :=
  lockstep_next_then fun _ => Lockstep.ite
    (lockstep_between (by decide) (lockstep_typeRef _) fun _ => (lockstep_pure _).follows)
    (lockstep_pure none)

theorem lockstep_classDecl : Lockstep left lost P d.classDecl (d.resized size).classDecl :=
  lockstep_identifier.then fun _ => lockstep_superType.then fun _ =>
    (lockstep_expect _ _ (by decide)).then fun _ =>
      (lockstep_separatedUnless _ lockstep_field passes_field.onward (by decide)).then fun _ =>
        (lockstep_expect _ _ (by decide)).then fun _ =>
          (lockstep_separatedUnless _ lockstep_method passes_method.onward (by decide)).then
            fun _ => lockstep_pure _

/-! ## Documents -/

theorem lockstep_declarationHeader :
    Lockstep left lost P d.declarationHeader (d.resized size).declarationHeader :=
  lockstep_identifier.then fun _ => lockstep_expect _ _ (by decide)

theorem literal_of_constant? {c : Option Char} {x : Scalar} (h : constant? c = some x) :
    ∃ l, x = .literal l := by
  unfold constant? at h
  split at h
  · cases h
    exact ⟨_, rfl⟩
  · cases h
    exact ⟨_, rfl⟩
  · cases h
    exact ⟨_, rfl⟩
  · cases h

theorem literal_of_constant {t t' : Cursor} {x : Scalar} (h : d.constant t = .ok (x, t')) :
    ∃ l, x = .literal l := by
  cases hconstant : constant? t.rest.tail.head? with
  | none =>
      rw [constant_of_none hconstant] at h
      cases h
  | some y =>
      rw [constant_of_some hconstant] at h
      cases h
      exact literal_of_constant? hconstant

theorem literal_of_number {t t' : Cursor} {x : Scalar} (h : d.number t = .ok (x, t')) :
    ∃ l, x = .literal l := by
  cases hsplit : Numeral.split t.rest with
  | none =>
      rw [number_of_none hsplit] at h
      exact absurd h (unexpected_ne_ok _ _)
  | some q =>
      rw [number_of_split hsplit] at h
      cases h
      exact ⟨_, rfl⟩

theorem isNameStart_of_startsLiteral {c : Char} (h : startsLiteral c = true) :
    isNameStart c = false := by
  simp only [startsLiteral, Bool.or_eq_true, beq_iff_eq] at h
  rcases h with ((rfl | rfl) | rfl) | hdigit
  · rfl
  · rfl
  · rfl
  · exact isNameStart_of_isDigit hdigit

/-- A value that begins like a literal is a literal. -/
theorem literal_of_valueWith {list : Reader (List Value)} {widget : Reader Widget} {c : Char}
    (hc : startsLiteral c = true) {t t' : Cursor} {v : Value} (hat : At c t)
    (h : d.valueWith list widget t = .ok (v, t')) : ∃ l, v = .scalar (.literal l) := by
  obtain ⟨u, hu⟩ := List.head?_eq_some_iff.mp hat
  have hsolid : dropBlanks t.rest = t.rest := by
    rw [hu]
    exact dropBlanks_cons (isSolid_of_startsValue (startsValue_of_startsLiteral hc)) u
  obtain ⟨c', t₁, hnext, h⟩ := run_bind_eq_ok.mp h
  have hc' : c' = some c := by
    cases hnext
    rw [hsolid]
    exact hat
  have hscalar {r : Reader Scalar} (hr : ∀ s y s', r s = .ok (y, s') → ∃ l, y = .literal l)
      (h : (r >>= fun x => pure (Value.scalar x)) t₁ = .ok (v, t')) :
      ∃ l, v = .scalar (.literal l) := by
    obtain ⟨x, s₂, hx, h⟩ := run_bind_eq_ok.mp h
    cases h
    obtain ⟨l, rfl⟩ := hr _ _ _ hx
    exact ⟨l, rfl⟩
  split at h
  · obtain ⟨x, s₂, -, h⟩ := run_bind_eq_ok.mp h
    cases h
    exact ⟨_, rfl⟩
  · exact hscalar (fun _ _ _ => literal_of_constant) h
  · cases hc'; cases hc
  · cases hc'; cases hc
  · cases hc'; cases hc
  · cases hc'; cases hc
  · cases hc'; cases hc
  · cases hc'
    split at h
    · exact hscalar (fun _ _ _ => literal_of_number) h
    · rw [if_neg (by rw [isNameStart_of_startsLiteral hc]; exact Bool.false_ne_true)] at h
      exact absurd h (unexpected_ne_ok _ _)
  · cases hc'

theorem literal_of_value {c : Char} (hc : startsLiteral c = true) {levels : Nat} {t t' : Cursor}
    {v : Value} (hat : At c t) (h : d.value levels t = .ok (v, t')) :
    ∃ l, v = .scalar (.literal l) := by
  cases levels with
  | zero => exact literal_of_valueWith hc hat h
  | succ levels =>
      rw [value_succ] at h
      exact literal_of_valueWith hc hat h

theorem lockstep_plainItem : Lockstep left lost P d.plainItem (d.resized size).plainItem := by
  refine lockstep_next_then fun c => ?_
  by_cases hc : c.any startsLiteral = true
  · obtain ⟨c, rfl, hliteral⟩ := (Option.any_eq_true ..).mp hc
    rw [if_pos hc, if_pos hc]
    refine (lockstep_value _).bind (Q := fun v _ => ∃ l, v = .scalar (.literal l))
      (fun t v t' hat h _ => literal_of_value hliteral hat h) fun v => ?_
    split
    · exact lockstep_pure _
    · next hother => exact lockstep_of_false fun t ⟨l, hl⟩ => hother l hl
  · rw [if_neg hc, if_neg hc]
    exact (lockstep_widget _).then fun _ => lockstep_pure _

/-! What is declared is looked up in the text ahead of the cursor. As long as no bracket is open,
the cut is not that near. -/

/-- Characters of a run, and of what stands behind it. -/
theorem forall_mem_of_dropWhile {p q : Char → Bool} {cs : List Char}
    (hp : ∀ c, p c = true → q c = true) (h : ∀ c ∈ cs.dropWhile p, q c = true) :
    ∀ c ∈ cs, q c = true := by
  intro c hc
  rw [← List.takeWhile_append_dropWhile (p := p) (l := cs), List.mem_append] at hc
  rcases hc with hrun | hbehind
  · exact hp c (List.mem_takeWhile_imp hrun)
  · exact h c hbehind

/-- A text that goes up to a bracket shows what is declared, whatever stands behind it. -/
theorem declaration?_append {cs : List Char} (h : ¬∀ c ∈ cs, (!isBracket c) = true)
    (lost : List Char) : declaration? (cs ++ lost) = declaration? cs := by
  have hblank (c : Char) (hc : isBlank c = true) : (!isBracket c) = true := by
    rw [Scan.isBracket_of_isBlank c hc]
    rfl
  have hname (c : Char) (hc : isNameChar c = true) : (!isBracket c) = true := by
    rw [Scan.isBracket_of_isNameChar c hc]
    rfl
  cases hb : dropBlanks cs with
  | nil =>
      refine absurd (forall_mem_of_dropWhile hblank ?_) h
      rw [show cs.dropWhile isBlank = [] from hb]
      exact nofun
  | cons c u =>
      cases hv : dropBlanks ((c :: u).dropWhile isNameChar) with
      | nil =>
          refine absurd (forall_mem_of_dropWhile hblank ?_) h
          rw [show cs.dropWhile isBlank = _ from hb]
          refine forall_mem_of_dropWhile hname (forall_mem_of_dropWhile hblank ?_)
          rw [show List.dropWhile isBlank _ = [] from hv]
          exact nofun
      | cons d v =>
          have hne : (c :: u).dropWhile isNameChar ≠ [] := by
            intro hnil
            rw [hnil] at hv
            cases hv
          unfold declaration?
          rw [hb, dropBlanks_append_of_cons hb, ← List.cons_append]
          dsimp only
          rw [takeWhile_append_of_ne hne, dropWhile_append_of_ne hne, hv,
            dropBlanks_append_of_cons hv]
          rfl

theorem declaration?_stuck {rest : List Char} (h : Stuck rest) : declaration? rest = none := by
  rcases h with rfl | rfl
  · rfl
  · rfl

section

variable (hopen : lost = [] ∨ (scan left).opened ≠ [])

include hopen

theorem declaration?_restored {t : Cursor} (ht : Fits left t) (ho : t.opened = []) :
    declaration? (t.restored lost).rest = declaration? t.rest := by
  rw [Cursor.rest_restored]
  rcases hopen with rfl | hopen
  · rw [List.append_nil]
  · refine declaration?_append (fun hall => hopen ?_) lost
    obtain ⟨e, hs, -⟩ := ht.scanned
    rw [← List.append_nil t.rest] at hs
    rw [hs.run.at_end, Scan.opened_run fun c hc => by simpa using hall c hc]
    exact congrArg (List.map _) ho

/-- Between items no bracket is open. -/
theorem lockstep_item :
    Lockstep left lost (fun t => t.opened = []) d.item (d.resized size).item := by
  refine (lockstep_expectNow _).bind (Q := fun _ t => t.opened = [])
    (fun t _ t' ho _ hsame => hsame.trans ho) fun _ => ?_
  refine lockstep_get fun t ho ht => ?_
  have hfails {α : Type} {r r' : Reader α} {name : String} (hr : ∀ s q, r s ≠ .ok q)
      (hname : declaration? t.rest = some name) : Lockstep left lost (fun s => s = t) r r' := by
    refine lockstep_of_fails hr fun s hs _ hstuck => ?_
    rw [hs] at hstuck
    rw [declaration?_stuck hstuck] at hname
    cases hname
  rw [declaration?_restored hopen ht ho]
  split
  · exact lockstep_declarationHeader.then fun _ => lockstep_classDecl.then fun _ => lockstep_pure _
  · exact lockstep_declarationHeader.then fun _ => lockstep_method.then fun _ => lockstep_pure _
  · next hname => exact hfails (fun _ _ => nofun) hname
  · next hname => exact hfails (fun _ _ => nofun) hname
  · exact lockstep_plainItem

theorem lockstep_root :
    Lockstep left lost (fun t => t.opened = []) d.root (d.resized size).root := by
  have hkept : Kept fun t : Cursor => t.opened = [] := fun _ _ hsame ho => hsame.trans ho
  have hitem : Lockstep left lost (fun t => t.opened = []) d.item (d.resized size).item :=
    lockstep_item hopen
  refine lockstep_get fun t ho ht => ?_
  rw [declaration?_restored hopen ht ho]
  refine Lockstep.ite ?_ (hitem.mono fun s hs => hs ▸ ho)
  refine lockstep_declarationHeader.bind (Q := fun _ t => t.opened = [])
    (fun s _ s' hs _ hsame => hsame.trans (hs ▸ ho)) fun _ => ?_
  exact (lockstep_separated hkept hitem passes_item.onward (by decide)).then
    fun _ => lockstep_pure _

theorem lockstep_document :
    Lockstep left lost (fun t => t.opened = []) d.document (d.resized size).document := by
  refine lockstep_next.bind (Q := fun _ t => t.opened = [])
    (fun t _ t' ho _ hsame => hsame.trans ho) fun c => ?_
  refine (lockstep_pure _).ite ((lockstep_root hopen).then fun node => ?_)
  exact lockstep_next_then fun _ => (lockstep_unexpected _ _ _).ite (lockstep_pure _)

end

end Decoding

/-- A document is read as far as it goes, also if only its beginning is there. -/
theorem Decoder.outcome_of_decode {d : Decoder} {left lost : List Char} {tree : Node}
    (h : d.decode (String.ofList (left ++ lost)) = .ok tree)
    (hopen : lost = [] ∨ (scan left).opened ≠ []) :
    ∃ s', Outcome left lost ⟨left, [], .node⟩ tree s'
      (Decoding.document { d with size := byteLength left } ⟨left, [], .node⟩) := by
  rw [Decoder.decode, String.toList_ofList] at h
  obtain ⟨⟨tree, s'⟩, hrun, rfl⟩ := map_eq_ok.mp h
  let whole : Decoding := { d with size := byteLength (left ++ lost) }
  have hfits : Fits left ⟨left, [], .node⟩ := fits_of_gap ⟨[], rfl, rfl⟩
  have hdocument : Lockstep left lost (fun t => t.opened = []) whole.document
      (whole.resized (byteLength left)).document := Decoding.lockstep_document hopen
  exact ⟨s', @hdocument.follows ⟨left, [], .node⟩ rfl hfits tree s' hrun⟩

/-- A document that is cut where a bracket is open is refused. If the cut is in a string, the string
is unterminated. Behind the mark of a constant, the sign of a number, or the dot of a path, the
fault is that of finding something else than expected; the end of the text is not looked for there.
Everywhere else the bracket is what is missing, or a code or the id of a reference is unknown that
was cut in two. -/
theorem Decoder.decode_cut {d : Decoder} {left lost : String} {tree : Node}
    (h : d.decode (left ++ lost) = .ok tree) (hopen : (scan left.toList).opened ≠ []) :
    ∃ error, d.decode left = .error error ∧ CutFault left.toList lost.toList error.fault := by
  have hwhole : d.decode (String.ofList (left.toList ++ lost.toList)) = .ok tree := by
    rwa [← String.toList_append, String.ofList_toList]
  obtain ⟨s', hout⟩ := Decoder.outcome_of_decode hwhole (.inr hopen)
  cases hcut : Decoding.document { d with size := byteLength left.toList }
      ⟨left.toList, [], .node⟩ with
  | error error =>
      rw [hcut] at hout
      exact ⟨error, map_of_error hcut, hout hopen⟩
  | ok q =>
      -- A document that is read is read to its end, and then no bracket is open.
      obtain ⟨tree', t'⟩ := q
      have hend := Decoding.rest_of_document hcut
      rw [hcut] at hout
      obtain ⟨hopened, hfits, -⟩ := hout
      obtain ⟨e, hs, -⟩ := hfits.scanned
      rw [hend] at hs
      refine absurd ?_ hopen
      rw [hs.at_end]
      exact congrArg (List.map _) hopened

/-- Cuts behind a token, behind the dot of a path, in a string, and behind two of the marks. -/
theorem Decoder.decode_cut_places :
    let d : Decoder := ⟨.empty, .empty, 8⟩
    let reports (left : String) (kind : FaultKind) : Prop :=
      ∃ error, d.decode left = .error error ∧ error.fault.kind = kind
    (∃ tree, d.decode "!P\x7ba:b.c,d:[\"x\",~1,-2]\x7d" = .ok tree) ∧
      reports "!P\x7ba:b.c" .unbalancedBracket ∧
      reports "!P\x7ba:b." .unexpectedToken ∧
      reports "!P\x7ba:b.c,d:[\"x" .unterminatedString ∧
      reports "!P\x7ba:b.c,d:[\"x\",~" .unexpectedToken ∧
      reports "!P\x7ba:b.c,d:[\"x\",~1,-" .unexpectedToken := by
  intro d reports
  obtain ⟨tree, hread⟩ := Option.isSome_iff_exists.mp
    (show (d.decode "!P\x7ba:b.c,d:[\"x\",~1,-2]\x7d").toOption.isSome = true by decide +kernel)
  have hwhole : d.decode "!P\x7ba:b.c,d:[\"x\",~1,-2]\x7d" = .ok tree := ok_of_toOption hread
  have hcut (left lost : String) (e : Ending) (kind : FaultKind)
      (hsplit : left ++ lost = "!P\x7ba:b.c,d:[\"x\",~1,-2]\x7d")
      (hscan : (scan left.toList).ending = e ∧ (scan left.toList).opened ≠ [])
      (hkind : ∀ fault, CutFault left.toList lost.toList fault → (scan left.toList).ending = e →
        fault.kind = kind) : reports left kind := by
    obtain ⟨error, herror, hfault⟩ := Decoder.decode_cut (hsplit ▸ hwhole) hscan.2
    exact ⟨error, herror, hkind _ hfault hscan.1⟩
  refine ⟨⟨tree, hwhole⟩, ?_, ?_, ?_, ?_, ?_⟩
  · refine hcut "!P\x7ba:b.c" ",d:[\"x\",~1,-2]\x7d" (.name false) _ (by decide +kernel)
      (by decide +kernel) fun fault hfault hname => ?_
    rw [CutFault, hname] at hfault
    -- A name that is cut in two would go on behind the cut.
    refine hfault.resolve_right ?_
    rintro (⟨_, _, _, _, hlost⟩ | ⟨_, _, hlost⟩)
    · exact absurd (show isNameChar ',' = true from hlost) (by decide)
    · exact absurd (show isReferenceChar ',' = true from hlost) (by decide)
  · refine hcut "!P\x7ba:b." "c,d:[\"x\",~1,-2]\x7d" .dot _ (by decide +kernel)
      (by decide +kernel) fun fault hfault hdot => ?_
    rwa [CutFault, hdot] at hfault
  · refine hcut "!P\x7ba:b.c,d:[\"x" "\",~1,-2]\x7d" .string _ (by decide +kernel)
      (by decide +kernel) fun fault hfault hstring => ?_
    rwa [CutFault, hstring] at hfault
  · refine hcut "!P\x7ba:b.c,d:[\"x\",~" "1,-2]\x7d" .tilde _ (by decide +kernel)
      (by decide +kernel) fun fault hfault htilde => ?_
    rwa [CutFault, htilde] at hfault
  · refine hcut "!P\x7ba:b.c,d:[\"x\",~1,-" "2]\x7d" .minus _ (by decide +kernel)
      (by decide +kernel) fun fault hfault hminus => ?_
    rwa [CutFault, hminus] at hfault

end WidgetShorthand
