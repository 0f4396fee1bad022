import WidgetShorthand.Proofs.AcceptedValues
import WidgetShorthand.Proofs.CutTexts

/-!
# Tokens of a cut text

Names, codes, keys, strings and numbers, each read in a whole text and in what is left of it. A
token is read as far as it goes, so the cut makes a difference to it only if the token goes up to
the cut.

What was seen of the text goes along: which ending the token makes of it, and with it what a cut
inside the token is blamed on. Only a string, a constant, a sign and a dot cannot be left unfinished
without being noticed at once; of a name, a number and a path, what is left is a token too.
-/

namespace WidgetShorthand

open Text Reader

namespace Reader

variable {left lost : List Char} {size size' : Nat} {t s' : Cursor} {keyword : Bool} {e : Ending}
  {x : String}

/-! ## Names -/

/-- What may come of a reader of a name, also where the name is a keyword. -/
def NameOutcome (left lost : List Char) (keyword : Bool) (t : Cursor) (x : String) (s' : Cursor) :
    Except ParseError (String × Cursor) → Prop
  | .ok (y, t') =>
    t'.opened = t.opened ∧ Scanned left t'.rest ⟨.name keyword, t.brackets⟩ ∧
      (∀ c u, t'.rest = c :: u → isNameChar c = false) ∧
      (y = x ∧ t'.restored lost = s' ∨ t'.rest = [])
  | .error error => Explained left lost error

/-- Behind a name that is no keyword the next token begins. -/
theorem NameOutcome.outcome {result : Except ParseError (String × Cursor)}
    (h : NameOutcome left lost false t x s' result) : Outcome left lost t x s' result := by
  cases result with
  | error error => exact h
  | ok q =>
      obtain ⟨hopened, hs, hend, hcase⟩ := h
      rw [← show q.2.brackets = t.brackets by rw [Cursor.brackets, hopened]; rfl] at hs
      refine ⟨hopened, ⟨_, hs, rfl, fun c u hc => ?_⟩, hcase.imp_right .inl⟩
      show (if isNameChar c = true then _ else _) = _
      rw [hend c u hc, if_neg Bool.false_ne_true]
      rfl

theorem dropBlanks_of_startsName {cs : List Char} (h : startsName cs = true) :
    dropBlanks cs = cs := by
  cases cs with
  | nil => rfl
  | cons c u => exact dropBlanks_cons (isSolid_of_isNameChar (isNameChar_of_isNameStart h)) u

theorem identifier_of_startsName (h : startsName t.rest = true) :
    identifier size t = .ok (String.ofList (t.rest.takeWhile isNameChar),
      { t with rest := t.rest.dropWhile isNameChar }) := by
  show (if startsName (dropBlanks t.rest) = true then _ else _ : Reader String) _ = _
  rw [dropBlanks_of_startsName h, if_pos h]
  rfl

theorem scanned_name {c : Char} {u : List Char} (hs : Scanned left (c :: u) ⟨e, t.brackets⟩)
    (hstart : isNameStart c = true) (he : e.step c = .name keyword) :
    Scanned left ((c :: u).dropWhile isNameChar) ⟨.name keyword, t.brackets⟩ := by
  have hc : isNameChar c = true := isNameChar_of_isNameStart hstart
  have hsplit := List.takeWhile_append_dropWhile (p := isNameChar) (l := c :: u)
  rw [← hsplit] at hs
  have hrun := hs.run
  rw [List.takeWhile_cons_of_pos hc] at hrun
  rwa [Scan.run_name he] at hrun
  rintro d (_ | ⟨_, hd⟩)
  · exact hc
  · exact List.mem_takeWhile_imp hd

/-- A name in front of the cursor, or the part of it that is left. -/
theorem identifier_follows {c : Char} {u : List Char} (ht : t.rest = c :: u)
    (hs : Scanned left t.rest ⟨e, t.brackets⟩) (hstart : isNameStart c = true)
    (he : e.step c = .name keyword) (hr : identifier size (t.restored lost) = .ok (x, s')) :
    NameOutcome left lost keyword t x s' (identifier size' t) := by
  have hname : startsName t.rest = true := by rw [ht]; exact hstart
  have hname' : startsName (t.restored lost).rest = true := by
    rw [Cursor.rest_restored_of_cons ht]
    exact hstart
  rw [identifier_of_startsName hname]
  rw [identifier_of_startsName hname'] at hr
  rw [ht] at hs ⊢
  refine ⟨rfl, scanned_name hs hstart he, fun d v hd => eq_false_of_dropWhile hd, ?_⟩
  by_cases hnil : (c :: u).dropWhile isNameChar = []
  · exact .inr hnil
  · cases hr
    refine .inl ⟨?_, ?_⟩
    · rw [Cursor.rest_restored, ht, takeWhile_append_of_ne hnil]
    · simp only [Cursor.restored, ht, dropWhile_append_of_ne hnil]

theorem next_identifier : (next >>= fun _ => identifier size) = identifier size := by
  funext t
  show (if startsName (dropBlanks (dropBlanks t.rest)) = true then _ else _ : Reader String) _ = _
  rw [dropBlanks_dropBlanks]
  rfl

theorem identifier_of_solid (hsolid : dropBlanks t.rest = t.rest)
    (h : startsName t.rest = false) :
    identifier size t = unexpected size .identifier t := by
  show (if startsName (dropBlanks t.rest) = true then _ else _ : Reader String)
    { t with rest := dropBlanks t.rest } = _
  rw [hsolid, h]
  rfl

theorem isNameStart_of_identifier {c : Char} {u : List Char} (ht : t.rest = c :: u)
    (hc : isSolid c = true) {q : String × Cursor} (h : identifier size t = .ok q) :
    isNameStart c = true := by
  rw [← Bool.not_eq_false]
  intro hstart
  rw [identifier_of_solid (by rw [ht, dropBlanks_cons hc]) (by rw [ht]; exact hstart)] at h
  exact absurd h (unexpected_ne_ok _ _)

/-- At the end, and in front of a dot that was left over, there is no name. -/
theorem identifier_stuck (hstuck : Stuck t.rest) :
    identifier size t = unexpected size .identifier t := by
  refine identifier_of_solid (dropBlanks_of_stuck hstuck) ?_
  rcases hstuck with hend | hdot
  · rw [hend]
    rfl
  · rw [hdot]
    decide

theorem halts_identifier {P : Cursor → Prop} : Halts left lost P (identifier size) := by
  intro t _ ht hstuck
  rw [identifier_stuck hstuck]
  exact explained_of_stuck ht hstuck lost size _ _

theorem lockstep_identifier {P : Cursor → Prop} :
    Lockstep left lost P (identifier size) (identifier size') := by
  refine lockstep_behind_blanks next_identifier next_identifier (fun c hc => ?_) halts_identifier
  refine ⟨fun t hat ht x s' hr => ?_, halts_identifier⟩
  obtain ⟨u, hu⟩ := List.head?_eq_some_iff.mp hat
  obtain ⟨e, hs, hcalm, hfresh⟩ := ht.scanned
  have hstart : isNameStart c = true :=
    isNameStart_of_identifier (Cursor.rest_restored_of_cons hu lost) hc hr
  have he : e.step c = .name false := (hfresh c u hu).trans (Ending.fresh_of_isNameStart hstart)
  exact (identifier_follows hu hs hstart he hr).outcome

/-! ## Marks and codes -/

/-- The name behind a mark. If the cut is between them, the name is missing. -/
theorem markedName_follows {wanted : Wanted} {u : List Char} (ht : t.rest = '!' :: u)
    (hs : Scanned left u ⟨.mark keyword, t.brackets⟩)
    (hr : markedName size wanted (t.restored lost) = .ok (x, s')) :
    NameOutcome left lost keyword t x s' (markedName size' wanted t) := by
  have hrun (n : Nat) (s : Cursor) : markedName n wanted s =
      (if startsName s.rest.tail then identifier n else unexpected n wanted)
        { s with rest := s.rest.tail } := rfl
  rw [hrun, Cursor.restored, ht, List.cons_append, List.tail_cons] at hr
  rw [hrun, ht, List.tail_cons]
  cases u with
  | nil =>
      have hend : Scanned left (Cursor.rest { t with rest := [] }) ⟨.mark keyword, t.brackets⟩ := hs
      exact explained_of_end (t := { t with rest := [] }) hend rfl rfl size' _ _
  | cons c u =>
      cases hstart : isNameStart c with
      | false =>
          rw [if_neg (show ¬ startsName (c :: u ++ lost) = true by
            rw [List.cons_append, startsName, hstart]; exact Bool.false_ne_true)] at hr
          exact absurd hr (unexpected_ne_ok _ _)
      | true =>
          rw [if_pos (show startsName (c :: u ++ lost) = true from hstart)] at hr
          rw [if_pos (show startsName (c :: u) = true from hstart)]
          have hsolid : isBlank c = false := by
            simpa [isSolid] using isSolid_of_isNameChar (isNameChar_of_isNameStart hstart)
          have he : (Ending.mark keyword).step c = .name keyword := by
            show (if isBlank c = true then _ else _) = _
            rw [hsolid, if_neg Bool.false_ne_true, if_pos hstart]
          exact identifier_follows (t := { t with rest := c :: u }) rfl hs hstart he hr

theorem lockstep_markedName {wanted : Wanted} : Lockstep left lost (At '!')
    (markedName size wanted) (markedName size' wanted) where
  follows t hat ht x s' hr := by
    obtain ⟨u, hu⟩ := List.head?_eq_some_iff.mp hat
    exact (markedName_follows hu (ht.passed_char hu) hr).outcome
  halts := halts_at (by decide) _

end Reader

namespace Decoding

variable {d : Decoding} {left lost : List Char} {size : Nat} {t s' : Cursor} {keyword : Bool}
  {e : Ending} {x : String} {P : Cursor → Prop}

/-- The same documents, of another length. -/
def resized (d : Decoding) (size : Nat) : Decoding :=
  { d with size := size }

theorem next_code (table : Table) : (next >>= fun _ => d.code table) = d.code table := by
  funext t
  show (if (dropBlanks (dropBlanks t.rest)).head? = some '!' then _ else _ : Reader String)
    { t with rest := dropBlanks (dropBlanks t.rest) } = _
  rw [dropBlanks_dropBlanks]
  rfl

/-- A code is read behind the layout in front of it. -/
theorem code_dropBlanks (table : Table) (t : Cursor) :
    d.code table t = d.code table { t with rest := dropBlanks t.rest } :=
  (congrFun (next_code table) t).symm

/-- What a symbol stands for. -/
def expand (d : Decoding) (table : Table) (start : List Char) (short : String) : Reader String :=
  match table.longFor? short with
  | some long => pure long
  | none => failAt d.size start (.unknownCode table.category short)

theorem code_of_solid {table : Table} (h : dropBlanks t.rest = t.rest) :
    d.code table t = if t.rest.head? = some '!' then markedName d.size .nameAfterMark t
      else (identifier d.size >>= d.expand table t.rest) t := by
  show (if (dropBlanks t.rest).head? = some '!' then _ else _ : Reader String)
    { t with rest := dropBlanks t.rest } = _
  rw [h]
  split <;> rfl

theorem expand_eq_ok {table : Table} {start : List Char} {short : String} {s : Cursor}
    (h : d.expand table start short s = .ok (x, s')) : table.longFor? short = some x ∧ s' = s := by
  unfold expand at h
  cases hlong : table.longFor? short with
  | some long =>
      rw [hlong] at h
      cases h
      exact ⟨rfl, rfl⟩
  | none =>
      rw [hlong] at h
      cases h

/-- What is left of a code may be a code too. If it is not, the cut is to blame. -/
theorem expand_follows {table : Table} {c : Char} {u : List Char}
    (hs : Scanned left t.rest ⟨e, t.brackets⟩) (ht : t.rest = c :: u)
    (hstart : isNameStart c = true) (he : e.step c = .name keyword)
    (hr : (identifier d.size >>= d.expand table (t.restored lost).rest) (t.restored lost) =
      .ok (x, s')) :
    NameOutcome left lost keyword t x s'
      ((identifier size >>= (d.resized size).expand table t.rest) t) := by
  obtain ⟨short, s₁, hshort, hexpand⟩ := run_bind_eq_ok.mp hr
  obtain ⟨hlong, rfl⟩ := expand_eq_ok hexpand
  have hname : startsName t.rest = true := by rw [ht]; exact hstart
  have hout : NameOutcome left lost keyword t short _ (identifier size t) :=
    identifier_follows ht hs hstart he hshort
  have hname' : startsName (t.restored lost).rest = true := by
    rw [Cursor.rest_restored_of_cons ht]
    exact hstart
  rw [identifier_of_startsName hname'] at hshort
  rw [identifier_of_startsName hname] at hout
  rw [run_bind_of_ok (identifier_of_startsName hname)]
  obtain ⟨hopened, hscanned, hend, hcase⟩ := hout
  unfold expand
  cases hleft : table.longFor? (String.ofList (t.rest.takeWhile isNameChar)) with
  | some long =>
      refine ⟨hopened, hscanned, hend, hcase.imp_left ?_⟩
      rintro ⟨rfl, hsame⟩
      exact ⟨Option.some.inj (hleft.symm.trans hlong), hsame⟩
  | none =>
      -- Another code was found in the whole text, so this one goes on behind the cut.
      have hne : t.rest.dropWhile isNameChar = [] := by
        rcases hcase with ⟨rfl, -⟩ | hnil
        · rw [hleft] at hlong
          cases hlong
        · exact hnil
      have hall := takeWhile_of_dropWhile_eq_nil hne
      rw [hall] at hleft
      intro _
      rw [hne] at hscanned
      have hfault : CutName left lost (.unknownCode table.category (String.ofList t.rest)) := by
        refine .code _ _ ?_ ?_ (starts_of_takeWhile_ne hne fun heq => ?_)
        · rwa [String.toList_ofList]
        · rw [String.toList_ofList]
          exact hs.suffix
        · obtain ⟨rfl, -⟩ := Prod.mk.inj (Except.ok.inj hshort)
          rw [Cursor.rest_restored, heq, hleft] at hlong
          cases hlong
      rw [CutFault, hscanned.at_end, hall]
      exact .inr hfault

/-- A code in front of the cursor, or the part of it that is left. -/
theorem code_follows {table : Table} {c : Char} {u : List Char} (ht : t.rest = c :: u)
    (hc : isSolid c = true) (hs : Scanned left t.rest ⟨e, t.brackets⟩)
    (hmark : c = '!' → e.step c = .mark keyword)
    (hname : isNameStart c = true → e.step c = .name keyword)
    (hr : d.code table (t.restored lost) = .ok (x, s')) :
    NameOutcome left lost keyword t x s' ((d.resized size).code table t) := by
  have hrest := Cursor.rest_restored_of_cons ht lost
  rw [code_of_solid (by rw [hrest, dropBlanks_cons hc])] at hr
  rw [code_of_solid (by rw [ht, dropBlanks_cons hc])]
  by_cases hmarked : c = '!'
  · subst hmarked
    rw [if_pos (by rw [hrest]; rfl)] at hr
    rw [if_pos (by rw [ht]; rfl)]
    rw [ht] at hs
    have hs' := Scanned.run (u := ['!']) hs
    rw [Scan.run_cons, Scan.step_of_not_bracket (by decide)] at hs'
    exact markedName_follows ht (hmark rfl ▸ hs') hr
  · rw [if_neg (by rw [hrest]; simpa using hmarked)] at hr
    rw [if_neg (by rw [ht]; simpa using hmarked)]
    obtain ⟨short, s₁, hshort, -⟩ := run_bind_eq_ok.mp hr
    have hstart := isNameStart_of_identifier hrest hc hshort
    exact expand_follows hs ht hstart (hname hstart) hr

theorem code_stuck (table : Table) (hstuck : Stuck t.rest) :
    d.code table t = unexpected d.size .identifier t := by
  have hmark : t.rest.head? ≠ some '!' := by
    rw [← dropBlanks_of_stuck hstuck]
    exact head?_ne_of_stuck hstuck (by decide)
  rw [code_of_solid (dropBlanks_of_stuck hstuck), if_neg hmark]
  exact run_bind_of_error (identifier_stuck hstuck)

theorem halts_code (table : Table) : Halts left lost P (d.code table) := by
  intro t _ ht hstuck
  rw [code_stuck table hstuck]
  exact explained_of_stuck ht hstuck lost d.size _ _

theorem lockstep_code (table : Table) :
    Lockstep left lost P (d.code table) ((d.resized size).code table) := by
  refine lockstep_behind_blanks (next_code table) (next_code table) (fun c hc => ?_)
    (halts_code table)
  refine ⟨fun t hat ht x s' hr => ?_, halts_code table⟩
  obtain ⟨u, hu⟩ := List.head?_eq_some_iff.mp hat
  obtain ⟨e, hs, hcalm, hfresh⟩ := ht.scanned
  have hmark : c = '!' → e.step c = .mark false := by
    rintro rfl
    exact hfresh '!' u hu
  have hname (hstart : isNameStart c = true) : e.step c = .name false :=
    (hfresh c u hu).trans (Ending.fresh_of_isNameStart hstart)
  exact (code_follows hu hc hs hmark hname hr).outcome

theorem lockstep_propertyKey : Lockstep left lost P d.propertyKey (d.resized size).propertyKey := by
  refine lockstep_next_then fun c => ?_
  cases c with
  | none => exact lockstep_unexpected _ _ _
  | some c =>
      by_cases hmark : c = '!'
      · subst hmark
        exact lockstep_markedName
      · have hkey : Lockstep left lost (At c)
            (identifier d.size >>= fun key => pure ((d.symbols.properties.longFor? key).getD key))
            (identifier size >>= fun key => pure ((d.symbols.properties.longFor? key).getD key)) :=
          lockstep_identifier.then fun _ => lockstep_pure _
        show Lockstep left lost (At c) (if c = '!' then _ else _) (if c = '!' then _ else _)
        rw [if_neg hmark, if_neg hmark]
        exact hkey.ite (lockstep_unexpected _ _ _)

/-! ## Strings -/

theorem read_append_badEscape {cs place : List Char} {c : Char}
    (h : Quoted.read cs = .error (.badEscape c, place)) (tail : List Char) :
    Quoted.read (cs ++ tail) = .error (.badEscape c, place ++ tail) := by
  fun_induction Quoted.read cs generalizing place with
  | case1 => cases h
  | case2 => cases h
  | case3 => cases h
  | case4 c r hc hq ih =>
      rw [List.cons_append, List.cons_append, Quoted.read.eq_def]
      simp [hq, hc, ih (map_eq_error.mp h), Except.map]
  | case5 c r hq hc =>
      cases h
      rw [List.cons_append, List.cons_append, Quoted.read.eq_def]
      simp [hq, hc]
  | case6 c r hq hb ih =>
      rw [List.cons_append, Quoted.read.eq_def]
      simp [hq, hb, ih (map_eq_error.mp h), Except.map]

/-- What is looked for changes inside the string only. -/
theorem string_of_quote {u : List Char} (ht : t.rest = '"' :: u) :
    d.string t = match Quoted.read u with
      | .ok (text, rest) => .ok (String.ofList text, { t with rest := rest })
      | .error (fault, place) => .error ⟨offset d.size place, stringFault fault⟩ := by
  have hexpect : expect d.size '"' t = .ok ((), { t with rest := u }) :=
    expect_of_cons (by rw [ht]; exact dropBlanks_cons (by decide) u)
  refine (run_bind_of_ok hexpect).trans ?_
  show (match Quoted.read u with
    | .ok (text, rest) => _
    | .error (fault, place) => _ : Reader String) _ = _
  cases Quoted.read u with
  | ok q => rfl
  | error q => rfl

/-- A string behind its opening quote. If it is cut, the text ends inside it. -/
theorem string_follows {u : List Char} (ht : t.rest = '"' :: u)
    (hs : Scanned left u ⟨.string, t.brackets⟩)
    (hr : d.string (t.restored lost) = .ok (x, s')) :
    Outcome left lost t x s' ((d.resized size).string t) := by
  have hrest := Cursor.rest_restored_of_cons ht lost
  rw [string_of_quote hrest] at hr
  rw [string_of_quote ht]
  cases hread : Quoted.read u with
  | ok found =>
      obtain ⟨text, rest⟩ := found
      rw [Quoted.read_append hread] at hr
      cases hr
      obtain ⟨body, rfl, hbody⟩ := Scan.run_read (o := t.brackets) hread
      have hs' := hs.run
      rw [hbody] at hs'
      exact ⟨rfl, fits_of_gap hs', .inl ⟨rfl, rfl⟩⟩
  | error found =>
      obtain ⟨fault, place⟩ := found
      have hfault : ∀ c, fault ≠ .badEscape c := by
        rintro c rfl
        rw [read_append_badEscape hread] at hr
        cases hr
      obtain ⟨e, hquoted, hrun⟩ := Scan.run_read_error (o := t.brackets) hread hfault
      rw [← List.append_nil u] at hs
      have hending := (hrun ▸ hs.run).at_end
      have hkind : (stringFault fault).kind = .unterminatedString := by
        cases fault with
        | unterminated => rfl
        | cutEscape => rfl
        | badEscape c => exact absurd rfl (hfault c)
      intro _
      rw [CutFault, hending]
      cases e <;> first | exact hkind | cases hquoted

theorem lockstep_string :
    Lockstep left lost (At '"') d.string (d.resized size).string where
  follows t hat ht x s' hr := by
    obtain ⟨u, hu⟩ := List.head?_eq_some_iff.mp hat
    exact string_follows hu (ht.passed_char hu) hr
  halts := halts_at (by decide) _

/-- Behind the mark there is a quote in the whole text. -/
theorem lockstep_expression :
    Lockstep left lost (At '&') d.expression (d.resized size).expression where
  follows t hat ht x s' hr := by
    obtain ⟨u, hu⟩ := List.head?_eq_some_iff.mp hat
    have hrun (d : Decoding) (s : Cursor) : d.expression s =
        (if s.rest.tail.head? = some '"' then d.string >>= fun text => pure (.expr text)
          else unexpected d.size .quoteAfterMark) { s with rest := s.rest.tail } := rfl
    have hs := ht.passed_char hu
    rw [hrun, Cursor.restored, hu, List.cons_append, List.tail_cons] at hr
    rw [hrun, hu, List.tail_cons]
    cases u with
    | nil =>
        have hend : Scanned left (Cursor.rest { t with rest := [] }) ⟨.sigil, t.brackets⟩ := hs
        exact explained_of_end (t := { t with rest := [] }) hend rfl rfl size _ _
    | cons c u =>
        rw [List.cons_append, List.head?_cons] at hr
        rw [List.head?_cons]
        by_cases hc : c = '"'
        · subst hc
          rw [if_pos rfl] at hr ⊢
          have hs' := Scanned.run (u := ['"']) hs
          obtain ⟨text, s₁, htext, hr⟩ := run_bind_eq_ok.mp hr
          have hout : Outcome left lost { t with rest := '"' :: u } text s₁
              ((d.resized size).string { t with rest := '"' :: u }) :=
            string_follows rfl hs' htext
          exact (Outcome.then hout (fun _ => lockstep_pure _) hr).before rfl
        · rw [if_neg (by simpa using hc)] at hr
          exact absurd hr (unexpected_ne_ok _ _)
  halts := halts_at (by decide) _

/-! ## Numbers and constants -/

theorem spanFrom_append_of_ne {hex : Bool} {last : Char} {cs : List Char}
    (h : (Numeral.spanFrom hex last cs).2 ≠ []) (tail : List Char) :
    Numeral.spanFrom hex last (cs ++ tail) =
      ((Numeral.spanFrom hex last cs).1, (Numeral.spanFrom hex last cs).2 ++ tail) := by
  induction cs generalizing last with
  | nil => exact absurd rfl h
  | cons c cs ih =>
      simp only [List.cons_append, Numeral.spanFrom] at h ⊢
      split
      · next hc =>
          rw [if_pos hc] at h
          rw [ih h]
      · rfl

/-- A numeral without its sign, cut somewhere behind its first digit. -/
theorem splitUnsigned_cut {c : Char} {u : List Char} (hc : c.isDigit = true) :
    ∃ run rest, Numeral.splitUnsigned (c :: u) = some (run, rest) ∧
      (rest = [] ∨ ∀ tail, Numeral.splitUnsigned (c :: u ++ tail) = some (run, rest ++ tail)) := by
  refine ⟨_, _, by rw [Numeral.splitUnsigned, if_pos hc], ?_⟩
  by_cases hnil : (Numeral.spanFrom (Numeral.isHex c u) c u).2 = []
  · exact .inl hnil
  · refine .inr fun tail => ?_
    have hhex : Numeral.isHex c (u ++ tail) = Numeral.isHex c u := by
      cases u with
      | nil => exact absurd rfl hnil
      | cons d u => rfl
    rw [List.cons_append, Numeral.splitUnsigned, if_pos hc, hhex, spanFrom_append_of_ne hnil]

theorem scanned_numeral {o : List Char} {c : Char} {u run rest : List Char} (hc : c.isDigit = true)
    (hs : Scanned left (c :: u) ⟨e, o⟩) (he : Scan.step ⟨e, o⟩ c = Scan.step ⟨.gap, o⟩ c)
    (h : Numeral.splitUnsigned (c :: u) = some (run, rest)) :
    Scanned left rest ⟨.numeral run, o⟩ := by
  have hnumeral : Numeral.isNumeral run = true := by
    have hminus : (c :: u).head? ≠ some '-' := by
      intro heq
      obtain rfl : c = '-' := Option.some.inj heq
      exact absurd hc (by decide)
    exact Numeral.isNumeral_of_split ((Numeral.split_of_ne_minus hminus).trans h)
  have hconcat := Numeral.splitUnsigned_concat h
  rw [Numeral.splitUnsigned, if_pos hc] at h
  obtain ⟨rfl, -⟩ := Prod.mk.inj (Option.some.inj h)
  rw [← hconcat] at hs
  have hrun := hs.run
  rw [Scan.run_cons, he, ← Scan.run_cons, Scan.run_numeral hc hnumeral] at hrun
  exact hrun

theorem number_of_split {spelling rest : List Char}
    (h : Numeral.split t.rest = some (spelling, rest)) :
    d.number t = .ok (.number (String.ofList spelling), { t with rest := rest }) := by
  unfold number
  rw [run_bind_of_ok (show (get : Reader Cursor) t = .ok (t, t) from rfl), h]
  rfl

theorem number_of_none (h : Numeral.split t.rest = none) :
    d.number t = unexpected d.size .number t := by
  unfold number
  rw [run_bind_of_ok (show (get : Reader Cursor) t = .ok (t, t) from rfl), h]

/-- A numeral behind its sign, if it has one. -/
theorem number_follows {sign u : List Char} {c : Char} {y : Scalar}
    (hsign : ∀ v, Numeral.split (sign ++ c :: v) =
      (Numeral.splitUnsigned (c :: v)).map fun q => (sign ++ q.1, q.2))
    (ht : t.rest = sign ++ c :: u) (hc : c.isDigit = true)
    (hs : Scanned left (c :: u) ⟨e, t.brackets⟩)
    (he : Scan.step ⟨e, t.brackets⟩ c = Scan.step ⟨.gap, t.brackets⟩ c)
    (hr : d.number (t.restored lost) = .ok (y, s')) :
    Outcome left lost t y s' ((d.resized size).number t) := by
  obtain ⟨run, rest, hsplit, hcase⟩ := splitUnsigned_cut (u := u) hc
  have hs' := scanned_numeral hc hs he hsplit
  rw [number_of_split (by rw [ht, hsign, hsplit]; rfl)]
  refine ⟨rfl, ⟨.numeral run, hs', rfl, fun c' r hc' => ?_⟩, ?_⟩
  · -- The numeral was read as far as it goes.
    obtain rfl : rest = c' :: r := hc'
    show (if _ then _ else _) = _
    rw [Numeral.isNumeral_append_eq_false hsplit, if_neg Bool.false_ne_true]
  · refine hcase.symm.imp (fun hlater => ?_) .inl
    have hsplit' : Numeral.split (t.restored lost).rest = some (sign ++ run, rest ++ lost) := by
      rw [Cursor.rest_restored, ht, List.append_assoc, List.cons_append, hsign, ← List.cons_append,
        hlater lost]
      rfl
    rw [number_of_split hsplit'] at hr
    cases hr
    exact ⟨rfl, rfl⟩

/-- Where there is only a sign, the text ends with it. -/
theorem explained_of_minus (hu : t.rest = ['-']) (ht : Fits left t) :
    Explained left lost ⟨offset size t.rest, unexpectedFault size t .number⟩ := by
  have hs := ht.passed_char hu
  have hending : (scan left).ending = .minus := by rw [hs.at_end]; rfl
  intro _
  rw [CutFault, hending]
  show (unexpectedFault size t .number).kind = .unexpectedToken
  unfold unexpectedFault
  rw [hu]
  rfl

theorem lockstep_number {c : Char} (hc : (c == '-' || c.isDigit) = true) :
    Lockstep left lost (At c) d.number (d.resized size).number where
  follows t hat ht y s' hr := by
    obtain ⟨u, hu⟩ := List.head?_eq_some_iff.mp hat
    by_cases hminus : c = '-'
    · subst hminus
      have hs := ht.passed_char hu
      have hsign (c : Char) (v : List Char) : Numeral.split (['-'] ++ c :: v) =
          (Numeral.splitUnsigned (c :: v)).map fun q => (['-'] ++ q.1, q.2) := rfl
      cases u with
      | nil =>
          rw [number_of_none (by rw [hu]; rfl)]
          exact explained_of_minus hu ht
      | cons c u =>
          have hdigit : c.isDigit = true := by
            rw [← Bool.not_eq_false]
            intro hc'
            have hnone : Numeral.split (t.restored lost).rest = none := by
              rw [Cursor.rest_restored_of_cons hu]
              show (Numeral.splitUnsigned (c :: (u ++ lost))).map _ = none
              rw [Numeral.splitUnsigned, hc']
              rfl
            rw [number_of_none hnone] at hr
            exact absurd hr (unexpected_ne_ok _ _)
          have hsolid : isBlank c = false := by
            rw [← Bool.not_eq_true]
            intro hblank
            have hgap := Ending.fresh_of_isBlank hblank
            rw [Ending.fresh_of_isDigit hdigit] at hgap
            cases hgap
          refine number_follows (hsign c) hu hdigit hs (Scan.step_congr ?_ rfl) hr
          show (if isBlank c = true then _ else _) = _
          rw [hsolid, if_neg Bool.false_ne_true]
          rfl
    · have hdigit : c.isDigit = true := by simpa [hminus] using hc
      obtain ⟨e, hs, hcalm, hfresh⟩ := ht.scanned
      rw [hu] at hs
      have hsign (v : List Char) : Numeral.split ([] ++ c :: v) =
          (Numeral.splitUnsigned (c :: v)).map fun q => ([] ++ q.1, q.2) := by
        rw [List.nil_append, Numeral.split_of_ne_minus (by simpa using hminus)]
        exact Option.map_id'.symm
      exact number_follows hsign hu hdigit hs
        (Scan.step_congr (hfresh c u hu) (Ending.quoted_of_calm hcalm)) hr
  halts := halts_at (by rintro rfl; exact absurd hc (by decide)) _

theorem constant_of_some {y : Scalar} (h : constant? t.rest.tail.head? = some y) :
    d.constant t = .ok (y, { t with rest := t.rest.tail.tail }) := by
  unfold constant
  rw [run_bind_of_ok (show (get : Reader Cursor) t = .ok (t, t) from rfl), h]
  rfl

theorem constant_of_none (h : constant? t.rest.tail.head? = none) :
    d.constant t = .error ⟨offset d.size t.rest, .notConstant⟩ := by
  unfold constant
  rw [run_bind_of_ok (show (get : Reader Cursor) t = .ok (t, t) from rfl), h]
  rfl

theorem step_tilde {o : List Char} {c : Char} {y : Scalar} (h : constant? (some c) = some y) :
    Scan.step ⟨.tilde, o⟩ c = ⟨.gap, o⟩ := by
  unfold constant? at h
  split at h
  · next hc => cases hc; rfl
  · next hc => cases hc; rfl
  · next hc => cases hc; rfl
  · cases h

/-- What follows the mark of a constant is looked at before the end is noticed. -/
theorem lockstep_constant : Lockstep left lost (At '~') d.constant (d.resized size).constant where
  follows t hat ht y s' hr := by
    obtain ⟨u, hu⟩ := List.head?_eq_some_iff.mp hat
    have hs := ht.passed_char hu
    cases u with
    | nil =>
        rw [constant_of_none (by rw [hu]; rfl)]
        have hending : (scan left).ending = .tilde := by rw [hs.at_end]; rfl
        intro _
        rw [CutFault, hending]
        rfl
    | cons c u =>
        have hrest : (t.restored lost).rest = '~' :: c :: (u ++ lost) :=
          Cursor.rest_restored_of_cons hu lost
        cases hconstant : constant? (some c) with
        | none =>
            rw [constant_of_none (by rw [hrest]; exact hconstant)] at hr
            cases hr
        | some y' =>
            rw [constant_of_some (by rw [hrest]; exact hconstant), hrest] at hr
            rw [constant_of_some (by rw [hu]; exact hconstant), hu]
            cases hr
            have hs' := Scanned.run (u := [c]) hs
            rw [Scan.run_cons, show Scan.run _ [] = _ from rfl] at hs'
            exact ⟨rfl, fits_of_gap (step_tilde hconstant ▸ hs'), .inl ⟨rfl, rfl⟩⟩
  halts := halts_at (by decide) _

theorem lockstep_foldedLiteral :
    Lockstep left lost (At '#') d.foldedLiteral (d.resized size).foldedLiteral :=
  lockstep_advance (by decide) ((lockstep_code d.symbols.literals).then fun _ => lockstep_pure _)

/-! ## Keywords -/

/-- The dot behind a keyword. -/
def dotBehind (d : Decoding) (word : String) : Reader String := do
  if (← peek) = some '.' then
    advance
    return word
  else unexpected d.size .dotAfterKeyword

theorem modifier_eq {u : List Char} (ht : t.rest = '%' :: u) : d.modifier t =
    (d.code d.symbols.keywords >>= d.dotBehind) { t with rest := dropBlanks u } := by
  have hmodifier : d.modifier t =
      (d.code d.symbols.keywords >>= d.dotBehind) { t with rest := t.rest.tail } := rfl
  rw [hmodifier, ht, List.tail_cons]
  show Except.bind _ _ = Except.bind _ _
  rw [code_dropBlanks]

theorem dotBehind_of_dot {u : List Char} (h : t.rest = '.' :: u) :
    d.dotBehind x t = .ok (x, { t with rest := u }) := by
  show (if t.rest.head? = some '.' then _ else _ : Reader String) t = _
  rw [h, if_pos (List.head?_cons ..)]
  show Except.ok (x, { t with rest := t.rest.tail }) = _
  rw [h, List.tail_cons]

theorem dotBehind_of_ne (h : t.rest.head? ≠ some '.') :
    d.dotBehind x t = unexpected d.size .dotAfterKeyword t := by
  show (if t.rest.head? = some '.' then _ else _ : Reader String) t = _
  rw [if_neg h]

theorem dotBehind_follows {y z : String} {s₁ : Cursor}
    (hs : Scanned left t.rest ⟨.name true, t.brackets⟩)
    (hcase : y = x ∧ t.restored lost = s₁ ∨ t.rest = [])
    (hr : d.dotBehind x s₁ = .ok (z, s')) :
    Outcome left lost t z s' ((d.resized size).dotBehind y t) := by
  cases hrest : t.rest with
  | nil =>
      rw [dotBehind_of_ne (by rw [hrest]; exact nofun)]
      exact explained_of_end hs rfl hrest size _ _
  | cons c u =>
      obtain ⟨rfl, rfl⟩ : y = x ∧ t.restored lost = s₁ := by
        rcases hcase with hsame | hnil
        · exact hsame
        · rw [hrest] at hnil
          cases hnil
      have hrest' := Cursor.rest_restored_of_cons hrest lost
      by_cases hc : c = '.'
      · subst hc
        rw [dotBehind_of_dot hrest'] at hr
        rw [dotBehind_of_dot hrest]
        cases hr
        rw [hrest] at hs
        have hs' := Scanned.run (u := ['.']) hs
        exact ⟨rfl, fits_of_gap hs', .inl ⟨rfl, rfl⟩⟩
      · rw [dotBehind_of_ne (by rw [hrest']; simpa using hc)] at hr
        exact absurd hr (unexpected_ne_ok _ _)

/-- Behind the mark of a keyword layout is passed before the keyword is looked for. -/
theorem lockstep_modifier : Lockstep left lost (At '%') d.modifier (d.resized size).modifier where
  follows t hat ht x s' hr := by
    obtain ⟨u, hu⟩ := List.head?_eq_some_iff.mp hat
    have hu' := Cursor.rest_restored_of_cons hu lost
    have hs : Scanned left (dropBlanks u) ⟨.percent, t.brackets⟩ := by
      have hs := ht.passed_char hu
      rw [← List.takeWhile_append_dropWhile (p := isBlank) (l := u)] at hs
      have hrun := Scanned.run hs
      rw [show Scan.step _ '%' = ⟨.percent, t.brackets⟩ from rfl,
        Scan.run_percent_blanks fun c hc => List.mem_takeWhile_imp hc] at hrun
      exact hrun
    rw [modifier_eq hu'] at hr
    rw [modifier_eq hu]
    obtain ⟨word, s₁, hword, hr⟩ := run_bind_eq_ok.mp hr
    cases hb : dropBlanks u with
    | nil =>
        rw [hb] at hs
        rw [run_bind_of_error (code_stuck _ (.inl rfl))]
        exact explained_of_end (t := { t with rest := [] }) hs rfl rfl size _ _
    | cons c v =>
        have hc : isSolid c = true := by rw [isSolid, eq_false_of_dropWhile hb]; rfl
        have hblank : isBlank c = false := by simpa [isSolid] using hc
        rw [dropBlanks_append_of_cons hb] at hword
        rw [hb] at hs
        have hmark : c = '!' → Ending.percent.step c = .mark true := by
          rintro rfl
          rfl
        have hname (hstart : isNameStart c = true) : Ending.percent.step c = .name true := by
          have hne : c ≠ '!' := ne_of_isNameStart hstart (by decide)
          show (if isBlank c = true then _ else _) = _
          rw [hblank, if_neg Bool.false_ne_true, if_neg hne, if_pos hstart]
        have hout : NameOutcome left lost true { t with rest := c :: v } word s₁
            ((d.resized size).code d.symbols.keywords { t with rest := c :: v }) :=
          code_follows rfl hc hs hmark hname hword
        show Outcome left lost t x s' (((d.resized size).code d.symbols.keywords >>=
          (d.resized size).dotBehind) { t with rest := c :: v })
        cases hcode : (d.resized size).code d.symbols.keywords { t with rest := c :: v } with
        | error error =>
            rw [run_bind_of_error hcode]
            rwa [hcode] at hout
        | ok q =>
            obtain ⟨y, t₁⟩ := q
            rw [hcode] at hout
            obtain ⟨hopened, hs₁, -, hcase⟩ := hout
            have hbrackets : t.brackets = t₁.brackets := by
              rw [Cursor.brackets, Cursor.brackets, hopened]
            rw [run_bind_of_ok hcode]
            exact (dotBehind_follows (hbrackets ▸ hs₁) hcase hr).before hopened
  halts := halts_at (by decide) _

/-! ## Paths -/

/-- A path is the same in the whole text, unless it goes up to the cut, or only its dot does. -/
theorem spanPath_cut (cs : List Char) : Stuck (spanPath cs).2 ∨
    ∀ tail, spanPath (cs ++ tail) = ((spanPath cs).1, (spanPath cs).2 ++ tail) := by
  induction cs with
  | nil => exact .inl (.inl rfl)
  | cons c cs ih =>
      cases hcond : isNameChar c || (c == '.' && startsName cs) with
      | true =>
          -- What stands behind the dot is there, so it is the same in the whole text.
          have htail (tail : List Char) :
              (isNameChar c || (c == '.' && startsName (cs ++ tail))) = true := by
            cases cs with
            | nil =>
                rw [show startsName [] = false from rfl, Bool.and_false, Bool.or_false] at hcond
                rw [hcond, Bool.true_or]
            | cons d cs => exact hcond
          simp only [List.cons_append, spanPath, hcond, htail, if_true]
          refine ih.imp_right fun h tail => ?_
          rw [h tail]
      | false =>
          have hspan : (spanPath (c :: cs)) = ([], c :: cs) := by
            rw [spanPath, hcond, if_neg Bool.false_ne_true]
          rw [hspan]
          by_cases hdot : cs = [] ∧ c = '.'
          · obtain ⟨rfl, rfl⟩ := hdot
            exact .inl (.inr rfl)
          · refine .inr fun tail => ?_
            have htail : (isNameChar c || (c == '.' && startsName (cs ++ tail))) = false := by
              cases cs with
              | nil => simp_all
              | cons d cs => exact hcond
            rw [List.cons_append, spanPath, htail, if_neg Bool.false_ne_true]

theorem spanPath_concat (cs : List Char) : (spanPath cs).1 ++ (spanPath cs).2 = cs := by
  induction cs with
  | nil => rfl
  | cons c cs ih =>
      rw [spanPath]
      split
      · exact congrArg (c :: ·) ih
      · rfl

theorem isNameChar_of_spanPath {cs u : List Char} {c : Char} (h : (spanPath cs).2 = c :: u) :
    isNameChar c = false := by
  induction cs with
  | nil => cases h
  | cons d cs ih =>
      rw [spanPath] at h
      split at h
      · exact ih h
      · next hcond =>
          obtain ⟨rfl, -⟩ := List.cons.inj h
          simp only [Bool.or_eq_true, not_or, Bool.not_eq_true] at hcond
          exact hcond.1

theorem path_of_startsName {n : Nat} (h : startsName t.rest = true) : path n t =
    .ok (String.ofList (spanPath t.rest).1, { t with rest := (spanPath t.rest).2 }) := by
  show (if startsName (dropBlanks t.rest) = true then _ else _ : Reader String) _ = _
  rw [dropBlanks_of_startsName h, if_pos h]
  rfl

/-- A path in front of the cursor, or the part of it that is left. -/
theorem lockstep_path {c : Char} (hc : isNameStart c = true) :
    Lockstep left lost (At c) (path d.size) (path size) where
  follows t hat ht x s' hr := by
    obtain ⟨u, hu⟩ := List.head?_eq_some_iff.mp hat
    have hname : startsName t.rest = true := by rw [hu]; exact hc
    have hname' : startsName (t.restored lost).rest = true := by
      rw [Cursor.rest_restored_of_cons hu]
      exact hc
    rw [path_of_startsName hname'] at hr
    rw [path_of_startsName hname]
    cases hr
    have hsplit := spanPath_concat t.rest
    have hrun : Scan.run ⟨.gap, t.brackets⟩ (spanPath t.rest).1 = ⟨.name false, t.brackets⟩ :=
      Scan.run_spanPath hname
    have hcons : (spanPath t.rest).1 = c :: (spanPath u).1 := by
      rw [hu, spanPath, isNameChar_of_isNameStart hc, Bool.true_or, if_pos rfl]
    rw [hcons] at hsplit hrun
    refine ⟨rfl, ⟨.name false, hrun ▸ ht.passed hsplit.symm, rfl, fun c' r hc' => ?_⟩, ?_⟩
    · show (if isNameChar c' = true then _ else _) = _
      rw [isNameChar_of_spanPath hc', if_neg Bool.false_ne_true]
      rfl
    · refine (spanPath_cut t.rest).symm.imp_left fun h => ?_
      rw [Cursor.rest_restored, h lost]
      exact ⟨rfl, rfl⟩
  halts := halts_at (by rintro rfl; exact absurd hc (by decide)) _

end Decoding

end WidgetShorthand
