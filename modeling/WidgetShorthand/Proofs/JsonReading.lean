import WidgetShorthand.Json.Parse
import WidgetShorthand.Json.Print
import WidgetShorthand.Proofs.TokenEnds

/-!
# Printed JSON is read back

Values with one item to a line are read again as what they are. Numbers have no closing mark, so
what follows a value must not continue one; inside a value a comma, a line end or the end always
follows. The reader's fuel is the length of the text, and each bracket, comma and colon takes a
character of it and at most one unit of fuel, so the induction asks for as much fuel as there is
text.

Only values that records are written as are considered: strings have a text and numbers are natural.
-/

namespace WidgetShorthand.Json

open Text

/-! ## Strings -/

theorem codeUnit?_control : ∀ n < 0x20,
    codeUnit? '0' '0' (hexDigit (n / 16)) (hexDigit n) = some n := by
  decide

theorem units_unescaped {c : Char} (hquote : c ≠ '"') (hslash : c ≠ '\\') (hc : ¬ c.toNat < 0x20)
    {r rest : List Char} {more : List Nat} (h : units r = some (more, rest)) :
    units (c :: r) = some (c.toNat :: more, rest) := by
  rw [units.eq_def]
  split
  · next heq => exact absurd (List.cons.inj heq).1 hquote
  · next heq => exact absurd (List.cons.inj heq).1 hslash
  · next heq => exact absurd (List.cons.inj heq).1 hslash
  · next heq =>
      cases heq
      have hgo : (decide (c.toNat < 0x20) || c == '\\') = false := by simp [hslash, hc]
      rw [hgo, if_neg Bool.false_ne_true, h]
      rfl
  · next heq => cases heq

/-- A character is read back from the way it stands in a string. -/
theorem units_escapeChar (c : Char) {r rest : List Char} {more : List Nat}
    (h : units r = some (more, rest)) :
    units (escapeChar c ++ r) = some (c.toNat :: more, rest) := by
  unfold escapeChar
  split
  · next hc => subst hc; simp [units, escaped?, h]
  split
  · next hc => subst hc; simp [units, escaped?, h]
  split
  · next hc => subst hc; simp [units, escaped?, h]
  split
  · next hc => subst hc; simp [units, escaped?, h]
  split
  · next hc => subst hc; simp [units, escaped?, h]
  split
  · next hc => subst hc; simp [units, escaped?, h]
  split
  · next hc => subst hc; simp [units, escaped?, h]
  split
  · next hc => simp [units, codeUnit?_control _ hc, h]
  · next hquote hslash _ _ _ _ _ hc => exact units_unescaped hquote hslash hc h

theorem units_quoted (cs rest : List Char) :
    units (cs.flatMap escapeChar ++ '"' :: rest) = some (cs.map Char.toNat, rest) := by
  induction cs with
  | nil => rfl
  | cons c cs ih =>
      rw [List.flatMap_cons, List.append_assoc, List.map_cons]
      exact units_escapeChar c ih

theorem not_surrogate (c : Char) :
    isHighSurrogate c.toNat = false ∧ isLowSurrogate c.toNat = false := by
  have hvalid : c.toNat < 0xd800 ∨ 0xdfff < c.toNat ∧ c.toNat < 0x110000 := c.valid
  simp only [isHighSurrogate, isLowSurrogate, Bool.and_eq_false_iff, decide_eq_false_iff_not]
  omega

/-- No character is half of a surrogate pair. -/
theorem joinUnits_toNat (cs : List Char) : joinUnits (cs.map Char.toNat) = some cs := by
  induction cs with
  | nil => rfl
  | cons c cs ih =>
      obtain ⟨hhigh, hlow⟩ := not_surrogate c
      cases cs with
      | nil => simp [joinUnits, hhigh, hlow]
      | cons b cs =>
          rw [List.map_cons] at ih
          simp [joinUnits, hhigh, hlow, ih]

theorem stringBody_quoted (s : String) (rest : List Char) :
    stringBody (s.toList.flatMap escapeChar ++ '"' :: rest) = some (some s, rest) := by
  rw [stringBody, units_quoted]
  simp [joinUnits_toNat]

/-! ## Numbers -/

/-- A character that cannot continue a number. -/
def endsNumber (c : Char) : Bool :=
  !(c.isDigit || c == '.' || c == 'e' || c == 'E')

theorem digitChar_ne_zero : ∀ n < 10, 0 < n → n.digitChar ≠ '0' := by
  decide

theorem head_toDigits_ne_zero {n : Nat} (hn : 0 < n) : (Nat.toDigits 10 n).head? ≠ some '0' := by
  induction n using Nat.strongRecOn with
  | _ n ih =>
      rcases Nat.lt_or_ge n 10 with hlt | hge
      · rw [Nat.toDigits_of_lt_base hlt, List.head?_cons]
        simpa using digitChar_ne_zero n hlt hn
      · rw [Nat.toDigits_of_base_le (by decide) hge]
        have hpos : 0 < n / 10 := Nat.div_pos hge (by decide)
        rw [List.head?_append_of_ne_nil _ Nat.toDigits_ne_nil]
        exact ih (n / 10) (Nat.div_lt_self hn (by decide)) hpos

theorem isDigit_toDigits (n : Nat) : ∀ c ∈ Nat.toDigits 10 n, c.isDigit = true :=
  fun _ => Nat.isDigit_of_mem_toDigits (by decide) (by decide)

/-- A natural number is printed without a zero in front. -/
theorem wholePart_toDigits (n : Nat) {rest : List Char} (hr : Follows endsNumber rest) :
    wholePart (Nat.toDigits 10 n ++ rest) = some (Nat.toDigits 10 n, rest) := by
  have hends : Follows (fun c => !c.isDigit) rest := by
    refine hr.mono fun c hc => ?_
    simp only [endsNumber, Bool.not_or, Bool.and_eq_true] at hc
    exact hc.1.1.1
  have hdigits : digits (Nat.toDigits 10 n ++ rest) = (Nat.toDigits 10 n, rest) := by
    rw [digits, takeWhile_append_of_follows (isDigit_toDigits n) hends,
      dropWhile_append_of_follows (isDigit_toDigits n) hends]
  rw [wholePart, hdigits]
  split
  · next heq => exact absurd (Prod.mk.inj heq).1 Nat.toDigits_ne_nil
  · next heq =>
      have hzero := (Prod.mk.inj heq).1
      rcases Nat.eq_zero_or_pos n with rfl | hpos
      · cases hzero
      · exact absurd (by rw [hzero]; rfl) (head_toDigits_ne_zero hpos)
  · next heq => rw [← heq]

theorem text_ofNat (n : Nat) : (Number.ofNat n).text = Nat.toDigits 10 n := by
  simp [Number.text, Number.ofNat]

theorem unsignedNumber_ofNat (n : Nat) {rest : List Char} (hr : Follows endsNumber rest) :
    unsignedNumber false ((Number.ofNat n).text ++ rest) = some (.ofNat n, rest) := by
  have hfraction : fractionPart rest = some ([], rest) := by
    cases rest with
    | nil => rfl
    | cons c r =>
        have hc : c ≠ '.' := fun h => ne_head_of_follows hr (by decide) (congrArg some h)
        simp [fractionPart, hc]
  have hexponent : exponentPart rest = some (none, rest) := by
    cases rest with
    | nil => rfl
    | cons c r =>
        have he : c ≠ 'e' := fun h => ne_head_of_follows hr (by decide) (congrArg some h)
        have hE : c ≠ 'E' := fun h => ne_head_of_follows hr (by decide) (congrArg some h)
        simp [exponentPart, he, hE]
  rw [text_ofNat, unsignedNumber, wholePart_toDigits n hr]
  simp [hfraction, hexponent, Number.ofNat]

/-- The number of a spelling is the number that was spelled. -/
theorem toNat?_ofNat {n limit : Nat} :
    (Number.ofNat n).toNat? limit = if n ≤ limit then some n else none := by
  have hvalue : decimalValue (Nat.toDigits 10 n) = n := Nat.ofDigitChars_ten_toDigits
  simp only [Number.toNat?, Number.ofNat, hvalue]
  rfl

/-! ## Values -/

mutual

/-- Every string has a text and every number is a natural one. -/
def Storable : Json → Prop
  | .null | .bool _ => True
  | .number n => ∃ k, n = .ofNat k
  | .string s => s.isSome = true
  | .array items => StorableItems items
  | .object members => StorableMembers members

def StorableItems : List Json → Prop
  | [] => True
  | j :: js => Storable j ∧ StorableItems js

def StorableMembers : List Member → Prop
  | [] => True
  | ⟨key, j⟩ :: ms => key.isSome = true ∧ Storable j ∧ StorableMembers ms

end

/-- What a value begins with: no layout, and nothing that closes or separates. -/
def startsJson (c : Char) : Bool :=
  !(isSpace c || c == ']' || c == '\x7d')

theorem startsJson_of_isDigit {c : Char} (h : c.isDigit = true) : startsJson c = true := by
  rw [startsJson, Bool.not_eq_true', ← Bool.not_eq_true]
  intro hmark
  simp only [isSpace, Bool.or_eq_true, beq_iff_eq] at hmark
  rcases hmark with ((((rfl | rfl) | rfl) | rfl) | rfl) | rfl <;> exact absurd h (by decide)

theorem isSpace_of_startsJson {c : Char} (h : startsJson c = true) : isSpace c = false := by
  simp only [startsJson, Bool.not_eq_true', Bool.or_eq_false_iff] at h
  exact h.1.1

theorem starts_digits (n : Nat) : Starts Char.isDigit (Nat.toDigits 10 n) := by
  cases hdigits : Nat.toDigits 10 n with
  | nil => exact absurd hdigits Nat.toDigits_ne_nil
  | cons c r => exact isDigit_toDigits n c (hdigits ▸ List.mem_cons_self)

theorem starts_pretty {j : Json} (h : Storable j) (depth : Nat) :
    Starts startsJson (pretty depth j) := by
  cases j with
  | null => rfl
  | bool b => cases b <;> rfl
  | number n =>
      obtain ⟨k, rfl⟩ := h
      rw [pretty, text_ofNat]
      exact (starts_digits k).mono fun _ => startsJson_of_isDigit
  | string s => rfl
  | array items => cases items <;> rfl
  | object members => cases members <;> rfl

theorem skipSpace_of_starts {cs : List Char} (h : Starts startsJson cs) : skipSpace cs = cs := by
  obtain ⟨c, r, rfl, hc⟩ := h.exists_cons
  rw [skipSpace, List.dropWhile_cons_of_neg (by simp [isSpace_of_startsJson hc])]

theorem skipSpace_newline (depth : Nat) (cs : List Char) :
    skipSpace (newline depth ++ cs) = skipSpace cs := by
  have hall : ∀ c ∈ newline depth, isSpace c = true := by
    rw [newline, List.forall_mem_cons]
    refine ⟨rfl, fun c hc => ?_⟩
    rw [(List.mem_replicate.mp hc).2]
    rfl
  exact List.dropWhile_append_of_pos hall

/-- Past the line end in front of it, a value is what comes next. -/
theorem skipSpace_pretty {j : Json} (h : Storable j) (depth depth' : Nat) (cs : List Char) :
    skipSpace (newline depth' ++ (pretty depth j ++ cs)) = pretty depth j ++ cs := by
  rw [skipSpace_newline]
  exact skipSpace_of_starts ((starts_pretty h depth).append cs)

theorem value_number {fuel : Nat} {cs rest : List Char} {n : Nat}
    (hcs : skipSpace cs = (Number.ofNat n).text ++ rest) (hr : Follows endsNumber rest) :
    value (fuel + 1) cs = some (.number (.ofNat n), rest) := by
  have hnumber := unsignedNumber_ofNat n hr
  obtain ⟨c, r, htext, hc⟩ := ((starts_digits n).append rest).exists_cons
  rw [text_ofNat, htext] at hcs hnumber
  rw [value, hcs]
  split
  case h_8 => rw [hnumber]; rfl
  all_goals
    rename_i heq
    cases heq
    exact absurd hc (by decide)

theorem value_string {fuel : Nat} {cs rest : List Char} {s : String}
    (hcs : skipSpace cs = quoted s ++ rest) :
    value (fuel + 1) cs = some (.string (some s), rest) := by
  rw [quoted, List.cons_append, List.append_assoc, List.singleton_append] at hcs
  rw [value, hcs]
  show (stringBody _).map _ = _
  rw [stringBody_quoted]
  rfl

theorem skipSpace_idem (cs : List Char) : skipSpace (skipSpace cs) = skipSpace cs :=
  List.dropWhile_idempotent _ cs

theorem length_pretty_pos {j : Json} (h : Storable j) (depth : Nat) :
    0 < (pretty depth j).length := by
  obtain ⟨c, r, htext, _⟩ := (starts_pretty h depth).exists_cons
  rw [htext]
  exact Nat.succ_pos _

theorem starts_items {j : Json} {js : List Json} (h : StorableItems (j :: js)) (depth : Nat)
    (cs : List Char) : Starts startsJson (skipSpace (prettyItems depth (j :: js) ++ cs)) := by
  have hstart := starts_pretty h.1 depth
  cases js with
  | nil =>
      rw [prettyItems, List.append_assoc, skipSpace_pretty h.1]
      exact hstart.append _
  | cons k js =>
      rw [prettyItems, List.append_assoc, List.append_assoc, skipSpace_pretty h.1]
      exact hstart.append _

theorem skipSpace_quoted (s : String) (cs : List Char) :
    skipSpace (quoted s ++ cs) = quoted s ++ cs :=
  rfl

theorem prettyMembers_single (depth : Nat) (key : String) (j : Json) (cs : List Char) :
    prettyMembers depth [⟨some key, j⟩] ++ cs =
      newline depth ++ (quoted key ++ ':' :: ' ' :: (pretty depth j ++ cs)) := by
  simp [prettyMembers, quotedText]

theorem prettyMembers_cons (depth : Nat) (key : String) (j : Json) (m : Member) (ms : List Member)
    (cs : List Char) :
    prettyMembers depth (⟨some key, j⟩ :: m :: ms) ++ cs =
      newline depth ++ (quoted key ++
        ':' :: ' ' :: (pretty depth j ++ ',' :: (prettyMembers depth (m :: ms) ++ cs))) := by
  simp [prettyMembers, quotedText]

/-- A member's value stands behind a space. -/
theorem skipSpace_member {j : Json} (h : Storable j) (depth : Nat) (cs : List Char) :
    skipSpace (' ' :: (pretty depth j ++ cs)) = pretty depth j ++ cs :=
  skipSpace_of_starts ((starts_pretty h depth).append cs)

theorem quote_members {m : Member} {ms : List Member} (h : StorableMembers (m :: ms)) (depth : Nat)
    (cs : List Char) : ∃ tail, skipSpace (prettyMembers depth (m :: ms) ++ cs) = '"' :: tail := by
  obtain ⟨key, j⟩ := m
  cases ms with
  | nil =>
      rw [prettyMembers, List.append_assoc, List.append_assoc, skipSpace_newline]
      exact ⟨_, rfl⟩
  | cons m ms =>
      rw [prettyMembers, List.append_assoc, List.append_assoc, skipSpace_newline]
      exact ⟨_, rfl⟩

/-- An array that does not close at once. -/
theorem value_array {fuel : Nat} {cs r : List Char} (hcs : skipSpace cs = '[' :: r)
    (hr : Starts startsJson (skipSpace r)) :
    value (fuel + 1) cs = (items fuel (skipSpace r)).map fun (js, rest) => (.array js, rest) := by
  obtain ⟨c, tail, htail, hc⟩ := hr.exists_cons
  have hclose : c ≠ ']' := by
    rintro rfl
    exact absurd hc (by decide)
  rw [value, hcs]
  simp [htail, hclose]

theorem value_object {fuel : Nat} {cs r tail : List Char} (hcs : skipSpace cs = '\x7b' :: r)
    (hr : skipSpace r = '"' :: tail) :
    value (fuel + 1) cs =
      (members fuel (skipSpace r)).map fun (ms, rest) => (.object ms, rest) := by
  rw [value, hcs]
  simp [hr]

theorem items_last
    {fuel : Nat} {cs r rest : List Char} {j : Json} (hj : value fuel cs = some (j, r))
    (hr : skipSpace r = ']' :: rest) : items (fuel + 1) cs = some ([j], rest) := by
  rw [items, hj]
  simp [hr]

theorem items_more
    {fuel : Nat} {cs r rest : List Char} {j : Json} (hj : value fuel cs = some (j, r))
    (hr : skipSpace r = ',' :: rest) :
    items (fuel + 1) cs = (items fuel rest).map fun (js, rest) => (j :: js, rest) := by
  rw [items, hj]
  simp [hr]

theorem members_last {fuel : Nat} {cs r r' rest : List Char} {key : String} {j : Json}
    (hcs : skipSpace cs = quoted key ++ ':' :: r) (hj : value fuel r = some (j, r'))
    (hr : skipSpace r' = '\x7d' :: rest) :
    members (fuel + 1) cs = some ([⟨some key, j⟩], rest) := by
  have hcolon : skipSpace (':' :: r) = ':' :: r := rfl
  rw [quoted, List.cons_append, List.append_assoc, List.singleton_append] at hcs
  rw [members, hcs]
  simp [stringBody_quoted, hcolon, hj, hr]

theorem members_more {fuel : Nat} {cs r r' rest : List Char} {key : String} {j : Json}
    (hcs : skipSpace cs = quoted key ++ ':' :: r) (hj : value fuel r = some (j, r'))
    (hr : skipSpace r' = ',' :: rest) :
    members (fuel + 1) cs =
      (members fuel rest).map fun (ms, rest) => (⟨some key, j⟩ :: ms, rest) := by
  have hcolon : skipSpace (':' :: r) = ':' :: r := rfl
  rw [quoted, List.cons_append, List.append_assoc, List.singleton_append] at hcs
  rw [members, hcs]
  simp [stringBody_quoted, hcolon, hj, hr]

mutual

/-- A value is read again wherever it is printed. -/
theorem value_pretty : (j : Json) → Storable j → ∀ {depth fuel : Nat} {cs rest : List Char},
    skipSpace cs = pretty depth j ++ rest → Follows endsNumber rest →
      (pretty depth j).length ≤ fuel + 1 → value (fuel + 1) cs = some (j, rest)
  | .null, _, depth, fuel, cs, rest, hcs, _, _ => by
      rw [value, hcs]
      rfl
  | .bool b, _, depth, fuel, cs, rest, hcs, _, _ => by
      rw [value, hcs]
      cases b <;> rfl
  | .number n, h, depth, fuel, cs, rest, hcs, hr, _ => by
      obtain ⟨k, rfl⟩ := h
      exact value_number hcs hr
  | .string s, h, depth, fuel, cs, rest, hcs, _, _ => by
      obtain ⟨text, rfl⟩ := Option.isSome_iff_exists.mp h
      exact value_string hcs
  | .array [], _, depth, fuel, cs, rest, hcs, _, _ => by
      rw [value, hcs]
      rfl
  | .array (j :: js), h, depth, fuel, cs, rest, hcs, _, hfuel => by
      rw [pretty, List.length_cons, List.length_append, List.length_append, List.length_singleton]
        at hfuel
      rw [pretty, List.cons_append, List.append_assoc, List.append_assoc,
        List.singleton_append] at hcs
      obtain ⟨fuel, rfl⟩ : ∃ n, fuel = n + 1 := ⟨fuel - 1, by omega⟩
      have hfirst := starts_items h (depth + 1) (newline depth ++ ']' :: rest)
      rw [value_array hcs hfirst]
      rw [items_pretty (j :: js) h (List.cons_ne_nil j js) (skipSpace_idem _) (by omega)]
      rfl
  | .object [], _, depth, fuel, cs, rest, hcs, _, _ => by
      rw [value, hcs]
      rfl
  | .object (m :: ms), h, depth, fuel, cs, rest, hcs, _, hfuel => by
      rw [pretty, List.length_cons, List.length_append, List.length_append, List.length_singleton]
        at hfuel
      rw [pretty, List.cons_append, List.append_assoc, List.append_assoc,
        List.singleton_append] at hcs
      obtain ⟨fuel, rfl⟩ : ∃ n, fuel = n + 1 := ⟨fuel - 1, by omega⟩
      obtain ⟨tail, hfirst⟩ := quote_members h (depth + 1) (newline depth ++ '\x7d' :: rest)
      rw [value_object hcs hfirst]
      rw [members_pretty (m :: ms) h (List.cons_ne_nil m ms) (skipSpace_idem _) (by omega)]
      rfl

theorem items_pretty : (js : List Json) → StorableItems js → js ≠ [] →
    ∀ {depth depth' fuel : Nat} {cs rest : List Char},
      skipSpace cs = skipSpace (prettyItems depth js ++ (newline depth' ++ ']' :: rest)) →
      (prettyItems depth js).length ≤ fuel + 1 → items (fuel + 1) cs = some (js, rest)
  | [], _, hne, _, _, _, _, _, _, _ => absurd rfl hne
  | [j], h, _, depth, depth', fuel, cs, rest, hcs, hfuel => by
      rw [prettyItems, List.append_assoc, skipSpace_pretty h.1] at hcs
      rw [prettyItems, List.length_append, newline, List.length_cons] at hfuel
      have hlength := length_pretty_pos h.1 depth
      obtain ⟨fuel, rfl⟩ : ∃ n, fuel = n + 1 := ⟨fuel - 1, by omega⟩
      refine items_last (value_pretty j h.1 hcs rfl (by omega)) ?_
      rw [skipSpace_newline]
      rfl
  | j :: k :: js, h, _, depth, depth', fuel, cs, rest, hcs, hfuel => by
      rw [prettyItems, List.append_assoc, List.append_assoc, List.cons_append,
        skipSpace_pretty h.1] at hcs
      rw [prettyItems, List.length_append, List.length_append, List.length_cons, newline,
        List.length_cons] at hfuel
      have hlength := length_pretty_pos h.1 depth
      obtain ⟨fuel, rfl⟩ : ∃ n, fuel = n + 1 := ⟨fuel - 1, by omega⟩
      rw [items_more (value_pretty j h.1 hcs rfl (by omega)) rfl]
      rw [items_pretty (k :: js) h.2 (List.cons_ne_nil k js) rfl (by omega)]
      rfl

theorem members_pretty : (ms : List Member) → StorableMembers ms → ms ≠ [] →
    ∀ {depth depth' fuel : Nat} {cs rest : List Char},
      skipSpace cs = skipSpace (prettyMembers depth ms ++ (newline depth' ++ '\x7d' :: rest)) →
      (prettyMembers depth ms).length ≤ fuel + 1 → members (fuel + 1) cs = some (ms, rest)
  | [], _, hne, _, _, _, _, _, _, _ => absurd rfl hne
  | [⟨key, j⟩], h, _, depth, depth', fuel, cs, rest, hcs, hfuel => by
      obtain ⟨text, rfl⟩ := Option.isSome_iff_exists.mp h.1
      rw [prettyMembers_single, skipSpace_newline, skipSpace_quoted] at hcs
      have hlength := length_pretty_pos h.2.1 depth
      simp only [prettyMembers, List.length_append, List.length_cons] at hfuel
      obtain ⟨fuel, rfl⟩ : ∃ n, fuel = n + 1 := ⟨fuel - 1, by omega⟩
      have hvalue := skipSpace_member h.2.1 depth (newline depth' ++ '\x7d' :: rest)
      refine members_last hcs (value_pretty j h.2.1 hvalue rfl (by omega)) ?_
      rw [skipSpace_newline]
      rfl
  | ⟨key, j⟩ :: m :: ms, h, _, depth, depth', fuel, cs, rest, hcs, hfuel => by
      obtain ⟨text, rfl⟩ := Option.isSome_iff_exists.mp h.1
      rw [prettyMembers_cons, skipSpace_newline, skipSpace_quoted] at hcs
      have hlength := length_pretty_pos h.2.1 depth
      simp only [prettyMembers, List.length_append, List.length_cons] at hfuel
      obtain ⟨fuel, rfl⟩ : ∃ n, fuel = n + 1 := ⟨fuel - 1, by omega⟩
      have hvalue := skipSpace_member h.2.1 depth
        (',' :: (prettyMembers depth (m :: ms) ++ (newline depth' ++ '\x7d' :: rest)))
      rw [members_more hcs (value_pretty j h.2.1 hvalue rfl (by omega)) rfl]
      rw [members_pretty (m :: ms) h.2.2 (List.cons_ne_nil m ms) rfl (by omega)]
      rfl

end

/-- The text of a value is read as the value. -/
theorem parse?_prettyText {j : Json} (h : Storable j) : parse? (prettyText j) = some j := by
  have htext : (prettyText j).toList = pretty 0 j := String.toList_ofList
  have hcs : skipSpace (pretty 0 j) = pretty 0 j ++ [] := by
    rw [List.append_nil]
    exact skipSpace_of_starts (starts_pretty h 0)
  rw [parse?, htext, value_pretty j h hcs (follows_nil _) (Nat.le_succ _)]
  rfl

end WidgetShorthand.Json
