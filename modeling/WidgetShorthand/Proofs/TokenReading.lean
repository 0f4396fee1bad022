import WidgetShorthand.Document.Decode
import WidgetShorthand.Document.Encode
import WidgetShorthand.Proofs.Reading
import WidgetShorthand.Proofs.TableLookup

/-!
# Tokens are read back

The leaves of the round trip: names behind marks and as symbols, keywords, property keys, and the
scalars. Each statement starts from the writer having succeeded, since that is when the token has
the form that the reader expects, and says what may stand behind the token.

The separators and closing brackets that stand behind values and types in a document are listed
once, here; that none of them is part of any token is checked character by character (`of_among`).
-/

namespace WidgetShorthand

open Text Reader

/-- A character of a list. -/
def among (cs : List Char) (c : Char) : Bool :=
  cs.contains c

/-- What may stand behind a value. -/
abbrev endsValue : List Char → Prop :=
  Follows (among [',', ';', '|', '}', ']', ')'])

/-- What may stand behind a type. -/
abbrev endsType : List Char → Prop :=
  Follows (among [',', ';', '>', ')', '=', '{'])

theorem of_among {cs : List Char} {p : Char → Bool} (h : cs.all p = true) {c : Char}
    (hc : among cs c = true) : p c = true :=
  List.all_eq_true.mp h c (List.contains_iff_mem.mp hc)

theorem Text.Follows.widen {cs : List Char} {p : Char → Bool} {rest : List Char}
    (h : Follows (among cs) rest) (hp : cs.all p = true) : Follows p rest :=
  h.mono fun _ => of_among hp

/-- What a name begins with where it may have a mark. -/
def startsCode (c : Char) : Bool :=
  c == '!' || isNameStart c

theorem isSolid_of_startsCode {c : Char} (h : startsCode c = true) : isSolid c = true := by
  simp only [startsCode, Bool.or_eq_true, beq_iff_eq] at h
  rcases h with rfl | h
  · decide
  · exact isSolid_of_isNameChar (isNameChar_of_isNameStart h)

theorem ne_of_isNameStart {c d : Char} (h : isNameStart c = true) (hd : isNameStart d = false) :
    c ≠ d := by
  rintro rfl
  rw [h] at hd
  cases hd

/-! ## Names and symbols -/

section names

variable {d : Decoding} {table : Table} {place : NamePlace} {name : String} {cs : List Char}

theorem identifier_eq_ok (h : Encoder.identifier place name = .ok cs) :
    isIdentifier name = true ∧ cs = name.toList := by
  unfold Encoder.identifier at h
  split at h
  · next hid => cases h; exact ⟨hid, rfl⟩
  · cases h

/-- A name that went through a table: its symbol, or the name itself behind the mark. -/
theorem code_eq_ok (h : Encoder.code table place name = .ok cs) :
    (∃ short, table.shortFor? name = some short ∧ cs = short.toList) ∨
      (isIdentifier name = true ∧ cs = '!' :: name.toList) := by
  unfold Encoder.code at h
  split at h
  · next short hshort => cases h; exact .inl ⟨short, hshort, rfl⟩
  · obtain ⟨chars, hchars, rfl⟩ := map_eq_ok.mp h
    obtain ⟨hid, rfl⟩ := identifier_eq_ok hchars
    exact .inr ⟨hid, rfl⟩

theorem starts_of_code (ht : table.Sound) (h : Encoder.code table place name = .ok cs) :
    Starts startsCode cs := by
  rcases code_eq_ok h with ⟨short, hshort, rfl⟩ | ⟨_, rfl⟩
  · refine (starts_of_isIdentifier (Table.isIdentifier_of_shortFor? ht hshort)).mono ?_
    intro c hc
    simp [startsCode, hc]
  · rfl

theorem reads_code (ht : table.Sound) (h : Encoder.code table place name = .ok cs) :
    Reads (d.code table) (Follows endsName) cs name := by
  intro before rest o hb hr
  refine (runs_skipBlanks hb).bind (runs_get fun e => ?_)
  dsimp only
  rcases code_eq_ok h with ⟨short, hshort, rfl⟩ | ⟨hid, rfl⟩
  · have hid := Table.isIdentifier_of_shortFor? ht hshort
    obtain ⟨c, r, htext, hc⟩ := ((starts_of_isIdentifier hid).append rest).exists_cons
    have hmark : (short.toList ++ rest).head? ≠ some '!' := by
      rw [htext]
      simpa using ne_of_isNameStart hc (d := '!') (by decide)
    rw [if_neg hmark]
    refine (reads_identifier hid (dropBlanks_of_eq hb) hr).bind ?_
    rw [Table.longFor?_of_shortFor? ht hshort]
    exact runs_pure
  · rw [List.cons_append, List.head?_cons, if_pos rfl]
    exact runs_markedName hid hr

end names

section tokens

variable {e : Encoder} {d : Decoding} {cs : List Char}

/-! ## Keywords -/

/-- A character that no keyword begins with. -/
def endsKeywords (c : Char) : Bool :=
  isSolid c && c != '%'

theorem keyword_eq_ok {word : String} (h : e.keyword word = .ok cs) :
    ∃ chars, Encoder.code e.symbols.keywords .keyword word = .ok chars ∧
      cs = '%' :: (chars ++ ['.']) := by
  obtain ⟨chars, hchars, rfl⟩ := map_eq_ok.mp h
  exact ⟨chars, hchars, rfl⟩

theorem runs_modifier (hs : d.symbols = e.symbols) (ht : e.symbols.Sound) {word : String}
    {rest : List Char} {o : List OpenBracket} (h : e.keyword word = .ok cs) :
    Runs d.modifier ⟨cs ++ rest, o⟩ word ⟨rest, o⟩ := by
  obtain ⟨chars, hchars, rfl⟩ := keyword_eq_ok h
  have hsolid := (starts_of_code ht.keywords hchars).mono fun _ => isSolid_of_startsCode
  rw [List.cons_append, List.append_assoc, List.singleton_append]
  refine runs_advance.bind ?_
  have hcode : Reads (d.code d.symbols.keywords) (Follows endsName) chars word := by
    rw [hs]
    exact reads_code ht.keywords hchars
  have hdot : Follows endsName ('.' :: rest) := rfl
  refine (hcode (dropBlanks_append_of_starts hsolid _) hdot).bind (runs_peek.bind ?_)
  rw [List.head?_cons, if_pos rfl]
  exact runs_advance.bind runs_pure

theorem runs_modifiersLoop (hs : d.symbols = e.symbols) (ht : e.symbols.Sound)
    {o : List OpenBracket} {rest : List Char} (hr : Follows endsKeywords rest) :
    ∀ {words : List String} {codes : List (List Char)} {fuel : Nat} {before : List Char},
      List.Forall₂ (fun word cs => e.keyword word = .ok cs) words codes → words.length < fuel →
      dropBlanks before = codes.flatten ++ rest →
      Runs (d.modifiersLoop fuel) ⟨before, o⟩ words ⟨rest, o⟩ := by
  intro words
  induction words with
  | nil =>
      intro codes fuel before h hfuel hb
      cases h
      obtain ⟨fuel, rfl⟩ : ∃ n, fuel = n + 1 := ⟨fuel - 1, by omega⟩
      refine (runs_next hb).bind ?_
      have hend : rest.head? ≠ some '%' := by
        cases rest with
        | nil => simp
        | cons c r =>
            simp only [follows_cons, endsKeywords, Bool.and_eq_true, bne_iff_ne] at hr
            simpa using hr.2
      rw [show ([] : List (List Char)).flatten ++ rest = rest from rfl, if_neg hend]
      exact runs_pure
  | cons word words ih =>
      intro codes fuel before h hfuel hb
      obtain ⟨fuel, rfl⟩ : ∃ n, fuel = n + 1 := ⟨fuel - 1, by omega⟩
      cases h with
      | cons hword hwords =>
          rename_i cs codes
          obtain ⟨chars, _, hcs⟩ := keyword_eq_ok hword
          rw [List.flatten_cons, List.append_assoc] at hb
          have hsolid : Follows isSolid (codes.flatten ++ rest) := by
            cases hwords with
            | nil => exact hr.mono fun c hc => (Bool.and_eq_true _ _ ▸ hc : _ ∧ _).1
            | cons hnext _ =>
                obtain ⟨_, _, rfl⟩ := keyword_eq_ok hnext
                rfl
          refine (runs_next hb).bind ?_
          rw [if_pos (by simp [hcs])]
          refine (runs_modifier hs ht hword).bind ?_
          have hfuel' : words.length < fuel := by simpa using hfuel
          exact (ih hwords hfuel' (dropBlanks_of_follows hsolid)).bind runs_pure

theorem reads_modifiers (hs : d.symbols = e.symbols) (ht : e.symbols.Sound) {words : List String}
    {f : Fragment} (h : e.keywords words = .ok f) :
    Reads d.modifiers (Follows endsKeywords) f.text words := by
  obtain ⟨codes, hcodes, rfl⟩ := map_eq_ok.mp h
  have hall := forall₂_of_mapM hcodes
  intro before rest o hb hr
  refine runs_get fun _ => runs_modifiersLoop hs ht hr hall ?_ hb
  have hlen := length_dropBlanks_le before
  have hcodes : words.length ≤ codes.flatten.length := by
    clear hb hcodes h
    induction hall with
    | nil => simp
    | cons hword _ ih =>
        obtain ⟨_, _, rfl⟩ := keyword_eq_ok hword
        simp only [List.length_cons, List.flatten_cons, List.length_append] at ih ⊢
        omega
  rw [hb, Fragment.text_ofText, List.length_append] at hlen
  dsimp only
  omega

/-! ## Property keys -/

theorem propertyKey_eq_ok {key : String} (h : e.propertyKey key = .ok cs) :
    (∃ short, e.symbols.properties.shortFor? key = some short ∧ cs = short.toList) ∨
      (isIdentifier key = true ∧ cs = '!' :: key.toList) ∨
      (isIdentifier key = true ∧ e.symbols.properties.longFor? key = none ∧ cs = key.toList) := by
  unfold Encoder.propertyKey at h
  split at h
  · next short hshort => cases h; exact .inl ⟨short, hshort, rfl⟩
  · obtain ⟨chars, hchars, rfl⟩ := map_eq_ok.mp h
    obtain ⟨hid, rfl⟩ := identifier_eq_ok hchars
    split
    · exact .inr (.inl ⟨hid, rfl⟩)
    · next hshort =>
        exact .inr (.inr ⟨hid, Option.not_isSome_iff_eq_none.mp hshort, rfl⟩)

theorem starts_of_propertyKey (ht : e.symbols.Sound) {key : String}
    (h : e.propertyKey key = .ok cs) : Starts startsCode cs := by
  have hstart : ∀ {s : String}, isIdentifier s = true → Starts startsCode s.toList := by
    intro s hs
    refine (starts_of_isIdentifier hs).mono fun c hc => ?_
    simp [startsCode, hc]
  rcases propertyKey_eq_ok h with ⟨short, hshort, rfl⟩ | ⟨_, rfl⟩ | ⟨hid, _, rfl⟩
  · exact hstart (Table.isIdentifier_of_shortFor? ht.properties hshort)
  · rfl
  · exact hstart hid

/-- A symbol and a name that is no symbol are read in one way. -/
theorem reads_plainKey {short key : String} (hid : isIdentifier short = true)
    (hkey : (d.symbols.properties.longFor? short).getD short = key) :
    Reads d.propertyKey (Follows endsName) short.toList key := by
  intro before rest o hb hr
  have hread : Runs (identifier d.size) ⟨short.toList ++ rest, o⟩ short ⟨rest, o⟩ :=
    reads_identifier hid (dropBlanks_of_eq hb) hr
  obtain ⟨c, r, htext, hc⟩ := ((starts_of_isIdentifier hid).append rest).exists_cons
  have hne : c ≠ '!' := ne_of_isNameStart hc (by decide)
  refine (runs_next hb).bind ?_
  rw [htext] at hread ⊢
  simp only [List.head?_cons, if_neg hne, hc, if_true]
  refine hread.bind ?_
  rw [hkey]
  exact runs_pure

theorem reads_propertyKey (hs : d.symbols = e.symbols) (ht : e.symbols.Sound) {key : String}
    (h : e.propertyKey key = .ok cs) : Reads d.propertyKey (Follows endsName) cs key := by
  rcases propertyKey_eq_ok h with ⟨short, hshort, rfl⟩ | ⟨hid, rfl⟩ | ⟨hid, hlong, rfl⟩
  · refine reads_plainKey (Table.isIdentifier_of_shortFor? ht.properties hshort) ?_
    rw [hs, Table.longFor?_of_shortFor? ht.properties hshort]
    rfl
  · intro before rest o hb hr
    refine (runs_next hb).bind ?_
    rw [List.cons_append, List.head?_cons]
    exact runs_markedName hid hr
  · refine reads_plainKey hid ?_
    rw [hs, hlong]
    rfl

end tokens

/-! ## Scalars -/

section scalars

variable {e : Encoder} {d : Decoding} {cs : List Char} {readList : Reader (List Value)}
  {readWidget : Reader Widget}

/-- What a value begins with. -/
def startsValue (c : Char) : Bool :=
  among ['"', '~', '#', '&', '[', '@', '-'] c || c.isDigit || startsCode c

theorem reads_string (ok : List Char → Prop) (s : String) :
    Reads d.string ok (Quoted.quote s.toList) s := by
  intro before rest o hb _
  rw [Quoted.quote, List.cons_append, List.append_assoc, List.singleton_append] at hb
  refine (runs_expect hb).bind (runs_get fun _ => ?_)
  refine (runs_expectNow _).bind (runs_get fun _ => ?_)
  dsimp only
  rw [Quoted.read_escape]
  refine runs_moveTo.bind ((runs_expectNow _).bind ?_)
  rw [String.ofList_toList]
  exact runs_pure

theorem reads_stringValue (s : String) :
    Reads (d.valueWith readList readWidget) endsValue (Quoted.quote s.toList)
      (.scalar (.string s)) := by
  intro before rest o hb hr
  refine (runs_next hb).bind ?_
  exact (reads_string endsValue s (dropBlanks_of_eq hb) hr).bind runs_pure

/-- The characters that say at once what a value is. -/
abbrev isValueMark : Char → Bool :=
  among ['"', '~', '#', '&', '[', '@', '!']

theorem isNameStart_of_isDigit {c : Char} (h : c.isDigit = true) : isNameStart c = false := by
  rw [← Bool.not_eq_true]
  intro hn
  simp only [isNameStart, Bool.or_eq_true, beq_iff_eq] at hn
  rcases hn with (halpha | rfl) | rfl
  · unfold Char.isDigit at h
    unfold Char.isAlpha Char.isUpper Char.isLower at halpha
    grind
  · exact absurd h (by decide)
  · exact absurd h (by decide)

/-- A value whose first character is no mark is a number or begins with a name. -/
theorem leads_valueWith_plain {a r : List Char} {o : List OpenBracket} {c : Char}
    (hb : dropBlanks a = c :: r) (hc : isValueMark c = false) :
    Leads (d.valueWith readList readWidget) ⟨a, o⟩
      (if c == '-' || c.isDigit then do return .scalar (← d.number)
        else if isNameStart c then d.nameOrWidget readWidget
        else unexpected d.size .value) ⟨c :: r, o⟩ := by
  refine (runs_next hb).leads ?_
  rw [List.head?_cons]
  split
  case h_8 heq =>
    cases heq
    exact .refl _ _
  all_goals
    rename_i heq
    cases heq
    try exact absurd hc (by decide)

theorem reads_numberValue {s : String} (h : Numeral.isNumeral s.toList = true) :
    Reads (d.valueWith readList readWidget) endsValue s.toList (.scalar (.number s)) := by
  intro before rest o hb hr
  have hsplit := Numeral.split_append (hr.widen (by decide)) (Numeral.split_of_isNumeral h)
  have hnumber : Runs d.number ⟨s.toList ++ rest, o⟩ (.number s) ⟨rest, o⟩ := by
    refine runs_get fun _ => ?_
    dsimp only
    rw [hsplit]
    dsimp only
    rw [String.ofList_toList]
    exact runs_moveTo.bind runs_pure
  obtain ⟨c, r, htext, hc⟩ := ((Numeral.starts_of_isNumeral h).append rest).exists_cons
  rw [htext] at hb hnumber
  have hmark : isValueMark c = false := by
    rw [← Bool.not_eq_true]
    intro hm
    have hno := of_among (p := fun c => !(c == '-' || c.isDigit)) (by decide) hm
    rw [hc] at hno
    cases hno
  refine (leads_valueWith_plain hb hmark).runs ?_
  rw [if_pos hc]
  exact hnumber.bind runs_pure

theorem reads_constant {c : Char} {s : Scalar} (h : Decoding.constant? (some c) = some s) :
    Reads (d.valueWith readList readWidget) endsValue ['~', c] (.scalar s) := by
  intro before rest o hb _
  refine (runs_next hb).bind ?_
  have hconstant : Runs d.constant ⟨'~' :: c :: rest, o⟩ s ⟨rest, o⟩ := by
    refine runs_get fun _ => ?_
    dsimp only [List.tail_cons, List.head?_cons]
    rw [h]
    exact runs_moveTo.bind runs_pure
  exact hconstant.bind runs_pure

theorem reads_expression (text : String) :
    Reads (d.valueWith readList readWidget) endsValue ('&' :: Quoted.quote text.toList)
      (.scalar (.expr text)) := by
  intro before rest o hb hr
  refine (runs_next hb).bind ?_
  have hquote : dropBlanks (Quoted.quote text.toList ++ rest) =
      Quoted.quote text.toList ++ rest := rfl
  have hexpression : Runs d.expression ⟨'&' :: (Quoted.quote text.toList ++ rest), o⟩
      (.expr text) ⟨rest, o⟩ := by
    refine runs_advance.bind (runs_peek.bind ?_)
    rw [Quoted.quote, List.cons_append, List.head?_cons, if_pos rfl]
    exact (reads_string endsValue text hquote hr).bind runs_pure
  exact hexpression.bind runs_pure

theorem reads_foldedLiteral (hs : d.symbols = e.symbols) (ht : e.symbols.Sound)
    {long short : String} (h : e.folded? long = some short) :
    Reads (d.valueWith readList readWidget) endsValue ('#' :: short.toList)
      (.scalar (Decoding.unfold long)) := by
  have hshort : e.symbols.literals.shortFor? long = some short := by
    unfold Encoder.folded? at h
    split at h
    · exact h
    · cases h
  have hcode : Encoder.code e.symbols.literals .value long = .ok short.toList := by
    rw [Encoder.code, hshort]
  have hid := Table.isIdentifier_of_shortFor? ht.literals hshort
  intro before rest o hb hr
  refine (runs_next hb).bind ?_
  have hread : Reads (d.code d.symbols.literals) (Follows endsName) short.toList long := by
    rw [hs]
    exact reads_code ht.literals hcode
  have hsolid := dropBlanks_append_of_starts
    (starts_isSolid_of_isNameStart (starts_of_isIdentifier hid)) rest
  have hfolded : Runs d.foldedLiteral ⟨'#' :: (short.toList ++ rest), o⟩ (Decoding.unfold long)
      ⟨rest, o⟩ :=
    runs_advance.bind ((hread hsolid (hr.widen (by decide))).bind runs_pure)
  exact hfolded.bind runs_pure

theorem starts_of_isPath {name : String} (h : isPath name = true) :
    Starts isNameStart name.toList := by
  have hstart := startsName_of_isPathFrom h []
  rw [List.append_nil] at hstart
  cases hl : name.toList with
  | nil => rw [hl] at hstart; cases hstart
  | cons c r => rw [hl] at hstart; exact hstart

/-- A name is no number and no mark, so it is read as a name. -/
theorem leads_valueWith_name {a r : List Char} {o : List OpenBracket} {c : Char}
    (hb : dropBlanks a = c :: r) (hc : isNameStart c = true) :
    Leads (d.valueWith readList readWidget) ⟨a, o⟩ (d.nameOrWidget readWidget) ⟨c :: r, o⟩ := by
  have hmark : isValueMark c = false := by
    rw [← Bool.not_eq_true]
    intro hm
    have hno := of_among (p := fun c => !isNameStart c) (by decide) hm
    rw [hc] at hno
    cases hno
  have hdigit : ¬ (c == '-' || c.isDigit) = true := by
    intro hd
    simp only [Bool.or_eq_true, beq_iff_eq] at hd
    rcases hd with rfl | hd
    · exact absurd hc (by decide)
    · exact absurd hc (by simp [isNameStart_of_isDigit hd])
  refine (leads_valueWith_plain hb hmark).trans ?_
  rw [if_neg hdigit, if_pos hc]
  exact .refl _ _

theorem reads_ident {name : String} (h : isPath name = true) :
    Reads (d.valueWith readList readWidget) endsValue name.toList (.scalar (.ident name)) := by
  intro before rest o hb hr
  obtain ⟨c, r, htext, hc⟩ := ((starts_of_isPath h).append rest).exists_cons
  have hpath : Runs (path d.size) ⟨name.toList ++ rest, o⟩ name ⟨rest, o⟩ :=
    reads_path h (dropBlanks_of_eq hb) (hr.widen (by decide))
  rw [htext] at hb hpath
  refine (leads_valueWith_name hb hc).runs (runs_get fun _ => hpath.bind ?_)
  have hrest := dropBlanks_of_follows (hr.widen (by decide))
  refine (runs_next hrest).bind ?_
  split
  · next heq => exact absurd heq (ne_head_of_follows hr (by decide))
  · next heq => exact absurd heq (ne_head_of_follows hr (by decide))
  · exact runs_pure

theorem reads_literal {l : Literal} (h : Encoder.literal l = .ok cs) :
    Reads (d.valueWith readList readWidget) endsValue cs (.scalar (.literal l)) := by
  obtain ⟨kind, raw⟩ := l
  cases kind with
  | string => cases h; exact reads_stringValue raw
  | number =>
      simp only [Encoder.literal] at h
      split at h
      · next hnum => cases h; exact reads_numberValue hnum
      · cases h
  | bool =>
      simp only [Encoder.literal] at h
      split at h
      · next hraw => cases h; subst hraw; exact reads_constant rfl
      · split at h
        · next hraw => cases h; subst hraw; exact reads_constant rfl
        · cases h
  | null =>
      simp only [Encoder.literal] at h
      split at h
      · next hraw => cases h; subst hraw; exact reads_constant rfl
      · cases h

/-- A literal is recognised by its first character also where no other value may stand. -/
theorem starts_of_literal {l : Literal} (h : Encoder.literal l = .ok cs) :
    Starts Decoding.startsLiteral cs := by
  obtain ⟨kind, raw⟩ := l
  cases kind with
  | string => cases h; rfl
  | number =>
      simp only [Encoder.literal] at h
      split at h
      · next hnum =>
          cases h
          refine (Numeral.starts_of_isNumeral hnum).mono fun c hc => ?_
          simp only [Bool.or_eq_true] at hc
          simp only [Decoding.startsLiteral, Bool.or_eq_true]
          tauto
      · cases h
  | bool =>
      simp only [Encoder.literal] at h
      split at h
      · cases h; rfl
      · split at h
        · cases h; rfl
        · cases h
  | null =>
      simp only [Encoder.literal] at h
      split at h
      · cases h; rfl
      · cases h

/-- A folded literal is unfolded to what it was: an expression is folded only if it is no path. -/
theorem reads_scalar (hs : d.symbols = e.symbols) (ht : e.symbols.Sound) {s : Scalar}
    (h : e.scalar s = .ok cs) :
    Reads (d.valueWith readList readWidget) endsValue cs (.scalar s) := by
  cases s with
  | literal l => exact reads_literal h
  | ident name =>
      simp only [Encoder.scalar] at h
      split at h
      · next hpath =>
          split at h
          · next short hshort =>
              cases h
              have hunfold : Decoding.unfold name = .ident name := if_pos hpath
              rw [← hunfold]
              exact reads_foldedLiteral hs ht hshort
          · cases h
            exact reads_ident hpath
      · cases h
  | expr text =>
      simp only [Encoder.scalar] at h
      split at h
      · next short hshort =>
          cases h
          split at hshort
          · cases hshort
          · next hpath =>
              have hunfold : Decoding.unfold text = .expr text := if_neg hpath
              rw [← hunfold]
              exact reads_foldedLiteral hs ht hshort
      · cases h
        exact reads_expression text

theorem startsValue_of_startsLiteral {c : Char} (h : Decoding.startsLiteral c = true) :
    startsValue c = true := by
  simp only [Decoding.startsLiteral, Bool.or_eq_true, beq_iff_eq] at h
  rcases h with ((rfl | rfl) | rfl) | h
  · decide
  · decide
  · decide
  · simp [startsValue, h]

theorem startsValue_of_startsCode {c : Char} (h : startsCode c = true) : startsValue c = true := by
  simp [startsValue, h]

theorem isSolid_of_startsValue {c : Char} (h : startsValue c = true) : isSolid c = true := by
  simp only [startsValue, Bool.or_eq_true] at h
  rcases h with (h | h) | h
  · exact of_among (by decide) h
  · refine isSolid_of_isNameChar ?_
    simp [isNameChar, Char.isAlphanum, h]
  · exact isSolid_of_startsCode h

theorem starts_of_scalar {s : Scalar} (h : e.scalar s = .ok cs) : Starts startsValue cs := by
  cases s with
  | literal l => exact (starts_of_literal h).mono fun _ => startsValue_of_startsLiteral
  | ident name =>
      simp only [Encoder.scalar] at h
      split at h
      · next hpath =>
          split at h
          · cases h; rfl
          · cases h
            refine (starts_of_isPath hpath).mono fun c hc => startsValue_of_startsCode ?_
            simp [startsCode, hc]
      · cases h
  | expr text =>
      simp only [Encoder.scalar] at h
      split at h
      · cases h; rfl
      · cases h; rfl

end scalars

end WidgetShorthand
