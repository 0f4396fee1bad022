import WidgetShorthand.Proofs.Echo
import WidgetShorthand.Proofs.Filling
import WidgetShorthand.Proofs.TokenReading

/-!
# Widgets and values are read back

The heart of the round trip. Reader and writer count levels of depth in the same way, so the proof
follows the writer: one statement to each kind of node says that the text of the node is read as its
echo, given the same of its parts, and the mutual induction at the end only puts these together.

A widget in the place of a value is recognised by how its text begins. A mark says it at once; a
name could be an identifier, and it is the brace behind it that tells. `WidgetHead` keeps this apart
from the rest of the text.
-/

namespace WidgetShorthand

open Text Reader

/-- The reader has the writer's tables and depth, and knows what every reference stands for. -/
structure Understands (d : Decoder) (e : Encoder) (stand : Entry → Widget → Widget) : Prop where
  symbols : d.symbols = e.symbols
  tables : e.symbols.Sound
  depth : d.maxDepth = e.options.maxDepth
  references : ∀ {w entry}, e.matchPattern? w = some entry → isReferenceId entry.id = true ∧
    ∃ known, d.registry.get? entry.id = some known ∧
      (Encoder.arguments entry w).length ≤ known.arity ∧
      Decoding.fill known (Encoder.arguments entry w) = some (stand entry w)

/-- The ways in which a widget's text begins. -/
inductive WidgetHead : List Char → Prop
  | reference (r : List Char) : WidgetHead ('@' :: r)
  | marked (r : List Char) : WidgetHead ('!' :: r)
  | named {short : String} (r : List Char) (h : isIdentifier short = true) :
      WidgetHead (short.toList ++ '\x7b' :: r)

/-- What a widget begins with. -/
def startsWidget (c : Char) : Bool :=
  c == '@' || c == '!' || isNameStart c

theorem WidgetHead.starts {text : List Char} (h : WidgetHead text) : Starts startsWidget text := by
  cases h with
  | reference r => rfl
  | marked r => rfl
  | named r hid =>
      refine ((starts_of_isIdentifier hid).append _).mono fun c hc => ?_
      simp [startsWidget, hc]

theorem startsValue_of_startsWidget {c : Char} (h : startsWidget c = true) :
    startsValue c = true := by
  simp only [startsWidget, Bool.or_eq_true, beq_iff_eq] at h
  rcases h with (rfl | rfl) | h
  · decide
  · decide
  · exact startsValue_of_startsCode (by simp [startsCode, h])

theorem isSolid_of_startsWidget {c : Char} (h : startsWidget c = true) : isSolid c = true :=
  isSolid_of_startsValue (startsValue_of_startsWidget h)

theorem solid_of_endsValue {rest : List Char} (h : endsValue rest) : Follows isSolid rest :=
  h.widen (by decide)

theorem separates_comma {first : Char → Bool} (h : ∀ c, first c = true → isSolid c = true) :
    Separates endsValue first ',' [] :=
  separates_bare h (fun _ => solid_of_endsValue) fun _ => rfl

section

variable {d : Decoding} {e : Encoder} {stand : Entry → Widget → Widget} {levels : Nat}
  {readValue : Reader Value} {readWidget : Reader Widget} {readList : Reader (List Value)}
  {o : List OpenBracket} {a rest : List Char}

theorem reads_typeCode (hu : Understands d.toDecoder e stand) {name : String} {code : List Char}
    (h : e.typeCode name = .ok code) :
    Reads (d.code d.symbols.types) (Follows endsName) code name := by
  rw [hu.symbols]
  exact reads_code hu.tables.types h

/-! ## References -/

theorem runs_argument (hu : Understands d.toDecoder e stand) {arg : Option Scalar} {f : Fragment}
    {rl : Reader (List Value)} {rw : Reader Widget} {c : Char} {r : List Char}
    (h : e.argumentText arg = .ok f) (hc : among [',', ')'] c = true)
    (hb : dropBlanks a = f.text ++ c :: r) :
    Runs (d.argument (d.valueWith rl rw)) ⟨a, o⟩ arg ⟨c :: r, o⟩ := by
  refine (runs_next hb).bind ?_
  cases arg with
  | none =>
      cases h
      have hends : c = ',' ∨ c = ')' := by simpa [among] using hc
      rcases hends with rfl | rfl <;> exact runs_pure
  | some s =>
      obtain ⟨chars, hchars, rfl⟩ := map_eq_ok.mp h
      have hstart := starts_of_scalar hchars
      have hread : Runs (d.valueWith rl rw) ⟨chars ++ c :: r, o⟩ (.scalar s) ⟨c :: r, o⟩ := by
        refine reads_scalar hu.symbols hu.tables hchars (dropBlanks_of_eq hb) ?_
        exact of_among (p := among [',', ';', '|', '}', ']', ')']) (by decide) hc
      obtain ⟨first, tail, htext, hfirst⟩ := (hstart.append (c :: r)).exists_cons
      rw [htext] at hread
      rw [Fragment.text_ofText, htext, List.head?_cons]
      split
      · next heq => cases heq; exact absurd hfirst (by decide)
      · next heq => cases heq; exact absurd hfirst (by decide)
      · refine runs_get fun _ => ?_
        dsimp only
        exact hread.bind runs_pure

theorem follows_argument {arg : Option Scalar} {f : Fragment} (h : e.argumentText arg = .ok f)
    {c : Char} (hc : isSolid c = true) (r : List Char) : Follows isSolid (f.text ++ c :: r) := by
  cases arg with
  | none => cases h; exact hc
  | some s =>
      obtain ⟨chars, hchars, rfl⟩ := map_eq_ok.mp h
      exact ((starts_of_scalar hchars).mono fun _ => isSolid_of_startsValue).follows _

theorem follows_arguments {args : List (Option Scalar)} {texts : List Fragment}
    (h : List.Forall₂ (fun arg f => e.argumentText arg = .ok f) args texts) (rest : List Char) :
    Follows isSolid ((Fragment.join [','] texts).text ++ ')' :: rest) := by
  cases h with
  | nil => rfl
  | cons harg hargs =>
      cases hargs with
      | nil => exact follows_argument harg (by decide) rest
      | cons _ _ =>
          rw [join_cons_cons, List.singleton_append]
          exact follows_argument harg (by decide) _

theorem runs_arguments (hu : Understands d.toDecoder e stand) {rl : Reader (List Value)}
    {rw : Reader Widget} {tooMany : Reader (List (Option Scalar))} {args : List (Option Scalar)}
    {texts : List Fragment} (h : List.Forall₂ (fun arg f => e.argumentText arg = .ok f) args texts)
    {slots : Nat} (hne : args ≠ []) (hslots : args.length ≤ slots)
    (hb : dropBlanks a = (Fragment.join [','] texts).text ++ ')' :: rest) :
    Runs (Decoding.arguments (d.argument (d.valueWith rl rw)) tooMany slots) ⟨a, o⟩ args
      ⟨')' :: rest, o⟩ := by
  induction h generalizing slots a with
  | nil => exact absurd rfl hne
  | @cons arg f args texts harg hargs ih =>
      obtain ⟨slots, rfl⟩ : ∃ n, slots = n + 1 := by
        cases slots with
        | zero => simp at hslots
        | succ n => exact ⟨n, rfl⟩
      cases hargs with
      | nil =>
          refine (runs_argument hu harg (by decide) hb).bind ?_
          have hclose : dropBlanks (')' :: rest) = ')' :: rest := rfl
          exact (runs_eat_other hclose (by simp)).bind runs_pure
      | cons hnext hrest =>
          rw [join_cons_cons, List.singleton_append] at hb
          refine (runs_argument hu harg (by decide) hb).bind ((runs_eat rfl).bind ?_)
          rw [if_pos rfl]
          have hbehind := dropBlanks_of_follows (follows_arguments (.cons hnext hrest) rest)
          exact (ih (by simp) (by simpa using hslots) hbehind).bind runs_pure

/-- Arguments of which the last is there do not begin with the closing bracket. -/
theorem head_arguments {args : List (Option Scalar)} {texts : List Fragment}
    (h : List.Forall₂ (fun arg f => e.argumentText arg = .ok f) args texts) (hne : args ≠ [])
    (hlast : (args.getLast hne).isSome) (rest : List Char) :
    ((Fragment.join [','] texts).text ++ rest).head? ≠ some ')' := by
  cases h with
  | nil => exact absurd rfl hne
  | @cons arg f args texts harg hargs =>
      cases arg with
      | none =>
          cases harg
          cases hargs with
          | nil => cases hlast
          | cons _ _ =>
              rw [join_cons_cons]
              simp
      | some s =>
          obtain ⟨chars, hchars, rfl⟩ := map_eq_ok.mp harg
          have hstart : Starts startsValue (Fragment.join [','] (.ofText chars :: texts)).text := by
            cases texts with
            | nil => exact starts_of_scalar hchars
            | cons g gs => exact (starts_of_scalar hchars).append _
          exact ne_head_of_follows (hstart.follows rest) (by decide)

theorem runs_callArguments (hu : Understands d.toDecoder e stand) {rl : Reader (List Value)}
    {rw : Reader Widget} {entry known : Entry} {w : Widget} {texts : List Fragment}
    (h : (Encoder.arguments entry w).mapM e.argumentText = .ok texts)
    (hslots : (Encoder.arguments entry w).length ≤ known.arity) :
    Runs (d.callArguments (d.valueWith rl rw) known)
      ⟨(Fragment.join [','] texts).text ++ ')' :: rest, o⟩ (Encoder.arguments entry w)
      ⟨')' :: rest, o⟩ := by
  have hargs := forall₂_of_mapM h
  have hstart := dropBlanks_of_follows (follows_arguments hargs rest)
  refine (runs_next hstart).bind ?_
  by_cases hne : Encoder.arguments entry w = []
  · rw [hne] at hargs ⊢
    cases hargs
    exact runs_pure
  · rw [if_neg (head_arguments hargs hne (getLast_arguments hne) _)]
    exact runs_arguments hu hargs hne hslots (dropBlanks_of_eq hstart)

/-- What is left to do behind the opening bracket of a reference. -/
def Decoding.expansion (d : Decoding) (value : Reader Value) (entry : Entry) (start : List Char) :
    Reader Widget := do
  let args ← d.callArguments value entry
  closeBracket d.size
  match fill entry args with
  | some w => return w
  | none => failAt d.size start (.unresolvedSlot entry.id)

/-- A known id leads to the arguments behind it. -/
theorem leads_referenceFrom {known : Entry} {id : String} (hid : isReferenceId id = true)
    (hget : d.registry.get? id = some known) (start : List Char) :
    Leads (d.referenceFrom readValue start) ⟨id.toList ++ '(' :: rest, o⟩
      (d.expansion readValue known start) ⟨rest, ⟨'(', '(' :: rest⟩ :: o⟩ := by
  simp only [isReferenceId, Bool.and_eq_true, List.all_eq_true, Bool.not_eq_true'] at hid
  obtain ⟨hnonempty, hchars⟩ := hid
  have hends : Follows (fun c => !isReferenceChar c) ('(' :: rest) := rfl
  refine leads_get fun _ => ?_
  dsimp only
  rw [takeWhile_append_of_follows hchars hends, dropWhile_append_of_follows hchars hends,
    String.ofList_toList, hget]
  refine runs_moveTo.leads ?_
  rw [if_neg (by simp [hnonempty])]
  exact (runs_openBracket rfl).leads (.refl _ _)

/-- The mark in front of an id leads to the id. -/
theorem leads_reference (hb : dropBlanks a = '@' :: rest) :
    Leads (d.widgetWith (d.widgetBody readValue readWidget)) ⟨a, o⟩
      (d.referenceFrom readValue ('@' :: rest)) ⟨rest, o⟩ := by
  refine (runs_expectNow _).leads ((runs_next hb).leads (runs_peek.leads ?_))
  exact leads_get fun _ => runs_advance.leads (.refl _ _)

theorem runs_referenceFrom (hu : Understands d.toDecoder e stand) {rl : Reader (List Value)}
    {rw : Reader Widget} {entry : Entry} {w : Widget} {texts : List Fragment} {start : List Char}
    (hmatch : e.matchPattern? w = some entry)
    (h : (Encoder.arguments entry w).mapM e.argumentText = .ok texts) :
    Runs (d.referenceFrom (d.valueWith rl rw) start)
      ⟨entry.id.toList ++ '(' :: ((Fragment.join [','] texts).text ++ ')' :: rest), o⟩
      (stand entry w) ⟨rest, o⟩ := by
  obtain ⟨hid, known, hget, hslots, hfill⟩ := hu.references hmatch
  refine (leads_referenceFrom hid hget start).runs ((runs_callArguments hu h hslots).bind ?_)
  refine (runs_closeBracket rfl).bind ?_
  rw [hfill]
  exact runs_pure

theorem reads_reference (hu : Understands d.toDecoder e stand) {rl : Reader (List Value)}
    {rw : Reader Widget} {entry : Entry} {w : Widget} {f : Fragment}
    (hmatch : e.matchPattern? w = some entry) (h : e.reference entry w = .ok f) :
    Reads (d.widgetWith (d.widgetBody (d.valueWith rl rw) readWidget)) endsValue f.text
      (stand entry w) ∧ WidgetHead f.text := by
  obtain ⟨texts, htexts, rfl⟩ := map_eq_ok.mp h
  have htext : ∀ rest, (Fragment.enclose ('@' :: (entry.id.toList ++ ['('])) (.join [','] texts)
      [')']).text ++ rest =
      '@' :: (entry.id.toList ++ '(' :: ((Fragment.join [','] texts).text ++ ')' :: rest)) := by
    intro rest
    simp [Fragment.enclose]
  refine ⟨fun before rest o hb _ => ?_, .reference _⟩
  dsimp only at hb
  rw [htext] at hb
  exact (leads_reference hb).runs (runs_referenceFrom hu hmatch htexts)

/-! ## Widgets in full -/

theorem reads_property (hu : Understands d.toDecoder e stand) {key : String} {code : List Char}
    {v : Value} {f : Fragment} (hcode : e.propertyKey key = .ok code)
    (hv : Reads readValue endsValue f.text v) (hstart : Starts startsValue f.text) :
    Reads (d.property readValue) endsValue (code ++ ':' :: f.text) ⟨key, v⟩ := by
  intro before rest o hb hr
  rw [List.append_assoc, List.cons_append] at hb
  have hvalue := dropBlanks_append_of_starts (hstart.mono fun _ => isSolid_of_startsValue) rest
  refine (runs_expectNow _).bind ?_
  refine (reads_propertyKey hu.symbols hu.tables hcode hb rfl).bind ((runs_expect rfl).bind ?_)
  refine (runs_expectNow _).bind ((hv hvalue hr).bind ?_)
  exact (runs_expectNow _).bind runs_pure

theorem runs_properties {parts : List Fragment} {ps : List Property}
    (h : ReadsAll (d.property readValue) endsValue startsCode parts ps) :
    Runs (d.properties readValue)
      ⟨'\x7b' :: ((Fragment.join [','] parts).text ++ '\x7d' :: rest), o⟩ ps ⟨rest, o⟩ := by
  have hsolid : ∀ c, startsCode c = true → isSolid c = true := fun _ => isSolid_of_startsCode
  have hbody := h.dropBlanks_join hsolid (show Follows isSolid ('\x7d' :: rest) from rfl) [',']
  refine (runs_openBracket rfl).bind ((runs_expectNow _).bind ?_)
  refine (runs_separatedUntil (separates_comma hsolid) h hbody rfl (by decide) (by decide)).bind ?_
  exact (runs_closeBracket rfl).bind runs_pure

theorem reads_child {f : Fragment} {w : Widget} (h : Reads readWidget endsValue f.text w) :
    Reads (Decoding.child readWidget) endsValue f.text w :=
  fun _ _ _ hb hr => (h hb hr).bind ((runs_expectNow _).bind runs_pure)

theorem runs_children {parts : List Fragment} {ws : List Widget}
    (h : ReadsAll (Decoding.child readWidget) endsValue startsWidget parts ws) :
    Runs (d.children readWidget) ⟨'[' :: ((Fragment.join [','] parts).text ++ ']' :: rest), o⟩ ws
      ⟨rest, o⟩ := by
  have hsolid : ∀ c, startsWidget c = true → isSolid c = true := fun _ => isSolid_of_startsWidget
  have hbody := h.dropBlanks_join hsolid (show Follows isSolid (']' :: rest) from rfl) [',']
  refine (runs_openBracket rfl).bind ((runs_expectNow _).bind ?_)
  refine (runs_separatedUntil (separates_comma hsolid) h hbody rfl (by decide) (by decide)).bind ?_
  exact (runs_closeBracket rfl).bind runs_pure

/-- The text of a widget in full. Without children there are no brackets for them. -/
def fullText (code : List Char) (properties children : List Fragment) : Fragment :=
  let body := Fragment.enclose (code ++ ['\x7b']) (.join [','] properties) ['\x7d']
  if children.isEmpty then body else body ++ .enclose ['['] (.join [','] children) [']']

theorem fullText_append (code : List Char) (properties children : List Fragment)
    (rest : List Char) : (fullText code properties children).text ++ rest =
      code ++ '\x7b' :: ((Fragment.join [','] properties).text ++ '\x7d' ::
        if children.isEmpty then rest
        else '[' :: ((Fragment.join [','] children).text ++ ']' :: rest)) := by
  cases children <;> simp [fullText, Fragment.enclose]

theorem widgetHead_fullText (ht : e.symbols.Sound) {t : String} {code : List Char}
    (hcode : e.typeCode t = .ok code) (properties children : List Fragment) :
    WidgetHead (fullText code properties children).text := by
  rw [← List.append_nil (fullText _ _ _).text, fullText_append]
  rcases code_eq_ok hcode with ⟨short, hshort, rfl⟩ | ⟨_, rfl⟩
  · exact .named _ (Table.isIdentifier_of_shortFor? ht.types hshort)
  · exact .marked _

/-- A type's code in front of a brace leads to the widget's properties. -/
theorem leads_fullWidget (hu : Understands d.toDecoder e stand) {t : String} {code : List Char}
    (hcode : e.typeCode t = .ok code) (hb : dropBlanks a = code ++ '\x7b' :: rest) :
    Leads (d.widgetWith (d.widgetBody readValue readWidget)) ⟨a, o⟩
      (d.properties readValue >>= fun ps => do
        let ws ← if (← next) = some '[' then d.children readWidget else pure []
        return ⟨t, ps, ws⟩) ⟨'\x7b' :: rest, o⟩ := by
  have hstart := starts_of_code hu.tables.types hcode
  refine (runs_expectNow _).leads ((runs_next hb).leads ?_)
  obtain ⟨c, r, htext, hc⟩ := hstart.exists_cons
  have hwidget : (c == '@' || c == '!' || isNameStart c) = true := by
    rw [Bool.or_assoc, Bool.or_eq_true]
    exact .inr hc
  have hat : c ≠ '@' := by
    rintro rfl
    exact absurd hc (by decide)
  rw [htext, List.cons_append, List.head?_cons, ← List.cons_append, ← htext]
  dsimp only
  rw [if_pos hwidget]
  refine runs_peek.leads ?_
  rw [htext, List.cons_append, List.head?_cons, ← List.cons_append, ← htext,
    if_neg (by simpa using hat)]
  refine (reads_typeCode hu hcode (dropBlanks_of_eq hb) rfl).leads
    ((runs_next (dropBlanks_cons (by decide) _)).leads ?_)
  dsimp only
  rw [List.head?_cons, if_pos rfl]
  exact .refl _ _

theorem reads_fullWidget (hu : Understands d.toDecoder e stand) {t : String} {code : List Char}
    {ps : List Property} {cs : List Widget} {properties children : List Fragment}
    (hcode : e.typeCode t = .ok code)
    (hps : ReadsAll (d.property readValue) endsValue startsCode properties ps)
    (hcs : ReadsAll (Decoding.child readWidget) endsValue startsWidget children cs) :
    Reads (d.widgetWith (d.widgetBody readValue readWidget)) endsValue
      (fullText code properties children).text ⟨t, ps, cs⟩ := by
  intro before rest o hb hr
  rw [fullText_append] at hb
  refine (leads_fullWidget hu hcode hb).runs ((runs_properties hps).bind ?_)
  cases hcs with
  | nil =>
      refine (runs_next (dropBlanks_of_follows (solid_of_endsValue hr))).bind ?_
      have hend : rest.head? ≠ some '[' := ne_head_of_follows hr (by decide)
      rw [if_neg hend]
      exact runs_pure
  | cons hchild hrest =>
      refine (runs_next (dropBlanks_cons (by decide) _)).bind ?_
      rw [List.head?_cons, if_pos rfl]
      exact (runs_children (.cons hchild hrest)).bind runs_pure

/-! ## Values -/

/-- A value that begins like a widget is read as a widget. -/
theorem leads_widgetValue {text : List Char} (hhead : WidgetHead text)
    (hb : dropBlanks a = text ++ rest) :
    Leads (d.valueWith readList readWidget) ⟨a, o⟩ (do return .widget (← readWidget))
      ⟨text ++ rest, o⟩ := by
  cases hhead with
  | reference r => exact (runs_next hb).leads (.refl _ _)
  | marked r => exact (runs_next hb).leads (.refl _ _)
  | @named short r hid =>
      have hpath : Runs (path d.size) ⟨short.toList ++ '\x7b' :: (r ++ rest), o⟩ short
          ⟨'\x7b' :: (r ++ rest), o⟩ :=
        reads_path (isPath_of_isIdentifier hid)
          (dropBlanks_append_of_starts
            (starts_isSolid_of_isNameStart (starts_of_isIdentifier hid)) _) rfl
      rw [List.append_assoc, List.cons_append] at hb ⊢
      obtain ⟨c, tail, htext, hc⟩ :=
        ((starts_of_isIdentifier hid).append ('\x7b' :: (r ++ rest))).exists_cons
      rw [htext] at hb hpath ⊢
      refine (leads_valueWith_name hb hc).trans (leads_get fun _ => hpath.leads ?_)
      refine (runs_next (dropBlanks_cons (by decide) _)).leads ?_
      rw [List.head?_cons]
      exact runs_moveTo.leads (.refl _ _)

theorem reads_widgetValue {text : List Char} {w : Widget}
    (h : Reads readWidget endsValue text w) (hhead : WidgetHead text) :
    Reads (d.valueWith readList readWidget) endsValue text (.widget w) := by
  intro before rest o hb hr
  exact (leads_widgetValue hhead hb).runs ((h (dropBlanks_of_eq hb) hr).bind runs_pure)

/-- A value that begins with a bracket is read as a list. -/
theorem leads_listValue (hb : dropBlanks a = '[' :: rest) :
    Leads (d.valueWith readList readWidget) ⟨a, o⟩ (do return .list (← readList))
      ⟨'[' :: rest, o⟩ :=
  (runs_next hb).leads (.refl _ _)

theorem reads_listValue {parts : List Fragment} {vs : List Value}
    (h : ReadsAll readValue endsValue startsValue parts vs) :
    Reads (d.valueWith (d.list readValue) readWidget) endsValue
      (Fragment.enclose ['['] (.join [','] parts) [']']).text (.list vs) := by
  intro before rest o hb _
  rw [enclose_append, List.singleton_append] at hb
  have hsolid : ∀ c, startsValue c = true → isSolid c = true := fun _ => isSolid_of_startsValue
  have hbody := h.dropBlanks_join hsolid (show Follows isSolid (']' :: rest) from rfl) [',']
  have hlist : Runs (d.list readValue)
      ⟨'[' :: ((Fragment.join [','] parts).text ++ ']' :: rest), o⟩ vs ⟨rest, o⟩ := by
    refine (runs_openBracket rfl).bind ?_
    refine (runs_separatedUntil (separates_comma hsolid) h hbody rfl
      (by decide) (by decide)).bind ?_
    exact (runs_closeBracket rfl).bind runs_pure
  exact (leads_listValue hb).runs (hlist.bind runs_pure)

/-! ## All levels -/

theorem value_eq_valueWith (d : Decoding) (levels : Nat) :
    ∃ readList, d.value levels = d.valueWith readList (d.widget levels) := by
  cases levels with
  | zero => exact ⟨_, rfl⟩
  | succ levels => exact ⟨_, rfl⟩

theorem widget_succ (d : Decoding) (levels : Nat) : d.widget (levels + 1) =
    d.widgetWith (d.widgetBody (d.value levels) (d.widget levels)) := rfl

theorem value_succ (d : Decoding) (levels : Nat) : d.value (levels + 1) =
    d.valueWith (d.list (d.value levels)) (d.widget (levels + 1)) := rfl

/-! ## What the writer did -/

theorem properties_cons_eq_ok {key : String} {v : Value} {ps : List Property}
    {fs : List Fragment} : e.properties levels (⟨key, v⟩ :: ps) = .ok fs ↔
      ∃ code f rest, e.propertyKey key = .ok code ∧ e.value levels v = .ok f ∧
        e.properties levels ps = .ok rest ∧ fs = (.ofText (code ++ [':']) ++ f) :: rest := by
  simp only [Encoder.properties, bind_eq_ok]
  constructor
  · rintro ⟨code, hcode, f, hf, rest, hrest, h⟩
    cases h
    exact ⟨code, f, rest, hcode, hf, hrest, rfl⟩
  · rintro ⟨code, f, rest, hcode, hf, hrest, rfl⟩
    exact ⟨code, hcode, f, hf, rest, hrest, rfl⟩

theorem children_cons_eq_ok {c : Widget} {cs : List Widget} {fs : List Fragment} :
    e.children levels (c :: cs) = .ok fs ↔
      ∃ f rest, e.widget levels c = .ok f ∧ e.children levels cs = .ok rest ∧
        fs = f :: rest := by
  simp only [Encoder.children, bind_eq_ok]
  constructor
  · rintro ⟨f, hf, rest, hrest, h⟩
    cases h
    exact ⟨f, rest, hf, hrest, rfl⟩
  · rintro ⟨f, rest, hf, hrest, rfl⟩
    exact ⟨f, hf, rest, hrest, rfl⟩

theorem items_cons_eq_ok {v : Value} {vs : List Value} {fs : List Fragment} :
    e.items levels (v :: vs) = .ok fs ↔
      ∃ f rest, e.value levels v = .ok f ∧ e.items levels vs = .ok rest ∧ fs = f :: rest := by
  simp only [Encoder.items, bind_eq_ok]
  constructor
  · rintro ⟨f, hf, rest, hrest, h⟩
    cases h
    exact ⟨f, rest, hf, hrest, rfl⟩
  · rintro ⟨f, rest, hf, hrest, rfl⟩
    exact ⟨f, hf, rest, hrest, rfl⟩

theorem isEmpty_of_children_eq_ok {cs : List Widget} {fs : List Fragment}
    (h : e.children levels cs = .ok fs) : fs.isEmpty = cs.isEmpty := by
  cases cs with
  | nil => cases h; rfl
  | cons c cs =>
      obtain ⟨_, _, _, _, rfl⟩ := children_cons_eq_ok.mp h
      rfl

theorem widget_eq_reference {entry : Entry} {w : Widget} (h : e.matchPattern? w = some entry) :
    e.widget (levels + 1) w = e.reference entry w := by
  obtain ⟨t, ps, cs⟩ := w
  simp only [Encoder.widget, h]

theorem widget_in_full {t : String} {ps : List Property} {cs : List Widget} {f : Fragment}
    (h : e.matchPattern? ⟨t, ps, cs⟩ = none) :
    e.widget (levels + 1) ⟨t, ps, cs⟩ = .ok f ↔
      ∃ code properties children,
        e.typeCode t = .ok code ∧ e.properties levels ps = .ok properties ∧
        e.children levels cs = .ok children ∧ f = fullText code properties children := by
  simp only [Encoder.widget, h, bind_eq_ok]
  constructor
  · rintro ⟨code, hcode, properties, hps, children, hcs, h⟩
    refine ⟨code, properties, children, hcode, hps, hcs, ?_⟩
    rw [fullText, isEmpty_of_children_eq_ok hcs]
    cases hempty : cs.isEmpty with
    | true => rw [hempty, if_pos rfl] at h; cases h; rfl
    | false => rw [hempty, if_neg Bool.false_ne_true] at h; cases h; rfl
  · rintro ⟨code, properties, children, hcode, hps, hcs, rfl⟩
    refine ⟨code, hcode, properties, hps, children, hcs, ?_⟩
    rw [fullText, isEmpty_of_children_eq_ok hcs]
    cases cs.isEmpty with
    | true => rfl
    | false => rfl

/-! ## Putting it together -/

mutual

theorem reads_widget (hu : Understands d.toDecoder e stand) :
    (w : Widget) → {levels : Nat} → {f : Fragment} → e.widget levels w = .ok f →
      Reads (d.widget levels) endsValue f.text (e.echoWidget stand w) ∧ WidgetHead f.text
  | ⟨t, ps, cs⟩, 0, f, h => by cases h
  | ⟨t, ps, cs⟩, levels + 1, f, h => by
      obtain ⟨readList, hvalue⟩ := value_eq_valueWith d levels
      rw [widget_succ]
      cases hmatch : e.matchPattern? ⟨t, ps, cs⟩ with
      | some entry =>
          rw [widget_eq_reference hmatch] at h
          rw [Encoder.echoWidget, hmatch, hvalue]
          exact reads_reference hu hmatch h
      | none =>
          obtain ⟨code, properties, children, hcode, hps, hcs, rfl⟩ := (widget_in_full hmatch).mp h
          rw [Encoder.echoWidget, hmatch]
          refine ⟨?_, widgetHead_fullText hu.tables hcode properties children⟩
          exact reads_fullWidget hu hcode (readsAll_properties hu ps hps)
            (readsAll_children hu cs hcs)

theorem readsAll_properties (hu : Understands d.toDecoder e stand) :
    (ps : List Property) → {levels : Nat} → {fs : List Fragment} → e.properties levels ps = .ok fs →
      ReadsAll (d.property (d.value levels)) endsValue startsCode fs (e.echoProperties stand ps)
  | [], levels, fs, h => by cases h; exact .nil
  | ⟨key, v⟩ :: ps, levels, fs, h => by
      obtain ⟨code, f, rest, hcode, hf, hrest, rfl⟩ := properties_cons_eq_ok.mp h
      obtain ⟨hv, hstart⟩ := reads_value hu v hf
      refine .cons ⟨?_, ?_⟩ (readsAll_properties hu ps hrest)
      · rw [Fragment.text_append, Fragment.text_ofText, List.append_assoc, List.singleton_append]
        exact reads_property hu hcode hv hstart
      · exact ((starts_of_propertyKey hu.tables hcode).append _).append _

theorem readsAll_children (hu : Understands d.toDecoder e stand) :
    (cs : List Widget) → {levels : Nat} → {fs : List Fragment} → e.children levels cs = .ok fs →
      ReadsAll (Decoding.child (d.widget levels)) endsValue startsWidget fs
        (e.echoChildren stand cs)
  | [], levels, fs, h => by cases h; exact .nil
  | c :: cs, levels, fs, h => by
      obtain ⟨f, rest, hf, hrest, rfl⟩ := children_cons_eq_ok.mp h
      obtain ⟨hc, hhead⟩ := reads_widget hu c hf
      exact .cons ⟨reads_child hc, hhead.starts⟩ (readsAll_children hu cs hrest)

theorem reads_value (hu : Understands d.toDecoder e stand) :
    (v : Value) → {levels : Nat} → {f : Fragment} → e.value levels v = .ok f →
      Reads (d.value levels) endsValue f.text (e.echoValue stand v) ∧ Starts startsValue f.text
  | .scalar s, levels, f, h => by
      obtain ⟨chars, hchars, rfl⟩ := map_eq_ok.mp h
      obtain ⟨readList, hvalue⟩ := value_eq_valueWith d levels
      rw [hvalue]
      exact ⟨reads_scalar hu.symbols hu.tables hchars, starts_of_scalar hchars⟩
  | .widget w, levels, f, h => by
      obtain ⟨hw, hhead⟩ := reads_widget hu w h
      obtain ⟨readList, hvalue⟩ := value_eq_valueWith d levels
      rw [hvalue]
      exact ⟨reads_widgetValue hw hhead, hhead.starts.mono fun _ => startsValue_of_startsWidget⟩
  | .list vs, 0, f, h => by cases h
  | .list vs, levels + 1, f, h => by
      obtain ⟨texts, htexts, h⟩ := bind_eq_ok.mp h
      cases h
      rw [value_succ]
      exact ⟨reads_listValue (readsAll_items hu vs htexts), rfl⟩

theorem readsAll_items (hu : Understands d.toDecoder e stand) :
    (vs : List Value) → {levels : Nat} → {fs : List Fragment} → e.items levels vs = .ok fs →
      ReadsAll (d.value levels) endsValue startsValue fs (e.echoItems stand vs)
  | [], levels, fs, h => by cases h; exact .nil
  | v :: vs, levels, fs, h => by
      obtain ⟨f, rest, hf, hrest, rfl⟩ := items_cons_eq_ok.mp h
      exact .cons (reads_value hu v hf) (readsAll_items hu vs hrest)

end

end

end WidgetShorthand
