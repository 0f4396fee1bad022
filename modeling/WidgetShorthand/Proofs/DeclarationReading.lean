import WidgetShorthand.Proofs.WidgetReading

/-!
# Declarations are read back

Types, and what is declared with them. The parts of a declaration that may be missing begin with a
mark when they are there, and no such mark begins what stands behind; so every reader sees at once
whether its part is missing. Between declarations the writer may put line ends, and only there.

Depth is counted anew from every type and every value, so nothing but the lists of type arguments
needs an induction here.
-/

namespace WidgetShorthand

open Text Reader

variable {d : Decoding} {e : Encoder} {stand : Entry → Widget → Widget} {levels : Nat}

/-! ## Types -/

theorem solid_of_endsType {rest : List Char} (h : endsType rest) : Follows isSolid rest :=
  h.widen (by decide)

theorem reads_plainType (hu : Understands d.toDecoder e stand) {name : String} {code : List Char}
    {args : Reader (List TypeRef)} (h : e.typeCode name = .ok code) :
    Reads (d.typeRefWith args) endsType code ⟨name, []⟩ := by
  intro before rest o hb hr
  refine (reads_typeCode hu h hb (hr.widen (by decide))).bind ?_
  refine (runs_next (dropBlanks_of_follows (solid_of_endsType hr))).bind ?_
  rw [if_neg (ne_head_of_follows hr (by decide))]
  exact runs_pure

theorem separates_types : Separates endsType startsCode ',' [] :=
  separates_bare (fun _ => isSolid_of_startsCode) (fun _ => solid_of_endsType) fun _ => rfl

theorem reads_typeWithArgs (hu : Understands d.toDecoder e stand) {name : String}
    {code : List Char} {readType : Reader TypeRef} {parts : List Fragment} {ts : List TypeRef}
    (h : e.typeCode name = .ok code) (hparts : parts ≠ [])
    (hts : ReadsAll readType endsType startsCode parts ts) :
    Reads (d.typeRefWith (d.typeArgs readType)) endsType
      (Fragment.enclose (code ++ ['<']) (.join [','] parts) ['>']).text ⟨name, ts⟩ := by
  intro before rest o hb _
  rw [enclose_append, List.append_assoc, List.singleton_append] at hb
  have hsep := separates_types
  have hbody := hts.dropBlanks_join hsep.first (show Follows isSolid ('>' :: rest) from rfl) [',']
  have hargs : Runs (d.typeArgs readType)
      ⟨'<' :: ((Fragment.join [','] parts).text ++ '>' :: rest), o⟩ ts ⟨rest, o⟩ := by
    refine (runs_openBracket rfl).bind ?_
    refine (runs_separated hsep hts hparts hbody rfl (by simp)).bind ?_
    exact (runs_closeBracket rfl).bind runs_pure
  refine (reads_typeCode hu h hb rfl).bind ((runs_next (dropBlanks_cons (by decide) _)).bind ?_)
  rw [List.head?_cons, if_pos rfl]
  exact hargs.bind runs_pure

theorem typeRef_eq_typeRefWith (d : Decoding) (levels : Nat) :
    ∃ args, d.typeRef levels = d.typeRefWith args := by
  cases levels with
  | zero => exact ⟨_, rfl⟩
  | succ levels => exact ⟨_, rfl⟩

theorem typeRefs_cons_eq_ok {t : TypeRef} {ts : List TypeRef} {fs : List Fragment} :
    e.typeRefs levels (t :: ts) = .ok fs ↔
      ∃ f rest, e.typeRef levels t = .ok f ∧ e.typeRefs levels ts = .ok rest ∧
        fs = f :: rest := by
  simp only [Encoder.typeRefs, bind_eq_ok]
  constructor
  · rintro ⟨f, hf, rest, hrest, h⟩
    cases h
    exact ⟨f, rest, hf, hrest, rfl⟩
  · rintro ⟨f, rest, hf, hrest, rfl⟩
    exact ⟨f, hf, rest, hrest, rfl⟩

mutual

theorem reads_typeRef (hu : Understands d.toDecoder e stand) :
    (t : TypeRef) → {levels : Nat} → {f : Fragment} → e.typeRef levels t = .ok f →
      Reads (d.typeRef levels) endsType f.text t ∧ Starts startsCode f.text
  | ⟨name, []⟩, levels, f, h => by
      rw [Encoder.typeRef] at h
      obtain ⟨code, hcode, rfl⟩ := map_eq_ok.mp h
      obtain ⟨args, htype⟩ := typeRef_eq_typeRefWith d levels
      rw [htype]
      exact ⟨reads_plainType hu hcode, starts_of_code hu.tables.types hcode⟩
  | ⟨name, arg :: args⟩, levels, f, h => by
      rw [Encoder.typeRef] at h
      obtain ⟨code, hcode, h⟩ := bind_eq_ok.mp h
      cases levels with
      | zero => cases h
      | succ levels =>
          obtain ⟨texts, htexts, h⟩ := bind_eq_ok.mp h
          cases h
          have hargs := readsAll_typeRefs hu (arg :: args) htexts
          have hne : texts ≠ [] := by
            rintro rfl
            cases hargs
          refine ⟨reads_typeWithArgs hu hcode hne hargs, ?_⟩
          exact ((starts_of_code hu.tables.types hcode).append _).append _

theorem readsAll_typeRefs (hu : Understands d.toDecoder e stand) :
    (ts : List TypeRef) → {levels : Nat} → {fs : List Fragment} → e.typeRefs levels ts = .ok fs →
      ReadsAll (d.typeRef levels) endsType startsCode fs ts
  | [], levels, fs, h => by cases h; exact .nil
  | t :: ts, levels, fs, h => by
      obtain ⟨f, rest, hf, hrest, rfl⟩ := typeRefs_cons_eq_ok.mp h
      exact .cons (reads_typeRef hu t hf) (readsAll_typeRefs hu ts hrest)

end

/-! ## Parts that may be missing -/

section optional

variable {α : Type} {mark : Char} {write : α → Except EncodeError Fragment} {x : Option α}
  {f : Fragment} {rest : List Char}

theorem optional_eq_ok (h : Encoder.optional mark write x = .ok f) :
    (x = none ∧ f = .ofText []) ∨
      ∃ y g, x = some y ∧ write y = .ok g ∧ f = .ofText [mark] ++ g := by
  cases x with
  | none => cases h; exact .inl ⟨rfl, rfl⟩
  | some y =>
      obtain ⟨g, hg, rfl⟩ := map_eq_ok.mp h
      exact .inr ⟨y, g, rfl, hg, rfl⟩

/-- What may stand behind the missing part and the mark may both stand before the part. -/
theorem follows_optional (h : Encoder.optional mark write x = .ok f) {ok : Char → Bool}
    (hmark : ok mark = true) (hr : Follows ok rest) : Follows ok (f.text ++ rest) := by
  rcases optional_eq_ok h with ⟨_, rfl⟩ | ⟨_, _, _, _, rfl⟩
  · exact hr
  · exact hmark

end optional

theorem reads_declaredType (hu : Understands d.toDecoder e stand) {t : Option TypeRef}
    {f : Fragment} (h : e.declaredType t = .ok f) : Reads d.declaredType endsType f.text t := by
  intro before rest o hb hr
  rcases optional_eq_ok h with ⟨rfl, rfl⟩ | ⟨u, g, rfl, hg, rfl⟩
  · exact (runs_eat_other hb (ne_head_of_follows hr (by decide))).bind runs_pure
  · obtain ⟨hread, hstart⟩ := reads_typeRef hu u hg
    rw [← hu.depth] at hread
    have hsolid := dropBlanks_append_of_starts (hstart.mono fun _ => isSolid_of_startsCode) rest
    exact (runs_eat hb).bind ((hread hsolid hr).bind runs_pure)

/-- What may stand behind a field. -/
abbrev endsField : List Char → Prop :=
  Follows (among [',', ';'])

theorem reads_initializer (hu : Understands d.toDecoder e stand) {v : Option Value} {f : Fragment}
    (h : Encoder.optional '=' (e.value e.options.maxDepth) v = .ok f) :
    Reads d.initializer endsField f.text (v.map (e.echoValue stand)) := by
  intro before rest o hb hr
  rcases optional_eq_ok h with ⟨rfl, rfl⟩ | ⟨u, g, rfl, hg, rfl⟩
  · exact (runs_eat_other hb (ne_head_of_follows hr (by decide))).bind runs_pure
  · obtain ⟨hread, hstart⟩ := reads_value hu u hg
    rw [← hu.depth] at hread
    have hsolid := dropBlanks_append_of_starts (hstart.mono fun _ => isSolid_of_startsValue) rest
    have hends : endsValue rest := hr.widen (by decide)
    exact (runs_eat hb).bind ((hread hsolid hends).bind runs_pure)

/-! ## Keywords in front -/

theorem starts_of_keywords {words : List String} {f : Fragment} (h : e.keywords words = .ok f)
    (hne : words ≠ []) : Starts (· == '%') f.text := by
  obtain ⟨codes, hcodes, rfl⟩ := map_eq_ok.mp h
  cases forall₂_of_mapM hcodes with
  | nil => exact absurd rfl hne
  | cons hword _ =>
      obtain ⟨_, _, rfl⟩ := keyword_eq_ok hword
      rfl

theorem keywords_nil {f : Fragment} (h : e.keywords [] = .ok f) : f.text = [] := by
  cases h
  rfl

theorem starts_keywords_append {words : List String} {f : Fragment} (h : e.keywords words = .ok f)
    {first : Char → Bool} (hmark : first '%' = true) {text : List Char} (ht : Starts first text) :
    Starts first (f.text ++ text) := by
  by_cases hne : words = []
  · subst hne
    rwa [keywords_nil h]
  · obtain ⟨c, r, hf, hc⟩ := (starts_of_keywords h hne).exists_cons
    rw [hf]
    cases beq_iff_eq.mp hc
    exact hmark

/-- What a field or a method begins with. -/
def startsDeclaration (c : Char) : Bool :=
  c == '%' || isNameStart c

theorem isSolid_of_startsDeclaration {c : Char} (h : startsDeclaration c = true) :
    isSolid c = true := by
  simp only [startsDeclaration, Bool.or_eq_true, beq_iff_eq] at h
  rcases h with rfl | h
  · decide
  · exact isSolid_of_isNameChar (isNameChar_of_isNameStart h)

theorem endsKeywords_of_isNameStart {c : Char} (h : isNameStart c = true) :
    endsKeywords c = true := by
  rw [endsKeywords, isSolid_of_isNameChar (isNameChar_of_isNameStart h), Bool.true_and, bne_iff_ne]
  exact ne_of_isNameStart h (by decide)

theorem starts_declaration {words : List String} {f : Fragment} (h : e.keywords words = .ok f)
    {name : String} (hname : isIdentifier name = true) (rest : List Char) :
    Starts startsDeclaration (f.text ++ (name.toList ++ rest)) := by
  refine starts_keywords_append h rfl ?_
  refine ((starts_of_isIdentifier hname).append rest).mono fun c hc => ?_
  simp [startsDeclaration, hc]

/-- Fields and methods begin with keywords and a name. -/
theorem leads_declaration (hu : Understands d.toDecoder e stand) {words : List String}
    {f : Fragment} (h : e.keywords words = .ok f) {name : String} (hid : isIdentifier name = true)
    {α : Type} {behind : List String → String → Reader α} {before rest : List Char}
    {o : List OpenBracket} (hb : dropBlanks before = f.text ++ (name.toList ++ rest))
    (hr : Follows endsName rest) :
    Leads (d.modifiers >>= fun words => identifier d.size >>= behind words) ⟨before, o⟩
      (behind words name) ⟨rest, o⟩ := by
  have hnamed := (starts_of_isIdentifier hid).follows rest
  have hsolid := hnamed.mono fun _ hc => isSolid_of_isNameChar (isNameChar_of_isNameStart hc)
  refine (reads_modifiers hu.symbols hu.tables h hb
    (hnamed.mono fun _ => endsKeywords_of_isNameStart)).leads ?_
  exact (reads_identifier hid (dropBlanks_of_follows hsolid) hr).leads (.refl _ _)

/-! ## Fields and parameters -/

/-- Behind its keywords and its name, what is left of a field are its type and its value. -/
theorem leads_field (hu : Understands d.toDecoder e stand) {words : List String} {name : String}
    {modifiers type init : Fragment} (h : e.keywords words = .ok modifiers)
    (hid : isIdentifier name = true) {before rest : List Char} {o : List OpenBracket}
    (hb : dropBlanks before =
      (modifiers ++ (Fragment.ofText name.toList ++ (type ++ init))).text ++ rest)
    (hr : Follows endsName (type.text ++ (init.text ++ rest))) :
    Leads d.field ⟨before, o⟩
      (do
        let typeRef ← d.declaredType
        let initializer ← d.initializer
        return ⟨words, name, typeRef, initializer⟩)
      ⟨type.text ++ (init.text ++ rest), o⟩ := by
  simp only [Fragment.text_append, Fragment.text_ofText, List.append_assoc] at hb
  exact leads_declaration hu h hid hb hr

theorem reads_field (hu : Understands d.toDecoder e stand) {x : Field} {f : Fragment}
    (h : e.field x = .ok f) :
    Reads d.field endsField f.text (e.echoField stand x) ∧ Starts startsDeclaration f.text := by
  obtain ⟨modifiers, hmodifiers, h⟩ := bind_eq_ok.mp h
  obtain ⟨name, hname, h⟩ := bind_eq_ok.mp h
  obtain ⟨type, htype, h⟩ := bind_eq_ok.mp h
  obtain ⟨init, hinit, h⟩ := bind_eq_ok.mp h
  cases h
  obtain ⟨hid, rfl⟩ := identifier_eq_ok hname
  constructor
  · intro before rest o hb hr
    have hbehind : Follows (among ['=', ',', ';']) (init.text ++ rest) :=
      follows_optional hinit (by decide) (hr.widen (by decide))
    have hbehind' : Follows (among [':', '=', ',', ';']) (type.text ++ (init.text ++ rest)) :=
      follows_optional htype (by decide) (hbehind.widen (by decide))
    refine (leads_field hu hmodifiers hid hb (hbehind'.widen (by decide))).runs ?_
    refine (reads_declaredType hu htype
      (dropBlanks_of_follows (hbehind'.widen (by decide)))
      (hbehind.widen (by decide))).bind ?_
    refine (reads_initializer hu hinit
      (dropBlanks_of_follows (hbehind.widen (by decide))) hr).bind ?_
    exact runs_pure
  · simp only [Fragment.text_append, Fragment.text_ofText]
    exact starts_declaration hmodifiers hid _

/-- What may stand behind a parameter. -/
abbrev endsParam : List Char → Prop :=
  Follows (among [',', ')'])

theorem reads_param (hu : Understands d.toDecoder e stand) {x : Param} {f : Fragment}
    (h : e.param x = .ok f) : Reads d.param endsParam f.text x ∧ Starts isNameStart f.text := by
  obtain ⟨name, hname, h⟩ := bind_eq_ok.mp h
  obtain ⟨type, htype, h⟩ := bind_eq_ok.mp h
  cases h
  obtain ⟨hid, rfl⟩ := identifier_eq_ok hname
  refine ⟨fun before rest o hb hr => ?_, (starts_of_isIdentifier hid).append _⟩
  rw [Fragment.text_append, Fragment.text_ofText, List.append_assoc] at hb
  have hbehind : Follows (among [':', ',', ')']) (type.text ++ rest) :=
    follows_optional htype (by decide) (hr.widen (by decide))
  refine (reads_identifier hid hb (hbehind.widen (by decide))).bind ?_
  refine (reads_declaredType hu htype
    (dropBlanks_of_follows (hbehind.widen (by decide)))
    (hr.widen (by decide))).bind ?_
  exact runs_pure

/-! ## Statements -/

/-- What stands behind a statement; a statement without a value needs it to be there. -/
abbrev endsStatement : List Char → Prop :=
  Starts (among [';', '\x7d'])

/-- What a statement begins with. -/
def startsStatement (c : Char) : Bool :=
  c == '%' || startsValue c

theorem isSolid_of_startsStatement {c : Char} (h : startsStatement c = true) :
    isSolid c = true := by
  simp only [startsStatement, Bool.or_eq_true, beq_iff_eq] at h
  rcases h with rfl | h
  · decide
  · exact isSolid_of_startsValue h

theorem endsKeywords_of_startsValue {c : Char} (h : startsValue c = true) :
    endsKeywords c = true := by
  have hne : c ≠ '%' := by
    rintro rfl
    exact absurd h (by decide)
  rw [endsKeywords, isSolid_of_startsValue h, Bool.true_and, bne_iff_ne]
  exact hne

theorem reads_statementValue (hu : Understands d.toDecoder e stand) {v : Option Value}
    {f : Fragment} (h : e.statementValue v = .ok f) :
    Reads d.statementValue endsStatement f.text (v.map (e.echoValue stand)) := by
  intro before rest o hb hr
  obtain ⟨c, r, hrest, hc⟩ := hr.exists_cons
  refine (runs_next hb).bind ?_
  cases v with
  | none =>
      cases h
      subst hrest
      have hends : c = ';' ∨ c = '\x7d' := by simpa [among] using hc
      rcases hends with rfl | rfl <;> exact runs_pure
  | some v =>
      obtain ⟨hread, hstart⟩ := reads_value hu v h
      rw [← hu.depth] at hread
      have hends : endsValue rest := by
        rw [hrest]
        exact of_among (p := among [',', ';', '|', '\x7d', ']', ')']) (by decide) hc
      split
      · next heq => exact absurd heq (ne_head_of_follows (hstart.follows rest) (by decide))
      · next heq => exact absurd heq (ne_head_of_follows (hstart.follows rest) (by decide))
      · exact (hread (dropBlanks_of_eq hb) hends).bind runs_pure

theorem follows_statementValue (hu : Understands d.toDecoder e stand) {v : Option Value}
    {f : Fragment} (h : e.statementValue v = .ok f) {rest : List Char} (hr : endsStatement rest) :
    Follows endsKeywords (f.text ++ rest) := by
  cases v with
  | none =>
      cases h
      obtain ⟨c, r, rfl, hc⟩ := hr.exists_cons
      exact of_among (by decide) hc
  | some v =>
      have hstart := (reads_value hu v h).2
      exact (hstart.follows rest).mono fun _ => endsKeywords_of_startsValue

theorem reads_statement (hu : Understands d.toDecoder e stand) {x : Statement} {f : Fragment}
    (h : e.statement x = .ok f) :
    Reads d.statement endsStatement f.text (e.echoStatement stand x) ∧
      Starts startsStatement f.text := by
  obtain ⟨words, v⟩ := x
  rw [Encoder.statement] at h
  split at h
  · cases h
  · next hfull =>
      obtain ⟨keywords, hkeywords, h⟩ := bind_eq_ok.mp h
      obtain ⟨value, hvalue, h⟩ := bind_eq_ok.mp h
      cases h
      rw [Fragment.text_append]
      constructor
      · intro before rest o hb hr
        rw [List.append_assoc] at hb
        have hbehind := follows_statementValue hu hvalue hr
        have hsolid := hbehind.mono fun c hc => (Bool.and_eq_true _ _ ▸ hc : _ ∧ _).1
        refine (reads_modifiers hu.symbols hu.tables hkeywords hb hbehind).bind ?_
        refine (reads_statementValue hu hvalue (dropBlanks_of_follows hsolid) hr).bind ?_
        rw [Option.isNone_map, if_neg hfull]
        exact runs_pure
      · by_cases hwords : words = []
        · subst hwords
          cases v with
          | none => simp at hfull
          | some v =>
              refine starts_keywords_append hkeywords rfl ?_
              refine (reads_value hu v hvalue).2.mono fun c hc => ?_
              rw [startsStatement, hc, Bool.or_true]
        · refine ((starts_of_keywords hkeywords hwords).append _).mono fun c hc => ?_
          rw [startsStatement, hc, Bool.true_or]

theorem separates_statements : Separates endsStatement startsStatement ';' [] := by
  refine separates_bare (fun _ => isSolid_of_startsStatement) (fun _ hr => ?_) fun _ => rfl
  obtain ⟨c, r, rfl, hc⟩ := hr.exists_cons
  exact of_among (by decide) hc

/-! ## Methods -/

theorem reads_methodBody (hu : Understands d.toDecoder e stand) {b : MethodBody} {f : Fragment}
    (h : e.methodBody b = .ok f) :
    Reads d.methodBody endsValue f.text (e.echoBody stand b) ∧
      Starts (among ['=', '\x7b']) f.text := by
  cases b with
  | widget w =>
      obtain ⟨g, hg, rfl⟩ := map_eq_ok.mp h
      obtain ⟨hread, hhead⟩ := reads_widget hu w hg
      rw [← hu.depth] at hread
      refine ⟨fun before rest o hb hr => ?_, rfl⟩
      have hsolid := hhead.starts.mono fun _ => isSolid_of_startsWidget
      refine (runs_next hb).bind (runs_advance.bind ?_)
      exact (hread (dropBlanks_append_of_starts hsolid rest) hr).bind runs_pure
  | statements block =>
      obtain ⟨texts, htexts, rfl⟩ := map_eq_ok.mp h
      have hblock := ReadsAll.of_mapM htexts fun x f => reads_statement hu (x := x) (f := f)
      have hsep := separates_statements
      refine ⟨fun before rest o hb hr => ?_, rfl⟩
      rw [enclose_append, List.singleton_append] at hb
      have hbody :=
        hblock.dropBlanks_join hsep.first (show Follows isSolid ('\x7d' :: rest) from rfl)
        [';']
      have hstatements : Runs d.statements
          ⟨'\x7b' :: ((Fragment.join [';'] texts).text ++ '\x7d' :: rest), o⟩
          (block.map (e.echoStatement stand)) ⟨rest, o⟩ := by
        refine (runs_openBracket rfl).bind ?_
        refine (runs_separatedUntil hsep hblock hbody rfl (by decide) (by decide)).bind ?_
        exact (runs_closeBracket rfl).bind runs_pure
      refine (runs_next hb).bind ?_
      rw [List.head?_cons]
      exact hstatements.bind runs_pure

theorem separates_params : Separates endsParam isNameStart ',' [] :=
  separates_bare (fun _ hc => isSolid_of_isNameChar (isNameChar_of_isNameStart hc))
    (fun _ hr => hr.widen (by decide)) fun _ => rfl

theorem runs_params (hu : Understands d.toDecoder e stand) {xs : List Param}
    {texts : List Fragment} (h : xs.mapM e.param = .ok texts) {rest : List Char}
    {o : List OpenBracket} :
    Runs d.params ⟨'(' :: ((Fragment.join [','] texts).text ++ ')' :: rest), o⟩ xs ⟨rest, o⟩ := by
  have hxs : ReadsAll d.param endsParam isNameStart texts (xs.map id) :=
    ReadsAll.of_mapM h fun x f => reads_param hu (x := x) (f := f)
  rw [List.map_id] at hxs
  have hsep := separates_params
  have hbody := hxs.dropBlanks_join hsep.first (show Follows isSolid (')' :: rest) from rfl) [',']
  refine (runs_openBracket rfl).bind ?_
  refine (runs_separatedUntil hsep hxs hbody rfl (by decide) (by decide)).bind ?_
  exact (runs_closeBracket rfl).bind runs_pure

/-- A method's text by its parts, in the order in which they are read. -/
theorem text_method (modifiers params type body : Fragment) (name rest : List Char) :
    (modifiers ++ (Fragment.enclose (name ++ ['(']) params [')'] ++ (type ++ body))).text ++ rest =
      modifiers.text ++ (name ++ '(' :: (params.text ++ ')' ::
        (type.text ++ (body.text ++ rest)))) := by
  simp [Fragment.enclose]

/-- Behind its keywords and its name, what is left of a method are its parameters, its type and its
body. -/
theorem leads_method (hu : Understands d.toDecoder e stand) {words : List String} {name : String}
    {modifiers params type body : Fragment} (h : e.keywords words = .ok modifiers)
    (hid : isIdentifier name = true) {before rest : List Char} {o : List OpenBracket}
    (hb : dropBlanks before = (modifiers ++ (Fragment.enclose (name.toList ++ ['(']) params [')'] ++
      (type ++ body))).text ++ rest) :
    Leads d.method ⟨before, o⟩
      (do
        let params ← d.params
        let returnType ← d.declaredType
        let body ← d.methodBody
        return ⟨words, name, params, returnType, body⟩)
      ⟨'(' :: (params.text ++ ')' :: (type.text ++ (body.text ++ rest))), o⟩ := by
  rw [text_method] at hb
  exact leads_declaration hu h hid hb rfl

theorem reads_method (hu : Understands d.toDecoder e stand) {x : Method} {f : Fragment}
    (h : e.method x = .ok f) :
    Reads d.method endsValue f.text (e.echoMethod stand x) ∧ Starts startsDeclaration f.text := by
  obtain ⟨modifiers, hmodifiers, h⟩ := bind_eq_ok.mp h
  obtain ⟨name, hname, h⟩ := bind_eq_ok.mp h
  obtain ⟨params, hparams, h⟩ := bind_eq_ok.mp h
  obtain ⟨type, htype, h⟩ := bind_eq_ok.mp h
  obtain ⟨body, hbody, h⟩ := bind_eq_ok.mp h
  cases h
  obtain ⟨hid, rfl⟩ := identifier_eq_ok hname
  obtain ⟨hread, hstart⟩ := reads_methodBody hu hbody
  constructor
  · intro before rest o hb hr
    have hbehind : Follows (among ['=', '\x7b']) (body.text ++ rest) := hstart.follows rest
    have hbehind' : Follows (among [':', '=', '\x7b']) (type.text ++ (body.text ++ rest)) :=
      follows_optional htype (by decide) (hbehind.widen (by decide))
    refine (leads_method hu hmodifiers hid hb).runs ((runs_params hu hparams).bind ?_)
    refine (reads_declaredType hu htype
      (dropBlanks_of_follows (hbehind'.widen (by decide)))
      (hbehind.widen (by decide))).bind ?_
    refine (hread (dropBlanks_of_follows (hbehind.widen (by decide))) hr).bind ?_
    exact runs_pure
  · rw [← List.append_nil (Fragment.text _), text_method]
    exact starts_declaration hmodifiers hid _

/-! ## Classes -/

theorem isBlank_of_mem_layout (e : Encoder) : ∀ c ∈ e.layout, isBlank c = true := by
  unfold Encoder.layout
  split
  · nofun
  · rw [List.forall_mem_singleton]
    rfl

theorem reads_superType (hu : Understands d.toDecoder e stand) {t : Option TypeRef} {f : Fragment}
    (h : e.superType t = .ok f) : Reads d.superType (Follows (· == ';')) f.text t := by
  intro before rest o hb hr
  refine (runs_next hb).bind ?_
  cases t with
  | none =>
      cases h
      have hend : rest.head? ≠ some '<' := ne_head_of_follows hr (by decide)
      rw [Fragment.text_ofText, List.nil_append, if_neg hend]
      exact runs_pure
  | some t =>
      obtain ⟨g, hg, rfl⟩ := map_eq_ok.mp h
      obtain ⟨hread, hstart⟩ := reads_typeRef hu t hg
      rw [← hu.depth] at hread
      have hsolid := hstart.mono fun _ => isSolid_of_startsCode
      rw [enclose_append, List.singleton_append, List.head?_cons, if_pos rfl]
      refine (runs_openBracket rfl).bind ?_
      have hends : endsType ('>' :: rest) := rfl
      refine (hread (dropBlanks_append_of_starts hsolid _) hends).bind ?_
      exact (runs_closeBracket rfl).bind runs_pure

theorem follows_superType {t : Option TypeRef} {f : Fragment} (h : e.superType t = .ok f)
    (rest : List Char) : Follows (among ['<', ';']) (f.text ++ ';' :: rest) := by
  cases t with
  | none => cases h; rfl
  | some t =>
      obtain ⟨g, hg, rfl⟩ := map_eq_ok.mp h
      rfl

/-- What may stand behind an item of a document. -/
abbrev endsItem : List Char → Prop :=
  Follows (among ['|'])

theorem separates_fields (e : Encoder) : Separates endsField startsDeclaration ',' e.layout :=
  ⟨isBlank_of_mem_layout e, fun _ => isSolid_of_startsDeclaration,
    fun _ hr => hr.widen (by decide), fun _ => rfl⟩

theorem separates_methods (e : Encoder) : Separates endsValue startsDeclaration ',' e.layout :=
  ⟨isBlank_of_mem_layout e, fun _ => isSolid_of_startsDeclaration, fun _ => solid_of_endsValue,
    fun _ => rfl⟩

/-- Layout in front of a list is skipped, also where the list is empty. -/
theorem dropBlanks_layout_join {α : Type} {r : Reader α} {ok : List Char → Prop}
    {first : Char → Bool} {parts : List Fragment} {xs : List α} {rest : List Char}
    (e : Encoder) (h : ReadsAll r ok first parts xs)
    (hfirst : ∀ c, first c = true → isSolid c = true) (hr : Follows isSolid rest) :
    dropBlanks (e.layout ++ ((Fragment.join (',' :: e.layout) parts).text ++ rest)) =
      (Fragment.join (',' :: e.layout) parts).text ++ rest := by
  rw [dropBlanks_append_of_all (isBlank_of_mem_layout e)]
  exact h.dropBlanks_join hfirst hr _

/-- The fields of a class with the layout in front of them, up to the semicolon behind them. -/
theorem runs_fields (hu : Understands d.toDecoder e stand) {xs : List Field} {parts : List Fragment}
    (h : xs.mapM e.field = .ok parts) (back : List Char) {o : List OpenBracket} :
    Runs (separatedUnless (· == some ';') ',' d.field)
      ⟨e.layout ++ ((Fragment.join (',' :: e.layout) parts).text ++ ';' :: back), o⟩
      (xs.map (e.echoField stand)) ⟨';' :: back, o⟩ := by
  have hxs := ReadsAll.of_mapM h fun x f => reads_field hu (x := x) (f := f)
  have hbehind := dropBlanks_layout_join e hxs (separates_fields e).first
    (show Follows isSolid (';' :: back) from rfl)
  exact runs_separatedUntil (separates_fields e) hxs hbehind rfl (by decide) (by decide)

theorem not_endsMethods_of_startsDeclaration {c : Char} (h : startsDeclaration c = true) :
    (some c == none || some c == some '|') = false := by
  have hbar : c ≠ '|' := by
    rintro rfl
    exact absurd h (by decide)
  simpa using hbar

/-- The methods of a class, up to the end of the class. -/
theorem runs_methods (hu : Understands d.toDecoder e stand) {xs : List Method}
    {parts : List Fragment} (h : xs.mapM e.method = .ok parts) {rest : List Char}
    {o : List OpenBracket} (hr : endsItem rest) :
    Runs (separatedUnless (fun c => c == none || c == some '|') ',' d.method)
      ⟨e.layout ++ ((Fragment.join (',' :: e.layout) parts).text ++ rest), o⟩
      (xs.map (e.echoMethod stand)) ⟨rest, o⟩ := by
  have hxs := ReadsAll.of_mapM h fun x f => reads_method hu (x := x) (f := f)
  have hbehind := dropBlanks_layout_join e hxs (separates_methods e).first (hr.widen (by decide))
  refine runs_separatedUnless (separates_methods e) hxs hbehind (hr.widen (by decide))
    (ne_head_of_follows hr (by decide)) (fun _ => not_endsMethods_of_startsDeclaration) ?_
  cases rest with
  | nil => rfl
  | cons c r =>
      have hbar : c = '|' := by simpa [among] using hr
      simp [hbar]

/-- A class's text by its parts, in the order in which they are read. -/
theorem text_classDecl (e : Encoder) (name : List Char) (superType fields methods : Fragment)
    (rest : List Char) :
    (Fragment.ofText ('c' :: ':' :: name) ++ (superType ++ (.ofText (';' :: e.layout) ++ (fields ++
      (.ofText (';' :: e.layout) ++ methods))))).text ++ rest =
      'c' :: ':' :: (name ++ (superType.text ++ ';' :: (e.layout ++ (fields.text ++ ';' ::
        (e.layout ++ (methods.text ++ rest)))))) := by
  simp

/-- Behind its name, what is left of a class are its supertype, its fields and its methods. -/
theorem leads_classDecl {name : String} {t : Option TypeRef} {superType : Fragment}
    (hid : isIdentifier name = true) (h : e.superType t = .ok superType) (back : List Char)
    {o : List OpenBracket} :
    Leads d.classDecl ⟨name.toList ++ (superType.text ++ ';' :: back), o⟩
      (do
        let superType ← d.superType
        expect d.size ';'
        let fields ← separatedUnless (· == some ';') ',' d.field
        expect d.size ';'
        let methods ← separatedUnless (fun c => c == none || c == some '|') ',' d.method
        return ⟨name, superType, fields, methods⟩)
      ⟨superType.text ++ ';' :: back, o⟩ := by
  have hname := dropBlanks_append_of_starts
    (starts_isSolid_of_isNameStart (starts_of_isIdentifier hid)) (superType.text ++ ';' :: back)
  have hbehind := follows_superType h back
  exact (reads_identifier hid hname (hbehind.widen (by decide))).leads (.refl _ _)

/-- A class behind its header. -/
theorem runs_classDecl (hu : Understands d.toDecoder e stand) {x : ClassDecl} {f : Fragment}
    (h : e.classDecl x = .ok f) :
    ∃ tail, f.text = 'c' :: ':' :: tail ∧ Starts isSolid tail ∧
      ∀ {rest : List Char} {o : List OpenBracket}, endsItem rest →
        Runs d.classDecl ⟨tail ++ rest, o⟩ (e.echoClass stand x) ⟨rest, o⟩ := by
  obtain ⟨name, hname, h⟩ := bind_eq_ok.mp h
  obtain ⟨superType, hsuper, h⟩ := bind_eq_ok.mp h
  obtain ⟨fields, hfields, h⟩ := bind_eq_ok.mp h
  obtain ⟨methods, hmethods, h⟩ := bind_eq_ok.mp h
  cases h
  obtain ⟨hid, rfl⟩ := identifier_eq_ok hname
  refine ⟨x.name.toList ++ (superType.text ++ ';' :: (e.layout ++
    ((Fragment.join (',' :: e.layout) fields).text ++ ';' :: (e.layout ++
      (Fragment.join (',' :: e.layout) methods).text)))), by simp, ?_, ?_⟩
  · exact (starts_isSolid_of_isNameStart (starts_of_isIdentifier hid)).append _
  intro rest o hr
  simp only [List.append_assoc, List.cons_append]
  have hbehind (back : List Char) :=
    dropBlanks_of_follows ((follows_superType hsuper back).widen (by decide))
  refine (leads_classDecl hid hsuper _).runs ?_
  refine (reads_superType hu hsuper (hbehind _) rfl).bind ((runs_expect rfl).bind ?_)
  refine (runs_fields hu hfields _).bind ((runs_expect rfl).bind ?_)
  exact (runs_methods hu hmethods hr).bind runs_pure

end WidgetShorthand
