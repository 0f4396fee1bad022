import WidgetShorthand.Proofs.DeclarationReading

/-!
# Documents are read back

An item says by its first characters which form it has: a declaration has a letter and a colon in
front, and in no other item a colon follows the first name. Every item then is read back up to the
bar behind it, or up to the end.

Main statement: `decode_encode`, a document is read as the echo of its tree by every reader that
understands the writer.
-/

namespace WidgetShorthand

open Text Reader

variable {d : Decoding} {e : Encoder} {stand : Entry → Widget → Widget}

/-! ## Which form an item has -/

theorem declaration?_of_dropBlanks {before text : List Char} (h : dropBlanks before = text) :
    Decoding.declaration? before = Decoding.declaration? text := by
  simp only [Decoding.declaration?]
  rw [dropBlanks_of_eq h, h]

theorem declaration?_header (mark : Char) (hmark : isNameStart mark = true) (rest : List Char) :
    Decoding.declaration? (mark :: ':' :: rest) = some (String.ofList [mark]) := by
  have hchar := isNameChar_of_isNameStart hmark
  have hblanks : dropBlanks (mark :: ':' :: rest) = mark :: ':' :: rest :=
    dropBlanks_cons (isSolid_of_isNameChar hchar) _
  have hcolon : isNameChar ':' = false := by decide
  have hbehind : dropBlanks (':' :: rest) = ':' :: rest := dropBlanks_cons (by decide) _
  simp [Decoding.declaration?, hblanks, startsName, hmark, hchar, hcolon, hbehind]

theorem declaration?_of_not_startsName {text : List Char} (h : startsName text = false)
    (hsolid : Follows isSolid text) : Decoding.declaration? text = none := by
  simp [Decoding.declaration?, dropBlanks_of_follows hsolid, h]

theorem declaration?_widget {text : List Char} (h : WidgetHead text) (rest : List Char) :
    Decoding.declaration? (text ++ rest) = none := by
  cases h with
  | reference r => exact declaration?_of_not_startsName rfl rfl
  | marked r => exact declaration?_of_not_startsName rfl rfl
  | @named short r hid =>
      have hsolid := dropBlanks_append_of_starts
        (starts_isSolid_of_isNameStart (starts_of_isIdentifier hid)) ('\x7b' :: (r ++ rest))
      have hchars := isNameChar_of_isIdentifier hid
      have hends : Follows endsName ('\x7b' :: (r ++ rest)) := rfl
      have hbrace : dropBlanks ('\x7b' :: (r ++ rest)) = '\x7b' :: (r ++ rest) := rfl
      rw [List.append_assoc, List.cons_append]
      simp only [Decoding.declaration?, hsolid, dropWhile_append_of_follows hchars hends, hbrace]
      simp

theorem declaration?_literal {text : List Char} (h : Starts Decoding.startsLiteral text)
    (rest : List Char) : Decoding.declaration? (text ++ rest) = none := by
  obtain ⟨c, r, rfl, hc⟩ := h.exists_cons
  have hsolid := isSolid_of_startsValue (startsValue_of_startsLiteral hc)
  refine declaration?_of_not_startsName ?_ hsolid
  simp only [Decoding.startsLiteral, Bool.or_eq_true, beq_iff_eq] at hc
  rcases hc with ((rfl | rfl) | rfl) | hdigit
  · rfl
  · rfl
  · rfl
  · exact isNameStart_of_isDigit hdigit

/-! ## Items -/

theorem runs_declarationHeader {c : Char} (hc : isIdentifier (String.ofList [c]) = true)
    {before tail : List Char} {o : List OpenBracket} (hb : dropBlanks before = c :: ':' :: tail) :
    Runs d.declarationHeader ⟨before, o⟩ () ⟨tail, o⟩ := by
  have hname : dropBlanks before = (String.ofList [c]).toList ++ ':' :: tail := by
    rw [hb, String.toList_ofList]
    rfl
  exact (reads_identifier hc hname rfl).bind (runs_expect rfl)

/-- A declaration is read by what is read behind its header. -/
theorem leads_item_class {before tail : List Char} {o : List OpenBracket}
    (hb : dropBlanks before = 'c' :: ':' :: tail) :
    Leads d.item ⟨before, o⟩ (do return .classDecl (← d.classDecl)) ⟨tail, o⟩ := by
  have hdecl : Decoding.declaration? before = some "c" := by
    rw [declaration?_of_dropBlanks hb]
    exact declaration?_header 'c' rfl tail
  refine (runs_expectNow _).leads (leads_get fun _ => ?_)
  dsimp only
  rw [hdecl]
  exact (runs_declarationHeader rfl hb).leads (.refl _ _)

theorem leads_item_method {before tail : List Char} {o : List OpenBracket}
    (hb : dropBlanks before = 'm' :: ':' :: tail) :
    Leads d.item ⟨before, o⟩ (do return .method (← d.method)) ⟨tail, o⟩ := by
  have hdecl : Decoding.declaration? before = some "m" := by
    rw [declaration?_of_dropBlanks hb]
    exact declaration?_header 'm' rfl tail
  refine (runs_expectNow _).leads (leads_get fun _ => ?_)
  dsimp only
  rw [hdecl]
  exact (runs_declarationHeader rfl hb).leads (.refl _ _)

theorem leads_item_plain {before text : List Char} {o : List OpenBracket}
    (hb : dropBlanks before = text) (hdecl : Decoding.declaration? text = none) :
    Leads d.item ⟨before, o⟩ d.plainItem ⟨before, o⟩ := by
  refine (runs_expectNow _).leads (leads_get fun _ => ?_)
  dsimp only
  rw [declaration?_of_dropBlanks hb, hdecl]
  exact .refl _ _

theorem endsValue_of_endsItem {rest : List Char} (h : endsItem rest) : endsValue rest :=
  h.widen (by decide)

theorem startsLiteral_of_startsWidget {c : Char} (h : startsWidget c = true) :
    Decoding.startsLiteral c = false := by
  rw [← Bool.not_eq_true]
  intro hl
  simp only [Decoding.startsLiteral, Bool.or_eq_true, beq_iff_eq] at hl
  rcases hl with ((rfl | rfl) | rfl) | hdigit
  · exact absurd h (by decide)
  · exact absurd h (by decide)
  · exact absurd h (by decide)
  · simp only [startsWidget, isNameStart_of_isDigit hdigit, Bool.or_false, Bool.or_eq_true,
      beq_iff_eq] at h
    rcases h with rfl | rfl <;> exact absurd hdigit (by decide)

/-- An item that begins like a widget is read as a widget. -/
theorem leads_item_widget {text before rest : List Char} {o : List OpenBracket}
    (hhead : WidgetHead text) (hb : dropBlanks before = text ++ rest) :
    Leads d.item ⟨before, o⟩ (do return .widget (← d.widget d.maxDepth)) ⟨text ++ rest, o⟩ := by
  refine (leads_item_plain hb (declaration?_widget hhead rest)).trans ((runs_next hb).leads ?_)
  obtain ⟨c, r, htext, hc⟩ := (hhead.starts.append rest).exists_cons
  rw [htext, List.head?_cons, Option.any_some, startsLiteral_of_startsWidget hc,
    if_neg Bool.false_ne_true]
  exact .refl _ _

theorem reads_item (hu : Understands d.toDecoder e stand) {n : Node} {f : Fragment}
    (h : e.item n = .ok f) :
    Reads d.item endsItem f.text (e.echoItem stand n) ∧ Starts startsValue f.text := by
  cases n with
  | classDecl x =>
      obtain ⟨tail, htext, _, hruns⟩ := runs_classDecl hu h
      rw [htext]
      exact ⟨fun _ _ _ hb hr => (leads_item_class hb).runs ((hruns hr).bind runs_pure), rfl⟩
  | method x =>
      obtain ⟨g, hg, rfl⟩ := map_eq_ok.mp h
      obtain ⟨hread, hstart⟩ := reads_method hu hg
      have hsolid := hstart.mono fun _ => isSolid_of_startsDeclaration
      refine ⟨fun before rest o hb hr => (leads_item_method hb).runs (.bind ?_ runs_pure), rfl⟩
      exact hread (dropBlanks_append_of_starts hsolid rest) (endsValue_of_endsItem hr)
  | widget w =>
      obtain ⟨hread, hhead⟩ := reads_widget hu w h
      rw [← hu.depth] at hread
      refine ⟨fun before rest o hb hr => ?_, hhead.starts.mono fun _ => startsValue_of_startsWidget⟩
      refine (leads_item_widget hhead hb).runs ?_
      exact (hread (dropBlanks_of_eq hb) (endsValue_of_endsItem hr)).bind runs_pure
  | literal l =>
      obtain ⟨chars, hchars, rfl⟩ := map_eq_ok.mp h
      have hstart := starts_of_literal hchars
      refine ⟨fun before rest o hb hr => ?_, hstart.mono fun _ => startsValue_of_startsLiteral⟩
      refine (leads_item_plain hb (declaration?_literal hstart rest)).runs
        ((runs_next hb).bind ?_)
      obtain ⟨readList, hvalue⟩ := value_eq_valueWith d d.maxDepth
      have hread : Reads (d.value d.maxDepth) endsValue chars (.scalar (.literal l)) := by
        rw [hvalue]
        exact reads_literal hchars
      obtain ⟨c, r, htext, hc⟩ := (hstart.append rest).exists_cons
      rw [Fragment.text_ofText, htext, List.head?_cons, Option.any_some, if_pos hc, ← htext]
      exact (hread (dropBlanks_of_eq hb) (endsValue_of_endsItem hr)).bind runs_pure
  | unit items => cases h

theorem declaration?_item (hu : Understands d.toDecoder e stand) {n : Node} {f : Fragment}
    (h : e.item n = .ok f) : Decoding.declaration? f.text ≠ some "u" := by
  rw [← List.append_nil f.text]
  cases n with
  | classDecl x =>
      obtain ⟨tail, htext, _, _⟩ := runs_classDecl hu h
      rw [htext, List.cons_append, List.cons_append, declaration?_header 'c' rfl]
      decide
  | method x =>
      obtain ⟨g, hg, rfl⟩ := map_eq_ok.mp h
      show Decoding.declaration? ('m' :: ':' :: (g.text ++ [])) ≠ some "u"
      rw [declaration?_header 'm' rfl]
      decide
  | widget w =>
      rw [declaration?_widget (reads_widget hu w h).2]
      exact nofun
  | literal l =>
      obtain ⟨chars, hchars, rfl⟩ := map_eq_ok.mp h
      rw [Fragment.text_ofText, declaration?_literal (starts_of_literal hchars)]
      exact nofun
  | unit items => cases h

/-! ## Whole documents -/

theorem runs_document_empty : Runs d.document ⟨[], []⟩ (.unit []) ⟨[], []⟩ :=
  (runs_next rfl).bind runs_pure

/-- A text that begins with anything is read from its root on. -/
theorem leads_document {text : List Char} (hstart : Starts isSolid text) :
    Leads d.document ⟨text, []⟩ (do
        let node ← d.root
        if (← next).isSome then unexpected d.size .endOfInput else return node) ⟨text, []⟩ := by
  obtain ⟨c, r, rfl, hc⟩ := hstart.exists_cons
  exact (runs_next (dropBlanks_cons hc r)).leads (.refl _ _)

theorem leads_root_item {text : List Char} {o : List OpenBracket}
    (h : Decoding.declaration? text ≠ some "u") : Leads d.root ⟨text, o⟩ d.item ⟨text, o⟩ := by
  refine leads_get fun _ => ?_
  dsimp only
  rw [if_neg h]
  exact .refl _ _

theorem leads_root_unit {tail : List Char} {o : List OpenBracket} :
    Leads d.root ⟨'u' :: ':' :: tail, o⟩ (do return .unit (← separated '|' d.item)) ⟨tail, o⟩ := by
  refine leads_get fun _ => ?_
  dsimp only
  rw [if_pos (declaration?_header 'u' rfl tail)]
  exact (runs_declarationHeader rfl rfl).leads (.refl _ _)

theorem runs_document {n : Node} {text : List Char} (hstart : Starts isSolid text)
    (h : Runs d.root ⟨text, []⟩ n ⟨[], []⟩) : Runs d.document ⟨text, []⟩ n ⟨[], []⟩ :=
  (leads_document hstart).runs (h.bind ((runs_next rfl).bind runs_pure))

theorem runs_document_item (hu : Understands d.toDecoder e stand) {n : Node} {f : Fragment}
    (h : e.item n = .ok f) :
    Runs d.document ⟨f.text, []⟩ (e.echoItem stand n) ⟨[], []⟩ := by
  obtain ⟨hread, hstart⟩ := reads_item hu h
  have hsolid := hstart.mono fun _ => isSolid_of_startsValue
  have htext := dropBlanks_append_of_starts hsolid []
  refine runs_document hsolid ((leads_root_item (declaration?_item hu h)).runs ?_)
  rw [List.append_nil] at htext
  exact hread (htext.trans (List.append_nil _).symm) (follows_nil _)

theorem separates_items (e : Encoder) : Separates endsItem startsValue '|' e.layout :=
  ⟨isBlank_of_mem_layout e, fun _ => isSolid_of_startsValue, fun _ hr => hr.widen (by decide),
    fun _ => rfl⟩

theorem runs_document_unit (hu : Understands d.toDecoder e stand) {ns : List Node}
    {texts : List Fragment} (h : ns.mapM e.item = .ok texts) (hne : ns ≠ []) :
    Runs d.document ⟨'u' :: ':' :: (Fragment.join ('|' :: e.layout) texts).text, []⟩
      (.unit (ns.map (e.echoItem stand))) ⟨[], []⟩ := by
  have hitems := ReadsAll.of_mapM h fun n f => reads_item hu (n := n) (f := f)
  have hsep := separates_items e
  have htexts : texts ≠ [] := by
    rintro rfl
    exact hne (List.length_eq_zero_iff.mp (forall₂_of_mapM h).length_eq)
  have hbody := hitems.dropBlanks_join hsep.first (follows_nil isSolid) ('|' :: e.layout)
  refine runs_document rfl (leads_root_unit.runs ?_)
  refine (runs_separated hsep hitems htexts ?_ (follows_nil _) (by simp)).bind runs_pure
  rw [List.append_nil] at hbody ⊢
  exact hbody

/-- Every reader that understands the writer reads a document as the echo of its tree. -/
theorem decode_encode {d : Decoder} (hu : Understands d e stand) {tree : Node} {enc : Encoded}
    (h : e.encode tree = .ok enc) : d.decode enc.document = .ok (e.echo stand tree) := by
  obtain ⟨f, hf, rfl⟩ := map_eq_ok.mp h
  let reading : Decoding := { d with size := byteLength f.text }
  have hu' : Understands reading.toDecoder e stand := hu
  have hruns : Runs reading.document ⟨f.text, []⟩ (e.echo stand tree) ⟨[], []⟩ := by
    cases tree with
    | unit ns =>
        cases ns with
        | nil => cases hf; exact runs_document_empty
        | cons n ns =>
            obtain ⟨texts, htexts, rfl⟩ := map_eq_ok.mp hf
            exact runs_document_unit hu' htexts (List.cons_ne_nil n ns)
    | classDecl x => exact runs_document_item hu' (n := .classDecl x) hf
    | method x => exact runs_document_item hu' (n := .method x) hf
    | widget w => exact runs_document_item hu' (n := .widget w) hf
    | literal l => exact runs_document_item hu' (n := .literal l) hf
  obtain ⟨expecting, hdocument⟩ := hruns .node
  have htext : (String.ofList f.text).toList = f.text := String.toList_ofList
  rw [Decoder.decode, htext]
  exact congrArg (Except.map (·.1)) hdocument

end WidgetShorthand
