import WidgetShorthand.Proofs.Answers
import WidgetShorthand.Proofs.RoundTrip

/-!
# Values that are accepted can be written

Reader and writer check names, numerals and depth separately and in different ways: the reader
character by character, the writer on whole texts. Every form of a value is shown to answer only
with what the writer accepts at the same depth; the levels of both go down together, so the
induction is on levels alone.

Without patterns a reader never accepts a reference and a writer never writes one. `Plain` says that
reader and writer belong together in this way.
-/

namespace WidgetShorthand

open Text Reader

/-! ## Numerals -/

namespace Text.Numeral

theorem spanFrom_idem (hex : Bool) (last : Char) (cs : List Char) :
    spanFrom hex last (spanFrom hex last cs).1 = ((spanFrom hex last cs).1, []) := by
  induction cs generalizing last with
  | nil => rfl
  | cons c r ih =>
      by_cases hc : continues hex last c = true
      · simp [spanFrom, hc, ih c]
      · simp [spanFrom, hc]

/-- The character that makes a numeral hexadecimal belongs to it. -/
theorem isHex_spanFrom (c : Char) (r : List Char) (hex : Bool) :
    isHex c (spanFrom hex c r).1 = isHex c r := by
  cases r with
  | nil => rfl
  | cons x r =>
      by_cases hx : continues hex c x = true
      · simp [spanFrom, hx, isHex]
      · have hno : (x == 'x' || x == 'X') = false := by
          rw [← Bool.not_eq_true]
          intro h
          simp only [Bool.or_eq_true, beq_iff_eq] at h
          rcases h with rfl | rfl <;> exact hx rfl
        simp [spanFrom, hx, isHex, hno]

theorem splitUnsigned_idem {cs run rest : List Char} (h : splitUnsigned cs = some (run, rest)) :
    splitUnsigned run = some (run, []) := by
  cases cs with
  | nil => cases h
  | cons c r =>
      simp only [splitUnsigned] at h
      split at h
      · next hdigit =>
          simp only [Option.some.injEq, Prod.mk.injEq] at h
          obtain ⟨rfl, _⟩ := h
          simp [splitUnsigned, hdigit, isHex_spanFrom, spanFrom_idem]
      · cases h

theorem isNumeral_of_split {cs run rest : List Char} (h : split cs = some (run, rest)) :
    isNumeral run = true := by
  by_cases hminus : cs.head? = some '-'
  · obtain ⟨r, rfl⟩ : ∃ r, cs = '-' :: r := by
      cases cs with
      | nil => cases hminus
      | cons c r => exact ⟨r, by simpa using hminus⟩
    simp only [split, Option.map_eq_some_iff, Prod.exists, Prod.mk.injEq] at h
    obtain ⟨digits, _, hdigits, rfl, rfl⟩ := h
    simp [isNumeral, split, splitUnsigned_idem hdigits]
  · rw [split_of_ne_minus hminus] at h
    have hidem := splitUnsigned_idem h
    have hrun : run.head? ≠ some '-' := by
      cases run with
      | nil => simp
      | cons c r =>
          intro hc
          obtain rfl : c = '-' := by simpa using hc
          cases hidem
    rw [isNumeral, split_of_ne_minus hrun, hidem]

end Text.Numeral

/-! ## Names -/

theorem Table.shortFor?_of_longFor? {t : Table} (ht : t.Sound) {long short : String}
    (h : t.longFor? short = some long) : t.shortFor? long = some short := by
  obtain ⟨p, hp, rfl⟩ := Option.map_eq_some_iff.mp h
  have hshort : p.2 = short := by simpa using List.find?_some hp
  have hfind := find?_key_of_mem ht.longs (List.mem_of_find?_eq_some hp)
  rw [shortFor?, hfind, Option.map_some, hshort]

section

variable {d : Decoding} {e : Encoder} {levels : Nat}

theorem succeeds_identifier {name : String} (h : isIdentifier name = true) (place : NamePlace) :
    Succeeds (Encoder.identifier place name) :=
  ⟨name.toList, if_pos h⟩

/-- A name can be written when it has a symbol or is an identifier. -/
theorem succeeds_code {table : Table} {name : String}
    (h : (table.shortFor? name).isSome = true ∨ isIdentifier name = true) (place : NamePlace) :
    Succeeds (Encoder.code table place name) := by
  unfold Encoder.code
  split
  · exact succeeds_ok _
  · next hnone =>
      rw [hnone] at h
      exact (succeeds_identifier (h.resolve_left nofun) place).map _

theorem yields_code {table : Table} (ht : table.Sound) :
    Yields (d.code table) fun name =>
      (table.shortFor? name).isSome = true ∨ isIdentifier name = true := by
  refine yields_bind fun _ => yields_bind fun s => ?_
  dsimp only
  refine Yields.ite (yields_markedName.mono fun _ => .inr) (yields_bind fun short => ?_)
  split
  · next long hlong =>
      refine yields_pure (.inl ?_)
      rw [Table.shortFor?_of_longFor? ht hlong]
      rfl
  · exact yields_failAt

theorem succeeds_propertyKey {key : String}
    (h : (e.symbols.properties.shortFor? key).isSome = true ∨ isIdentifier key = true) :
    Succeeds (e.propertyKey key) := by
  unfold Encoder.propertyKey
  split
  · exact succeeds_ok _
  · next hnone =>
      rw [hnone] at h
      exact (succeeds_identifier (h.resolve_left nofun) .property).map _

theorem yields_propertyKey (ht : d.symbols.Sound) :
    Yields d.propertyKey fun key =>
      (d.symbols.properties.shortFor? key).isSome = true ∨ isIdentifier key = true := by
  refine yields_bind fun c => ?_
  split
  · refine Yields.ite (yields_markedName.mono fun _ => .inr) (Yields.ite ?_ yields_unexpected)
    refine yields_identifier.bind fun key hkey => yields_pure ?_
    cases hlong : d.symbols.properties.longFor? key with
    | none => exact .inr hkey
    | some long =>
        rw [Option.getD_some, Table.shortFor?_of_longFor? ht.properties hlong]
        exact .inl rfl
  · exact yields_unexpected

/-! ## Without patterns -/

/-- Reader and writer have the same tables and depth, and know no patterns. -/
structure Plain (d : Decoder) (e : Encoder) : Prop where
  symbols : d.symbols = e.symbols
  tables : e.symbols.Sound
  depth : d.maxDepth = e.options.maxDepth
  unknown : ∀ id, d.registry.get? id = none
  unmatched : ∀ w, e.matchPattern? w = none

theorem matchPattern?_of_empty (h : e.registry = .empty) (w : Widget) :
    e.matchPattern? w = none := by
  have hlookup : e.registry.lookup? w.fingerprint = none := by rw [h]; rfl
  have hsimilar : e.registry.findSimilar? w e.options.similarityThreshold = none := by rw [h]; rfl
  rw [Encoder.matchPattern?, hlookup, hsimilar]
  simp

theorem plain_empty {tables : Symbols} (ht : tables.Sound) (strategy : Strategy)
    (options : EncodeOptions) :
    Plain ⟨tables, .empty, options.maxDepth⟩ ⟨tables, .empty, strategy, options⟩ where
  symbols := rfl
  tables := ht
  depth := rfl
  unknown _ := rfl
  unmatched := matchPattern?_of_empty rfl

/-! ## Scalars -/

theorem succeeds_scalar_path {name : String} (h : isPath name = true) :
    Succeeds (e.scalar (.ident name)) := by
  rw [Encoder.scalar, if_pos h]
  split <;> exact succeeds_ok _

theorem succeeds_scalar_expr (text : String) : Succeeds (e.scalar (.expr text)) := by
  rw [Encoder.scalar]
  split <;> exact succeeds_ok _

theorem yields_number : Yields d.number fun s => Succeeds (e.scalar s) := by
  refine yields_bind fun s => ?_
  split
  · next spelling rest hsplit =>
      refine yields_bind fun _ => yields_pure ⟨spelling, ?_⟩
      have hnumeral := Numeral.isNumeral_of_split hsplit
      simp [Scalar.number, Encoder.scalar, Encoder.literal, hnumeral]
  · exact yields_unexpected

theorem succeeds_scalar_constant {c : Option Char} {s : Scalar}
    (h : Decoding.constant? c = some s) : Succeeds (e.scalar s) := by
  unfold Decoding.constant? at h
  split at h <;> cases h <;> exact succeeds_ok _

theorem yields_constant : Yields d.constant fun s => Succeeds (e.scalar s) := by
  refine yields_bind fun s => ?_
  dsimp only
  split
  · next hs => exact yields_bind fun _ => yields_pure (succeeds_scalar_constant hs)
  · exact yields_fail

theorem yields_foldedLiteral : Yields d.foldedLiteral fun s => Succeeds (e.scalar s) := by
  refine yields_bind fun _ => yields_bind fun long => yields_pure ?_
  unfold Decoding.unfold
  split
  · next hpath => exact succeeds_scalar_path hpath
  · exact succeeds_scalar_expr long

theorem yields_expression : Yields d.expression fun s => Succeeds (e.scalar s) :=
  yields_bind fun _ => yields_bind fun _ =>
    Yields.ite (yields_bind fun text => yields_pure (succeeds_scalar_expr text)) yields_unexpected

/-! ## Writing parts -/

theorem succeeds_value_scalar {s : Scalar} (h : Succeeds (e.scalar s)) :
    Succeeds (e.value levels (.scalar s)) :=
  h.map _

theorem succeeds_properties {ps : List Property}
    (h : ∀ p ∈ ps, Succeeds (e.propertyKey p.key) ∧ Succeeds (e.value levels p.value)) :
    Succeeds (e.properties levels ps) := by
  induction ps with
  | nil => exact succeeds_ok []
  | cons p ps ih =>
      obtain ⟨key, v⟩ := p
      rw [List.forall_mem_cons] at h
      exact h.1.1.bind fun _ => h.1.2.bind fun _ => (ih h.2).bind fun _ => succeeds_ok _

theorem succeeds_children {cs : List Widget} (h : ∀ c ∈ cs, Succeeds (e.widget levels c)) :
    Succeeds (e.children levels cs) := by
  induction cs with
  | nil => exact succeeds_ok []
  | cons c cs ih =>
      rw [List.forall_mem_cons] at h
      exact h.1.bind fun _ => (ih h.2).bind fun _ => succeeds_ok _

theorem succeeds_items {vs : List Value} (h : ∀ v ∈ vs, Succeeds (e.value levels v)) :
    Succeeds (e.items levels vs) := by
  induction vs with
  | nil => exact succeeds_ok []
  | cons v vs ih =>
      rw [List.forall_mem_cons] at h
      exact h.1.bind fun _ => (ih h.2).bind fun _ => succeeds_ok _

theorem succeeds_typeRefs {ts : List TypeRef} (h : ∀ t ∈ ts, Succeeds (e.typeRef levels t)) :
    Succeeds (e.typeRefs levels ts) := by
  induction ts with
  | nil => exact succeeds_ok []
  | cons t ts ih =>
      rw [List.forall_mem_cons] at h
      exact h.1.bind fun _ => (ih h.2).bind fun _ => succeeds_ok _

theorem succeeds_fullWidget (hp : Plain d.toDecoder e) {t : String} {ps : List Property}
    {cs : List Widget} (hcode : Succeeds (e.typeCode t)) (hps : Succeeds (e.properties levels ps))
    (hcs : Succeeds (e.children levels cs)) : Succeeds (e.widget (levels + 1) ⟨t, ps, cs⟩) := by
  obtain ⟨code, hcode⟩ := hcode
  obtain ⟨properties, hps⟩ := hps
  obtain ⟨children, hcs⟩ := hcs
  exact ⟨_, (widget_in_full (hp.unmatched _)).mpr ⟨_, _, _, hcode, hps, hcs, rfl⟩⟩

/-! ## Widgets and values -/

variable {readValue : Reader Value} {readWidget body : Reader Widget}
  {readList : Reader (List Value)}

theorem yields_property (hp : Plain d.toDecoder e)
    (h : Yields readValue fun v => Succeeds (e.value levels v)) :
    Yields (d.property readValue) fun p =>
      Succeeds (e.propertyKey p.key) ∧ Succeeds (e.value levels p.value) := by
  have hkey := yields_propertyKey (d := d) (hp.symbols ▸ hp.tables)
  rw [hp.symbols] at hkey
  refine yields_bind fun _ => hkey.bind fun key hkey => ?_
  refine yields_bind fun _ => yields_bind fun _ => h.bind fun v hv => yields_bind fun _ => ?_
  exact yields_pure ⟨succeeds_propertyKey hkey, hv⟩

theorem yields_properties (hp : Plain d.toDecoder e)
    (h : Yields readValue fun v => Succeeds (e.value levels v)) :
    Yields (d.properties readValue) fun ps => Succeeds (e.properties levels ps) := by
  refine yields_bind fun _ => yields_bind fun _ => ?_
  refine (yields_separatedUnless _ ',' (yields_property hp h)).bind fun ps hps => ?_
  exact yields_bind fun _ => yields_pure (succeeds_properties hps)

theorem yields_children (h : Yields readWidget fun w => Succeeds (e.widget levels w)) :
    Yields (d.children readWidget) fun ws => Succeeds (e.children levels ws) := by
  have hchild : Yields (Decoding.child readWidget) fun w => Succeeds (e.widget levels w) :=
    h.bind fun w hw => yields_bind fun _ => yields_pure hw
  refine yields_bind fun _ => yields_bind fun _ => ?_
  refine (yields_separatedUnless _ ',' hchild).bind fun ws hws => ?_
  exact yields_bind fun _ => yields_pure (succeeds_children hws)

theorem yields_fullWidget (hp : Plain d.toDecoder e)
    (hv : Yields readValue fun v => Succeeds (e.value levels v))
    (hw : Yields readWidget fun w => Succeeds (e.widget levels w)) :
    Yields (d.fullWidget readValue readWidget) fun w => Succeeds (e.widget (levels + 1) w) := by
  have hcode := yields_code (d := d) hp.tables.types
  rw [← hp.symbols] at hcode
  refine hcode.bind fun t ht => yields_bind fun _ => ?_
  rw [hp.symbols] at ht
  have hproperties : Yields (pure []) fun ps => Succeeds (e.properties levels ps) :=
    yields_pure (succeeds_ok [])
  have hchildren : Yields (pure []) fun ws => Succeeds (e.children levels ws) :=
    yields_pure (succeeds_ok [])
  -- What is behind the properties is the same whether there are any or not.
  have hbehind (ps : List Property) (hps : Succeeds (e.properties levels ps)) :
      Yields (do
        let ws ← if (← next) = some '[' then d.children readWidget else pure []
        return ⟨t, ps, ws⟩) fun w => Succeeds (e.widget (levels + 1) w) := by
    have hwhole (ws : List Widget) (hws : Succeeds (e.children levels ws)) :=
      succeeds_fullWidget hp (succeeds_code ht .type) hps hws
    refine yields_bind fun _ => Yields.ite ?_ ?_
    · exact (yields_children hw).bind fun ws hws => yields_pure (hwhole ws hws)
    · exact hchildren.bind fun ws hws => yields_pure (hwhole ws hws)
  exact Yields.ite ((yields_properties hp hv).bind hbehind) (hproperties.bind hbehind)

/-- No reference is accepted. -/
theorem yields_reference (hp : Plain d.toDecoder e) {P : Widget → Prop} :
    Yields (d.reference readValue) P := by
  refine yields_bind fun _ => yields_bind fun _ => yields_bind fun _ => yields_bind fun _ => ?_
  refine Yields.ite yields_unexpected ?_
  rw [hp.unknown]
  exact yields_failAt

theorem yields_widgetWith {P : Widget → Prop} (h : Yields body P) :
    Yields (d.widgetWith body) P := by
  refine yields_bind fun _ => yields_bind fun c => ?_
  split
  · exact Yields.ite h yields_unexpected
  · exact yields_unexpected

theorem yields_tooDeep {α : Type} {P : α → Prop} : Yields d.tooDeep P :=
  yields_fail

theorem yields_nameOrWidget
    (h : Yields readWidget fun w => Succeeds (e.value levels (.widget w))) :
    Yields (d.nameOrWidget readWidget) fun v => Succeeds (e.value levels v) := by
  refine yields_bind fun s => yields_path.bind fun name hname => yields_bind fun c => ?_
  split
  · exact yields_bind fun _ => h.bind fun w hw => yields_pure hw
  · exact yields_bind fun _ => h.bind fun w hw => yields_pure hw
  · exact yields_pure (succeeds_value_scalar (succeeds_scalar_path hname))

theorem yields_valueWith (hlist : Yields readList fun vs => Succeeds (e.value levels (.list vs)))
    (hwidget : Yields readWidget fun w => Succeeds (e.value levels (.widget w))) :
    Yields (d.valueWith readList readWidget) fun v => Succeeds (e.value levels v) := by
  have hscalar {r : Reader Scalar} (hr : Yields r fun s => Succeeds (e.scalar s)) :
      Yields (do return .scalar (← r)) fun v => Succeeds (e.value levels v) :=
    hr.bind fun s hs => yields_pure (succeeds_value_scalar hs)
  refine yields_bind fun c => ?_
  split
  · exact yields_bind fun text => yields_pure (succeeds_value_scalar (succeeds_ok _))
  · exact hscalar yields_constant
  · exact hscalar yields_foldedLiteral
  · exact hscalar yields_expression
  · exact hlist.bind fun vs hvs => yields_pure hvs
  · exact hwidget.bind fun w hw => yields_pure hw
  · exact hwidget.bind fun w hw => yields_pure hw
  · refine Yields.ite (hscalar yields_number) (Yields.ite ?_ yields_unexpected)
    exact yields_nameOrWidget hwidget
  · exact yields_unexpected

/-- Whatever is read at some depth can be written at that depth. -/
theorem yields_value_widget (hp : Plain d.toDecoder e) (levels : Nat) :
    (Yields (d.value levels) fun v => Succeeds (e.value levels v)) ∧
      Yields (d.widget levels) fun w => Succeeds (e.widget levels w) := by
  induction levels with
  | zero =>
      have hwidget {P : Widget → Prop} : Yields (d.widgetWith d.tooDeep) P :=
        yields_widgetWith yields_tooDeep
      exact ⟨yields_valueWith yields_tooDeep hwidget, hwidget⟩
  | succ levels ih =>
      obtain ⟨hvalue, hwidget⟩ := ih
      have hbody : Yields (d.widget (levels + 1)) fun w => Succeeds (e.widget (levels + 1) w) :=
        yields_widgetWith (yields_bind fun _ =>
          Yields.ite (yields_reference hp) (yields_fullWidget hp hvalue hwidget))
      have hlist : Yields (d.list (d.value levels)) fun vs =>
          Succeeds (e.value (levels + 1) (.list vs)) := by
        refine yields_bind fun _ => ?_
        refine (yields_separatedUnless _ ',' hvalue).bind fun vs hvs => yields_bind fun _ => ?_
        exact yields_pure ((succeeds_items hvs).bind fun _ => succeeds_ok _)
      exact ⟨yields_valueWith hlist hbody, hbody⟩

end

end WidgetShorthand
