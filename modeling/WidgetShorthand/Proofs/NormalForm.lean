import WidgetShorthand.Proofs.AcceptedValues

/-!
# Accepted documents have a normal form

Declarations and documents answer only with what can be written, as values do. So whatever text a
tree was read from, with its own layout, brackets that may be left out and names behind marks, the
tree can be written, and what is written is read as the tree again. Written documents are then
normal forms: two texts mean the same exactly if they are written as the same document.
-/

namespace WidgetShorthand

open Text Reader

variable {d : Decoding} {e : Encoder} {levels : Nat}

/-! ## Types -/

theorem succeeds_typeRef {name : String} {ts : List TypeRef} (hname : Succeeds (e.typeCode name))
    (hts : Succeeds (e.typeRefs levels ts)) : Succeeds (e.typeRef (levels + 1) ⟨name, ts⟩) := by
  cases ts with
  | nil =>
      rw [Encoder.typeRef]
      exact hname.map _
  | cons t ts =>
      rw [Encoder.typeRef]
      exact hname.bind fun _ => hts.bind fun _ => succeeds_ok _

theorem yields_typeRefWith (hp : Plain d.toDecoder e) {args : Reader (List TypeRef)}
    (h : Yields args fun ts => ∀ name, Succeeds (e.typeCode name) →
      Succeeds (e.typeRef levels ⟨name, ts⟩)) :
    Yields (d.typeRefWith args) fun t => Succeeds (e.typeRef levels t) := by
  have hcode := yields_code (d := d) hp.tables.types
  rw [← hp.symbols] at hcode
  refine hcode.bind fun name hname => yields_bind fun _ => ?_
  rw [hp.symbols] at hname
  have hname : Succeeds (e.typeCode name) := succeeds_code hname .type
  refine Yields.ite (h.bind fun ts hts => yields_pure (hts name hname)) (yields_pure ?_)
  rw [Encoder.typeRef]
  exact hname.map _

theorem yields_typeRef (hp : Plain d.toDecoder e) (levels : Nat) :
    Yields (d.typeRef levels) fun t => Succeeds (e.typeRef levels t) := by
  induction levels with
  | zero => exact yields_typeRefWith hp yields_tooDeep
  | succ levels ih =>
      refine yields_typeRefWith hp (yields_bind fun _ => ?_)
      refine (yields_separated ',' ih).bind fun ts hts => yields_bind fun _ => yields_pure ?_
      exact fun name hname => succeeds_typeRef hname (succeeds_typeRefs hts)

/-! ## Parts of declarations -/

theorem yields_root_value (hp : Plain d.toDecoder e) :
    Yields (d.value d.maxDepth) fun v => Succeeds (e.value e.options.maxDepth v) := by
  rw [← hp.depth]
  exact (yields_value_widget hp d.maxDepth).1

theorem yields_root_widget (hp : Plain d.toDecoder e) :
    Yields (d.widget d.maxDepth) fun w => Succeeds (e.widget e.options.maxDepth w) := by
  rw [← hp.depth]
  exact (yields_value_widget hp d.maxDepth).2

theorem yields_root_type (hp : Plain d.toDecoder e) :
    Yields (d.typeRef d.maxDepth) fun t => Succeeds (e.typeRef e.options.maxDepth t) := by
  rw [← hp.depth]
  exact yields_typeRef hp d.maxDepth

theorem yields_modifier (hp : Plain d.toDecoder e) :
    Yields d.modifier fun word => Succeeds (e.keyword word) := by
  have hcode := yields_code (d := d) hp.tables.keywords
  rw [← hp.symbols] at hcode
  refine yields_bind fun _ => hcode.bind fun word hword => yields_bind fun _ => ?_
  rw [hp.symbols] at hword
  refine Yields.ite (yields_bind fun _ => yields_pure ?_) yields_unexpected
  exact (succeeds_code hword .keyword).map _

theorem yields_modifiersLoop (hp : Plain d.toDecoder e) (fuel : Nat) :
    Yields (d.modifiersLoop fuel) fun words => ∀ word ∈ words, Succeeds (e.keyword word) := by
  induction fuel with
  | zero => exact yields_pure nofun
  | succ fuel ih =>
      refine yields_bind fun _ => Yields.ite ?_ (yields_pure nofun)
      refine (yields_modifier hp).bind fun word hword => ih.bind fun words hwords => yields_pure ?_
      rw [List.forall_mem_cons]
      exact ⟨hword, hwords⟩

theorem yields_modifiers (hp : Plain d.toDecoder e) :
    Yields d.modifiers fun words => Succeeds (e.keywords words) :=
  yields_bind fun _ => (yields_modifiersLoop hp _).mono fun _ hwords => (succeeds_mapM hwords).map _

theorem yields_declaredType (hp : Plain d.toDecoder e) :
    Yields d.declaredType fun t => Succeeds (e.declaredType t) := by
  refine yields_bind fun _ => Yields.ite ?_ (yields_pure (succeeds_ok _))
  exact (yields_root_type hp).bind fun t ht => yields_pure (ht.map _)

theorem yields_initializer (hp : Plain d.toDecoder e) : Yields d.initializer fun v =>
    Succeeds (Encoder.optional '=' (e.value e.options.maxDepth) v) := by
  refine yields_bind fun _ => Yields.ite ?_ (yields_pure (succeeds_ok _))
  exact (yields_root_value hp).bind fun v hv => yields_pure (hv.map _)

theorem yields_field (hp : Plain d.toDecoder e) : Yields d.field fun f => Succeeds (e.field f) := by
  refine (yields_modifiers hp).bind fun words hwords => ?_
  refine yields_identifier.bind fun name hname => ?_
  refine (yields_declaredType hp).bind fun t ht => ?_
  refine (yields_initializer hp).bind fun v hv => yields_pure ?_
  exact hwords.bind fun _ => (succeeds_identifier hname .field).bind fun _ =>
    ht.bind fun _ => hv.bind fun _ => succeeds_ok _

theorem yields_param (hp : Plain d.toDecoder e) : Yields d.param fun p => Succeeds (e.param p) := by
  refine yields_identifier.bind fun name hname => ?_
  refine (yields_declaredType hp).bind fun t ht => yields_pure ?_
  exact (succeeds_identifier hname .parameter).bind fun _ => ht.bind fun _ => succeeds_ok _

/-! ## Statements and methods -/

theorem yields_statementValue (hp : Plain d.toDecoder e) :
    Yields d.statementValue fun v => Succeeds (e.statementValue v) := by
  refine yields_bind fun _ => ?_
  split
  · exact yields_pure (succeeds_ok _)
  · exact yields_pure (succeeds_ok _)
  · exact (yields_root_value hp).bind fun v hv => yields_pure hv

/-- Both sides refuse the statement without keywords and value. -/
theorem yields_statement (hp : Plain d.toDecoder e) :
    Yields d.statement fun s => Succeeds (e.statement s) := by
  refine (yields_modifiers hp).bind fun words hwords => ?_
  refine (yields_statementValue hp).bind fun v hv => ?_
  split
  · exact yields_fail
  · next hsome =>
      refine yields_pure ?_
      rw [Encoder.statement, if_neg hsome]
      exact hwords.bind fun _ => hv.bind fun _ => succeeds_ok _

theorem yields_methodBody (hp : Plain d.toDecoder e) :
    Yields d.methodBody fun b => Succeeds (e.methodBody b) := by
  refine yields_bind fun _ => ?_
  split
  · refine yields_bind fun _ => (yields_root_widget hp).bind fun w hw => yields_pure ?_
    exact hw.map _
  · have hblock : Yields d.statements fun block => ∀ s ∈ block, Succeeds (e.statement s) :=
      yields_bind fun _ => (yields_separatedUnless _ ';' (yields_statement hp)).bind
        fun block hblock => yields_bind fun _ => yields_pure hblock
    exact hblock.bind fun block hblock => yields_pure ((succeeds_mapM hblock).map _)
  · exact yields_unexpected

theorem yields_params (hp : Plain d.toDecoder e) :
    Yields d.params fun ps => ∀ p ∈ ps, Succeeds (e.param p) :=
  yields_bind fun _ => (yields_separatedUnless _ ',' (yields_param hp)).bind
    fun _ hps => yields_bind fun _ => yields_pure hps

theorem yields_method (hp : Plain d.toDecoder e) :
    Yields d.method fun m => Succeeds (e.method m) := by
  refine (yields_modifiers hp).bind fun words hwords => ?_
  refine yields_identifier.bind fun name hname => ?_
  refine (yields_params hp).bind fun ps hps => ?_
  refine (yields_declaredType hp).bind fun t ht => ?_
  refine (yields_methodBody hp).bind fun b hb => yields_pure ?_
  exact hwords.bind fun _ => (succeeds_identifier hname .method).bind fun _ =>
    (succeeds_mapM hps).bind fun _ => ht.bind fun _ => hb.bind fun _ => succeeds_ok _

/-! ## Classes -/

theorem yields_superType (hp : Plain d.toDecoder e) :
    Yields d.superType fun t => Succeeds (e.superType t) := by
  refine yields_bind fun _ => Yields.ite (yields_bind fun _ => ?_) (yields_pure (succeeds_ok _))
  exact (yields_root_type hp).bind fun t ht => yields_bind fun _ => yields_pure (ht.map _)

theorem yields_classDecl (hp : Plain d.toDecoder e) :
    Yields d.classDecl fun c => Succeeds (e.classDecl c) := by
  refine yields_identifier.bind fun name hname => ?_
  refine (yields_superType hp).bind fun t ht => yields_bind fun _ => ?_
  refine (yields_separatedUnless _ ',' (yields_field hp)).bind fun fs hfs => yields_bind fun _ => ?_
  refine (yields_separatedUnless _ ',' (yields_method hp)).bind fun ms hms => yields_pure ?_
  exact (succeeds_identifier hname .classDecl).bind fun _ => ht.bind fun _ =>
    (succeeds_mapM hfs).bind fun _ => (succeeds_mapM hms).bind fun _ => succeeds_ok _

/-! ## Documents -/

/-- The literal that stands for an item was written as a value. -/
theorem succeeds_literal_of_value {l : Literal}
    (h : Succeeds (e.value levels (.scalar (.literal l)))) : Succeeds (Encoder.literal l) := by
  obtain ⟨f, hf⟩ := h
  obtain ⟨cs, hcs, _⟩ := map_eq_ok.mp hf
  exact ⟨cs, hcs⟩

theorem yields_plainItem (hp : Plain d.toDecoder e) :
    Yields d.plainItem fun n => Succeeds (e.item n) := by
  refine yields_bind fun _ => Yields.ite ((yields_root_value hp).bind fun v hv => ?_) ?_
  · split
    · exact yields_pure ((succeeds_literal_of_value hv).map _)
    · exact yields_fail
  · exact (yields_root_widget hp).bind fun w hw => yields_pure hw

theorem yields_item (hp : Plain d.toDecoder e) : Yields d.item fun n => Succeeds (e.item n) := by
  refine yields_bind fun _ => yields_bind fun s => ?_
  split
  · exact yields_bind fun _ => (yields_classDecl hp).bind fun c hc => yields_pure hc
  · exact yields_bind fun _ => (yields_method hp).bind fun m hm => yields_pure (hm.map _)
  · exact yields_fail
  · exact yields_fail
  · exact yields_plainItem hp

theorem succeeds_document_unit {ns : List Node} (h : ∀ n ∈ ns, Succeeds (e.item n)) :
    Succeeds (e.document (.unit ns)) := by
  cases ns with
  | nil => exact succeeds_ok _
  | cons n ns => exact (succeeds_mapM h).map _

/-- What can be written as an item is no unit, and a document is one item or a unit. -/
theorem succeeds_document_item {n : Node} (h : Succeeds (e.item n)) : Succeeds (e.document n) := by
  cases n with
  | classDecl c => exact h
  | method m => exact h
  | widget w => exact h
  | literal l => exact h
  | unit ns =>
      obtain ⟨f, hf⟩ := h
      cases hf

theorem yields_document (hp : Plain d.toDecoder e) :
    Yields d.document fun n => Succeeds (e.document n) := by
  have hitem : Yields d.item fun n => Succeeds (e.document n) :=
    (yields_item hp).mono fun _ => succeeds_document_item
  have hunit : Yields (separated '|' d.item) fun ns => Succeeds (e.document (.unit ns)) :=
    (yields_separated '|' (yields_item hp)).mono fun _ => succeeds_document_unit
  have hroot : Yields d.root fun n => Succeeds (e.document n) :=
    yields_bind fun _ => Yields.ite
      (yields_bind fun _ => hunit.bind fun ns hns => yields_pure hns) hitem
  refine yields_bind fun _ => Yields.ite (yields_pure (succeeds_ok _)) ?_
  exact hroot.bind fun n hn => yields_bind fun _ => Yields.ite yields_unexpected (yields_pure hn)

/-- Whatever is accepted can be written. -/
theorem succeeds_encode {d : Decoder} (hp : Plain d e) {doc : String} {tree : Node}
    (h : d.decode doc = .ok tree) : Succeeds (e.encode tree) := by
  obtain ⟨⟨n, s⟩, hdocument, rfl⟩ := map_eq_ok.mp h
  exact (yields_document (d := { d with size := byteLength doc.toList }) hp hdocument).map _

/-! ## Normal forms -/

/-- A tree that was accepted without patterns is written by every strategy without patterns, and as
a document that means the same. No other tree is written as that document. -/
theorem encode_of_decode {symbols : List Symbol} {tables : Symbols} (strategy : Strategy)
    (options : EncodeOptions) {doc : String} {tree : Node}
    (ht : Symbols.ofList symbols = .ok tables)
    (h : (⟨tables, .empty, options.maxDepth⟩ : Decoder).decode doc = .ok tree) :
    ∃ enc, (⟨tables, .empty, strategy, options⟩ : Encoder).encode tree = .ok enc ∧
      (⟨tables, .empty, options.maxDepth⟩ : Decoder).decode enc.document = .ok tree ∧
      ∀ other, ((⟨tables, .empty, strategy, options⟩ : Encoder).encode other).map (·.document) =
        .ok enc.document ↔ other = tree := by
  have ht := Symbols.sound_of_ofList ht
  have hu := understands_own (e := ⟨tables, .empty, strategy, options⟩) ht Registry.sound_empty
  have hback {n : Node} {enc : Encoded}
      (henc : (⟨tables, .empty, strategy, options⟩ : Encoder).encode n = .ok enc) :
      (⟨tables, .empty, options.maxDepth⟩ : Decoder).decode enc.document = .ok n := by
    rw [decode_encode hu henc]
    refine congrArg Except.ok (Encoder.echo_eq_self fun w _ entry hmatch => ?_)
    rw [matchPattern?_of_empty rfl] at hmatch
    cases hmatch
  obtain ⟨enc, henc⟩ := succeeds_encode (plain_empty ht strategy options) h
  refine ⟨enc, henc, hback henc, fun other => ⟨fun hsame => ?_, ?_⟩⟩
  · obtain ⟨enc', henc', hdocument⟩ := map_eq_ok.mp hsame
    have hread := hback henc'
    rw [hdocument, hback henc] at hread
    exact (Except.ok.inj hread).symm
  · rintro rfl
    rw [henc]
    rfl

/-- Layout, brackets that are left out, names behind marks, and a symbol where a name was
written. -/
theorem encode_of_decode_column :
    ∃ tables tree enc,
      Symbols.ofList [⟨.type, "Text", "T"⟩, ⟨.literal, "kTitle", "t"⟩] = .ok tables ∧
      (⟨tables, .empty, EncodeOptions.default.maxDepth⟩ : Decoder).decode
        " !Column [ T , !Text { !data : kTitle } ] " = .ok tree ∧
      (⟨tables, .empty, .hybrid, .default⟩ : Encoder).encode tree = .ok enc ∧
      enc.document = "!Column{}[T{},T{data:#t}]" ∧
      (⟨tables, .empty, EncodeOptions.default.maxDepth⟩ : Decoder).decode enc.document =
        .ok tree := by
  let tree : Node := .widget ⟨"Column", [], [⟨"Text", [], []⟩,
    ⟨"Text", [⟨"data", .scalar (.ident "kTitle")⟩], []⟩]⟩
  let tables : Symbols := ⟨⟨.type, [("Text", "T")]⟩, .empty .property, .empty .keyword,
    ⟨.literal, [("kTitle", "t")]⟩⟩
  have ht : Symbols.ofList [⟨.type, "Text", "T"⟩, ⟨.literal, "kTitle", "t"⟩] = .ok tables :=
    ok_of_toOption (by decide +kernel)
  have hread : (⟨tables, .empty, EncodeOptions.default.maxDepth⟩ : Decoder).decode
      " !Column [ T , !Text { !data : kTitle } ] " = .ok tree :=
    ok_of_toOption (by decide +kernel)
  have hdocument : ((⟨tables, .empty, .hybrid, .default⟩ : Encoder).encode tree).map (·.document) =
      .ok "!Column{}[T{},T{data:#t}]" := ok_of_toOption (by decide +kernel)
  clear_value tables tree
  obtain ⟨enc, henc, hback, _⟩ := encode_of_decode .hybrid .default ht hread
  rw [henc] at hdocument
  exact ⟨tables, tree, enc, ht, hread, henc, Except.ok.inj hdocument, hback⟩

end WidgetShorthand
