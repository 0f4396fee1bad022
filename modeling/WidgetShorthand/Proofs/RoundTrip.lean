import WidgetShorthand.Proofs.DocumentReading
import WidgetShorthand.Proofs.FloatOrder
import WidgetShorthand.Proofs.RegistryGrowth

/-!
# Nothing is lost

A document is read as the echo of its tree, so a tree comes back unchanged as soon as every
reference in it stands for the very widget that it replaced. Strategies without references are the
simplest case. With a threshold of one only patterns of the same fingerprint are referred to; where
fingerprints tell shapes apart these have the same shape, and then nothing but the scalars in the
slots can differ, which the arguments carry.

The reader may know more patterns than the writer did: all that counts is that ids keep their
meaning.
-/

namespace WidgetShorthand

variable {e : Encoder} {w : Widget} {entry : Entry}

/-! ## Matching -/

theorem betterMatch_mem {tokens : List Token} {threshold : Float} {best : Option (Entry × Float)}
    {candidate : Registered} {found : Entry × Float}
    (h : Registry.betterMatch tokens threshold best candidate = some found) :
    best = some found ∨ found.1 = candidate.entry := by
  unfold Registry.betterMatch Registry.betterScore at h
  dsimp only at h
  split at h
  · exact .inl h
  · split at h
    · cases h; exact .inr rfl
    · exact .inl h

theorem findSimilar?_mem {r : Registry} {threshold : Float} {found : Entry × Float}
    (h : r.findSimilar? w threshold = some found) : found.1 ∈ r.entries := by
  have hall : ∀ (items : List Registered) (best : Option (Entry × Float)),
      items.foldl (Registry.betterMatch w.shape threshold) best = some found →
        best = some found ∨ ∃ item ∈ items, item.entry = found.1 := by
    intro items
    induction items with
    | nil => exact fun _ h => .inl h
    | cons item items ih =>
        intro best h
        rcases ih _ h with hbest | ⟨x, hx, heq⟩
        · rcases betterMatch_mem hbest with hbest | heq
          · exact .inl hbest
          · exact .inr ⟨item, List.mem_cons_self, heq.symm⟩
        · exact .inr ⟨x, List.mem_cons_of_mem item hx, heq⟩
  rcases hall r.items none h with hnone | ⟨item, hitem, heq⟩
  · cases hnone
  · exact heq ▸ List.mem_map_of_mem hitem

theorem matchPattern?_eq_none (h : e.strategy.usesPatterns = false) : e.matchPattern? w = none := by
  rw [Encoder.matchPattern?, h, if_neg Bool.false_ne_true]

theorem matchPattern?_mem (h : e.matchPattern? w = some entry) : entry ∈ e.registry.entries := by
  unfold Encoder.matchPattern? at h
  split at h
  · split at h
    · next found hfound =>
        cases h
        exact (Registry.mem_of_lookup? hfound).1
    · split at h
      · obtain ⟨found, hfound, rfl⟩ := Option.map_eq_some_iff.mp h
        exact findSimilar?_mem hfound
      · cases h
  · cases h

/-- At a threshold of one or more only exact matches count. -/
theorem matchPattern?_exact (ht : 1.0 ≤ e.options.similarityThreshold)
    (h : e.matchPattern? w = some entry) : e.registry.lookup? w.fingerprint = some entry := by
  unfold Encoder.matchPattern? at h
  split at h
  · split at h
    · next found hfound => rw [hfound, h]
    · rw [if_neg (float_not_lt_of_le ht)] at h
      cases h
  · cases h

/-! ## Readers that know the patterns -/

theorem understands_without_patterns {d : Decoder} {stand : Entry → Widget → Widget}
    (hs : d.symbols = e.symbols) (ht : e.symbols.Sound) (hd : d.maxDepth = e.options.maxDepth)
    (hp : e.strategy.usesPatterns = false) : Understands d e stand where
  symbols := hs
  tables := ht
  depth := hd
  references h := by
    rw [matchPattern?_eq_none hp] at h
    cases h

theorem understands_later {d : Decoder} (hs : d.symbols = e.symbols) (ht : e.symbols.Sound)
    (hd : d.maxDepth = e.options.maxDepth) (hr : e.registry.Sound)
    (hg : e.registry.Grows d.registry) : Understands d e Entry.filled where
  symbols := hs
  tables := ht
  depth := hd
  references {w entry} h := by
    have hmem := matchPattern?_mem h
    have hentry := hr.entries entry hmem
    exact ⟨hentry.id, entry, hg.get? (hr.get?_of_mem hmem), length_arguments_le entry w,
      (fill_arguments hentry w).1⟩

/-- The reader with the tables, the registry and the depth that were written with. -/
theorem understands_own (ht : e.symbols.Sound) (hr : e.registry.Sound) :
    Understands ⟨e.symbols, e.registry, e.options.maxDepth⟩ e Entry.filled :=
  understands_later rfl ht rfl hr (.refl e.registry)

/-! ## Without references -/

/-- What the strategies without references write is read back as it was. -/
theorem decode_encode_without_patterns {symbols : List Symbol} {tables : Symbols}
    {registry : Registry} {strategy : Strategy} {options : EncodeOptions} {tree : Node}
    {enc : Encoded} (ht : Symbols.ofList symbols = .ok tables)
    (hs : strategy = .minimal ∨ strategy = .aggressive)
    (h : (⟨tables, registry, strategy, options⟩ : Encoder).encode tree = .ok enc) :
    (⟨tables, registry, options.maxDepth⟩ : Decoder).decode enc.document = .ok tree := by
  have hp : strategy.usesPatterns = false := by
    rcases hs with rfl | rfl <;> rfl
  have hu : Understands ⟨tables, registry, options.maxDepth⟩ ⟨tables, registry, strategy, options⟩
      Entry.filled := understands_without_patterns rfl (Symbols.sound_of_ofList ht) rfl hp
  rw [decode_encode hu h]
  refine congrArg Except.ok (Encoder.echo_eq_self fun w _ entry hmatch => ?_)
  rw [matchPattern?_eq_none hp] at hmatch
  cases hmatch

/-- A class with a folded literal and with symbols. -/
theorem decode_encode_page :
    ∃ tree tables enc,
      Symbols.ofList [⟨.type, "Text", "T"⟩, ⟨.literal, "kTitle", "t"⟩] = .ok tables ∧
      (⟨tables, .empty, .aggressive, .default⟩ : Encoder).encode tree = .ok enc ∧
      enc.document = "c:Page<!State<T>>;%!final.title=#t;build():T=T{data:title}" ∧
      (⟨tables, .empty, EncodeOptions.default.maxDepth⟩ : Decoder).decode enc.document =
        .ok tree := by
  let page : Node := .classDecl ⟨"Page", some ⟨"State", [⟨"Text", []⟩]⟩,
    [⟨["final"], "title", none, some (.scalar (.ident "kTitle"))⟩],
    [⟨[], "build", [], some ⟨"Text", []⟩,
      .widget ⟨"Text", [⟨"data", .scalar (.ident "title")⟩], []⟩⟩]⟩
  let tables : Symbols := ⟨⟨.type, [("Text", "T")]⟩, .empty .property, .empty .keyword,
    ⟨.literal, [("kTitle", "t")]⟩⟩
  have ht : Symbols.ofList [⟨.type, "Text", "T"⟩, ⟨.literal, "kTitle", "t"⟩] = .ok tables :=
    ok_of_toOption (by decide +kernel)
  have hdocument : ((⟨tables, .empty, .aggressive, .default⟩ : Encoder).encode page).map
      (·.document) = .ok "c:Page<!State<T>>;%!final.title=#t;build():T=T{data:title}" :=
    ok_of_toOption (by decide +kernel)
  clear_value tables page
  obtain ⟨enc, henc, hdocument⟩ := map_eq_ok.mp hdocument
  have h := decode_encode_without_patterns ht (.inr rfl) henc
  exact ⟨page, tables, enc, ht, henc, hdocument, h⟩

/-! ## With references to exact matches -/

/-- The samples of all patterns. -/
def Registry.samples (r : Registry) : List Widget :=
  r.entries.map (·.sample)

/-- An exact match has the shape of the widget when the fingerprints tell the shapes apart. -/
theorem shape_of_exact {ws : List Widget} (hr : e.registry.Sound)
    (ht : 1.0 ≤ e.options.similarityThreshold) (hws : Discernible ws) (hw : w ∈ ws)
    (hsamples : ∀ sample ∈ e.registry.samples, sample ∈ ws) (h : e.matchPattern? w = some entry) :
    w.shape = entry.sample.shape := by
  obtain ⟨hmem, hfingerprint⟩ := Registry.mem_of_lookup? (matchPattern?_exact ht h)
  have hsample := hsamples entry.sample (List.mem_map_of_mem hmem)
  refine hws.shape_eq hw hsample ?_
  rw [← hfingerprint, (hr.entries entry hmem).fingerprint]

/-- A reference stands for the widget itself when the fingerprints tell the shapes apart. -/
theorem keeps_of_exact {ws : List Widget} (hr : e.registry.Sound)
    (ht : 1.0 ≤ e.options.similarityThreshold) (hws : Discernible ws) (hw : w ∈ ws)
    (hsamples : ∀ sample ∈ e.registry.samples, sample ∈ ws) : e.Keeps Entry.filled w := by
  intro entry hmatch
  have hentry := hr.entries entry (matchPattern?_mem hmatch)
  exact Entry.filled_eq_self hentry (shape_of_exact hr ht hws hw hsamples hmatch)

/-- With a threshold of at least one, references lose nothing, whatever the strategy. -/
theorem decode_encode_with_exact_references {symbols : List Symbol} {tables : Symbols}
    {registry : Registry} {strategy : Strategy} {options : EncodeOptions} {tree : Node}
    {enc : Encoded} (ht : Symbols.ofList symbols = .ok tables) (hr : registry.Reachable)
    (hthreshold : 1.0 ≤ options.similarityThreshold)
    (hws : Discernible (tree.widgets ++ registry.samples))
    (h : (⟨tables, registry, strategy, options⟩ : Encoder).encode tree = .ok enc) :
    (⟨tables, registry, options.maxDepth⟩ : Decoder).decode enc.document = .ok tree := by
  have hu := understands_later (e := ⟨tables, registry, strategy, options⟩)
    (d := ⟨tables, registry, options.maxDepth⟩) rfl (Symbols.sound_of_ofList ht) rfl hr.sound
    (.refl registry)
  rw [decode_encode hu h]
  refine congrArg Except.ok (Encoder.echo_eq_self fun w hw => ?_)
  exact keeps_of_exact hr.sound hthreshold hws (List.mem_append_left _ hw)
    fun _ => List.mem_append_right _

/-- A text in the place of another one. -/
theorem decode_encode_text :
    ∃ registry tree enc, registry.Reachable ∧ Discernible (tree.widgets ++ registry.samples) ∧
      (⟨.empty, registry, .hybrid, .default⟩ : Encoder).encode tree = .ok enc ∧
      enc.document = "!Column{}[@w1(b),@w1()]" ∧
      (⟨.empty, registry, EncodeOptions.default.maxDepth⟩ : Decoder).decode enc.document =
        .ok tree := by
  let text (s : String) : Widget := ⟨"Text", [⟨"data", .scalar (.ident s)⟩], []⟩
  let registry : Registry := Registry.empty.perform (.register (text "a"))
  let tree : Node := .widget ⟨"Column", [], [text "b", text "a"]⟩
  have hr : registry.Reachable := .next _ .empty
  have hws : Discernible (tree.widgets ++ registry.samples) :=
    ⟨by decide +kernel, by decide +kernel⟩
  have hdocument : ((⟨.empty, registry, .hybrid, .default⟩ : Encoder).encode tree).map
      (·.document) = .ok "!Column{}[@w1(b),@w1()]" :=
    ok_of_toOption (by decide +kernel)
  clear_value registry tree
  obtain ⟨enc, henc, hdocument⟩ := map_eq_ok.mp hdocument
  have ht : Symbols.ofList [] = .ok .empty := ok_of_toOption (by decide +kernel)
  have h := decode_encode_with_exact_references ht hr (by decide +kernel) hws henc
  exact ⟨registry, tree, enc, hr, hws, henc, hdocument, h⟩

end WidgetShorthand
