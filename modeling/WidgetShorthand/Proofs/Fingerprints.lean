import WidgetShorthand.Proofs.RoundTrip

/-!
# What fingerprints tell apart

A fingerprint is the hash of the tokens of a shape, with a separator between each two of them.
Nothing keeps the separator out of the names in a widget. A name that contains it is cut in pieces,
and the pieces can be the texts of other tokens, so what the hashed text tells apart is the pieces
and not the tokens. The two agree as long as the separator occurs in no name.

A widget is matched with the patterns of a registry before its names are looked at, and by its
fingerprint alone. So whenever the pieces are those of a sample, a reference takes the place of the
widget, also where the shapes are different and another widget comes back.
-/

namespace WidgetShorthand

variable {w w' : Widget} {entry : Entry}

/-! ## Pieces -/

/-- Joining with a separator and cutting at it cuts each part on its own. -/
theorem splitOn_intercalate_eq_flatMap {α : Type} [BEq α] [LawfulBEq α] (x : α)
    {parts : List (List α)} (h : parts ≠ []) :
    ([x].intercalate parts).splitOn x = parts.flatMap (List.splitOn x) := by
  induction parts with
  | nil => exact absurd rfl h
  | cons part rest ih =>
      cases rest with
      | nil => rw [List.intercalate_singleton, List.flatMap_singleton]
      | cons next rest =>
          rw [List.flatMap_cons, ← ih (List.cons_ne_nil next rest), List.intercalate_cons_cons,
            List.append_assoc, List.singleton_append, List.splitOn_append_cons_self]

/-- The tokens of a shape, cut wherever the separator occurs in a name. -/
def Widget.pieces (w : Widget) : List (List Char) :=
  w.shape.flatMap fun t => t.text.toList.splitOn separator

theorem splitOn_hashedText (w : Widget) : w.hashedText.toList.splitOn separator = w.pieces := by
  have hne : w.shape.map (fun t => t.text.toList) ≠ [] := by simpa using w.shape_ne_nil
  rw [Widget.hashedText, joinTokens, String.toList_intercalate, List.map_map]
  exact (splitOn_intercalate_eq_flatMap separator hne).trans (List.flatMap_map ..)

theorem hashedText_eq_iff : w.hashedText = w'.hashedText ↔ w.pieces = w'.pieces := by
  -- No piece is lost, so the pieces give the text back.
  have hjoin : ∀ w : Widget, [separator].intercalate w.pieces = w.hashedText.toList := by
    intro w
    rw [← splitOn_hashedText, List.intercalate_splitOn]
  constructor
  · intro h
    rw [← splitOn_hashedText, h, splitOn_hashedText]
  · intro h
    exact String.toList_injective (by rw [← hjoin, h, hjoin])

/-! ## Exact matches -/

theorem lookup?_of_pieces {r : Registry} (hr : r.Sound) (hmem : entry ∈ r.entries)
    (h : w.pieces = entry.sample.pieces) : r.lookup? w.fingerprint = some entry := by
  have hfingerprint : w.fingerprint = entry.fingerprint := by
    rw [(hr.entries entry hmem).fingerprint]
    exact congrArg fingerprintText (hashedText_eq_iff.mpr h)
  rw [hfingerprint]
  exact hr.lookup?_of_mem hmem

theorem hashedText_of_lookup? {r : Registry} (hr : r.Sound)
    (hdigest : fingerprintText w.hashedText = fingerprintText entry.sample.hashedText →
      w.hashedText = entry.sample.hashedText)
    (h : r.lookup? w.fingerprint = some entry) : w.hashedText = entry.sample.hashedText := by
  obtain ⟨hmem, hfingerprint⟩ := Registry.mem_of_lookup? h
  exact hdigest (hfingerprint.symm.trans (hr.entries entry hmem).fingerprint)

/-- Hashed texts are equal exactly if they have equal pieces, which for names without separators
means equal shapes. So, but for collisions of digests, the widgets that an exact match replaces are
those with the pieces of the pattern's sample, and they have its shape if no name contains the
separator. -/
theorem fingerprints_separate_pieces (w w' : Widget) :
    (w.hashedText = w'.hashedText ↔ w.pieces = w'.pieces) ∧
    ((∀ name ∈ w.names ++ w'.names, separator ∉ name.toList) →
      w.shape ≠ w'.shape → w.hashedText ≠ w'.hashedText) ∧
    ∀ (e : Encoder) (entry : Entry), e.registry.Reachable → entry ∈ e.registry.entries →
      entry.sample = w' →
      (fingerprintText w.hashedText = fingerprintText w'.hashedText →
        w.hashedText = w'.hashedText) →
      (e.registry.lookup? w.fingerprint = some entry ↔ w.pieces = w'.pieces) ∧
      (e.strategy.usesPatterns = true → w.pieces = w'.pieces → e.matchPattern? w = some entry) ∧
      ((∀ name ∈ w.names ++ w'.names, separator ∉ name.toList) →
        e.registry.lookup? w.fingerprint = some entry → w.shape = w'.shape) := by
  have hshape (hnames : ∀ name ∈ w.names ++ w'.names, separator ∉ name.toList) :
      w.hashedText = w'.hashedText → w.shape = w'.shape := by
    rw [List.forall_mem_append] at hnames
    exact w.shape_eq_of_hashedText hnames.1 hnames.2
  refine ⟨hashedText_eq_iff, fun hnames => mt (hshape hnames), ?_⟩
  rintro e entry hr hmem rfl hdigest
  have hsound := hr.sound
  refine ⟨⟨fun h => ?_, lookup?_of_pieces hsound hmem⟩, fun hp h => ?_, fun hnames h => ?_⟩
  · exact hashedText_eq_iff.mp (hashedText_of_lookup? hsound hdigest h)
  · rw [Encoder.matchPattern?, if_pos hp, lookup?_of_pieces hsound hmem h]
  · exact hshape hnames (hashedText_of_lookup? hsound hdigest h)

/-- One key with separators inside it looks like two keys: the widget with the one key is written as
a reference to a widget with the two, and that is what comes back. -/
theorem match_key_with_separators :
    ∃ (w w' : Widget) (tables : Symbols) (registry : Registry) (entry : Entry) (enc : Encoded),
      w.shape ≠ w'.shape ∧ w.hashedText = w'.hashedText ∧
      Symbols.ofList [⟨.property, "x\x1f?\x1fK:y", "z"⟩] = .ok tables ∧ registry.Reachable ∧
      (⟨tables, registry, .patternReference, .default⟩ : Encoder).matchPattern? w = some entry ∧
      entry.sample = w' ∧
      (⟨tables, registry, .patternReference, .default⟩ : Encoder).encode (.widget w) = .ok enc ∧
      (⟨tables, registry, EncodeOptions.default.maxDepth⟩ : Decoder).decode enc.document =
        .ok (.widget w') := by
  let w : Widget := ⟨"A", [⟨"x\x1f?\x1fK:y", .scalar (.number "1")⟩], []⟩
  let w' : Widget := ⟨"A", [⟨"x", .scalar (.number "1")⟩, ⟨"y", .scalar (.number "2")⟩], []⟩
  let tables : Symbols := ⟨.empty .type, ⟨.property, [("x\x1f?\x1fK:y", "z")]⟩, .empty .keyword,
    .empty .literal⟩
  let registry : Registry := Registry.empty.perform (.register w')
  let entry : Entry := .ofWidget "w1" w' .default
  have hr : registry.Reachable := .next _ .empty
  have hmem : entry ∈ registry.entries := by decide +kernel
  have hshape : w.shape ≠ w'.shape := by decide +kernel
  have hpieces : w.pieces = w'.pieces := by decide +kernel
  have ht : Symbols.ofList [⟨.property, "x\x1f?\x1fK:y", "z"⟩] = .ok tables :=
    ok_of_toOption (by decide +kernel)
  have hdocument : ((⟨tables, registry, .patternReference, .default⟩ : Encoder).encode
      (.widget w)).map (·.document) = .ok "@w1()" :=
    ok_of_toOption (by decide +kernel)
  have hdecode : (⟨tables, registry, EncodeOptions.default.maxDepth⟩ : Decoder).decode "@w1()" =
      .ok (.widget w') :=
    ok_of_toOption (by decide +kernel)
  have hsample : entry.sample = w' := rfl
  clear_value w w' tables registry entry
  obtain ⟨enc, henc, hdocument⟩ := map_eq_ok.mp hdocument
  obtain ⟨htext, _, hmatch⟩ := fingerprints_separate_pieces w w'
  have hhashed := htext.mpr hpieces
  obtain ⟨_, hreplaced, _⟩ := hmatch ⟨tables, registry, .patternReference, .default⟩ entry hr hmem
    hsample fun _ => hhashed
  refine ⟨w, w', tables, registry, entry, enc, hshape, hhashed, ht, hr, hreplaced rfl hpieces,
    hsample, henc, ?_⟩
  rw [hdocument, hdecode]

end WidgetShorthand
