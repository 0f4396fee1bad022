import WidgetShorthand.Proofs.RecordReading
import WidgetShorthand.Proofs.RegistryRuns
import WidgetShorthand.Registry.File

/-!
# Saved registries

A registry is written to a file and loaded again. Loading knows nothing but the patterns: it checks
each of them like one from outside and finds the number of the next id from their ids. Both go well
because a registry is made from the empty one by adding its patterns one after the other.

Not every file can be loaded. Registering and writing take samples of any depth, but the reader
gives up where too many arrays and objects are open. The samples decide, as everything else in a
file is shallow, and a single one that goes too deep loses the whole registry.
-/

namespace WidgetShorthand

open Json

/-! ## Reading the records -/

theorem timestamp?_text (now : Text.Timestamp) :
    timestamp? (ofString now.text) = some now.text := by
  simp [timestamp?, now.valid]

theorem Description.gives_ofJson? (d : Description) (levels : Nat) :
    Gives (Description.ofJson? levels d.toJson) (d.toJson.depth ≤ levels) d := by
  cases levels with
  | zero => exact gives_none not_depth_object_le
  | succ levels =>
      rw [ofJson?, toJson, fields?_record (by decide) rfl]
      simpa using (gives_texts d.tags levels).pure
        (Description.mk d.name d.text d.category · d.version)

namespace Entry

variable (now : Text.Timestamp) (e : Entry) (levels : Nat)

/-- The steps of the slots have indices that fit a word. -/
def Indexed : Prop :=
  ∀ path ∈ e.slots, ∀ step ∈ path, step.index ≤ maxWord

theorem gives_ofJson? :
    Gives (Entry.ofJson? levels (e.toJson now)) (e.Indexed ∧ (e.toJson now).depth ≤ levels) e := by
  cases levels with
  | zero => exact gives_none fun h => not_depth_object_le h.2
  | succ levels =>
      have hslots := gives_list_map gives_slotPath e.slots levels
      have hsample := e.sample.gives_ofJson? levels
      have habout := e.about.gives_ofJson? levels
      rw [ofJson?, toJson, fields?_record (by decide) rfl]
      simpa [timestamp?_text, Indexed, and_assoc] using
        hslots.bind (hsample.bind (habout.pure (Entry.mk e.fingerprint e.id e.slots e.sample)))

variable {levels} in
/-- Slots and descriptions have few parts inside each other, so the sample decides. -/
theorem depth_toJson_le_iff (hl : 3 ≤ levels) :
    (e.toJson now).depth ≤ levels + 1 ↔ e.sample.toJson.depth ≤ levels := by
  have hslots : (array (e.slots.map slotPathToJson)).depth ≤ levels := by
    refine Nat.le_trans ?_ hl
    rw [depth_array_le, itemsDepth_map_le]
    intro path _
    rw [slotPathToJson, depth_array_le, itemsDepth_map_le]
    exact fun step _ => step.depth_toJson_le
  have habout : e.about.toJson.depth ≤ levels := by
    refine Nat.le_trans ?_ (Nat.le_of_succ_le hl)
    simpa [Description.toJson] using depth_texts_le e.about.tags
  simp [toJson, hslots, habout]

/-- The pattern is one that a file can give back. Around its sample the file, the list of patterns
and the pattern are open, and the indices in its slots are read as words. -/
def Loadable : Prop :=
  e.sample.toJson.depth + 3 ≤ nestingLimit ∧ e.Indexed

instance : Decidable e.Loadable :=
  inferInstanceAs (Decidable (_ ∧ ∀ path ∈ e.slots, ∀ step ∈ path, step.index ≤ maxWord))

theorem storable_toJson : Storable (e.toJson now) := by
  have hslots := storableItems_map storable_slotPath e.slots
  simp [toJson, Description.toJson, hslots, e.sample.storable_toJson, storable_texts]

end Entry

namespace Registry

variable {r r' : Registry} {entry : Entry} (now : Text.Timestamp)

theorem gives_recordOfJson? (r : Registry) (levels : Nat) :
    Gives (recordOfJson? levels (r.toJson now))
      ((∀ e ∈ r.entries, e.Indexed) ∧ (r.toJson now).depth ≤ levels) (fileVersion, r.entries) := by
  cases levels with
  | zero => exact gives_none fun h => not_depth_object_le h.2
  | succ levels =>
      have hversion : Gives (nat? (UInt32.size - 1) (ofNat fileVersion)) True fileVersion :=
        (gives_nat _ _).congr (iff_of_true (by decide) trivial)
      have hentries := gives_list_map (Entry.gives_ofJson? now) r.entries levels
      rw [recordOfJson?, toJson, fields?_record (by decide) rfl]
      simpa [timestamp?_text] using hversion.bind (hentries.pure (Prod.mk fileVersion))

theorem storable_toJson (r : Registry) : Storable (r.toJson now) := by
  have hentries := storableItems_map (Entry.storable_toJson now) r.entries
  simp [toJson, hentries]

/-! ## Accepting the patterns again -/

/-- A pattern that was added is accepted in its place again. -/
theorem Sound.accept (h : (r.push entry).Sound) :
    r.Sound ∧ r.accept entry = .ok (r.push entry) := by
  obtain ⟨hr, he, hid, hf⟩ := sound_push_iff.mp h
  refine ⟨hr, ?_⟩
  rw [Registry.accept, he.check, hid, hf]
  rfl

theorem ofEntries_of_sound {entries : List Entry} (h : (entries.foldl push empty).Sound) :
    ofEntries entries = .ok (entries.foldl push empty) := by
  induction entries using List.reverseRecOn with
  | nil => rfl
  | append_singleton entries entry ih =>
      -- The registry without its last pattern is sound too, and the pattern was free in it.
      rw [List.foldl_concat] at h ⊢
      obtain ⟨hsound, haccept⟩ := Sound.accept h
      have hsplit : ofEntries (entries ++ [entry]) = ofEntries entries >>= (·.accept entry) := by
        rw [ofEntries, List.foldlM_append]
        exact bind_congr fun r => bind_pure (r.accept entry)
      rw [hsplit, bind_of_ok (ih hsound), haccept]

/-- The registry is what adding its patterns to the empty one makes. -/
def Replayed (r : Registry) : Prop :=
  r.entries.foldl push empty = r

theorem Replayed.push (h : r.Replayed) (entry : Entry) : (r.push entry).Replayed := by
  rw [Replayed, entries_push, List.foldl_concat, h]

theorem Reachable.replayed (h : Reachable r) : r.Replayed :=
  h.of_push rfl fun _ entry hr => hr.push entry

/-- Loading the patterns of a registry makes the registry. -/
theorem Reachable.ofEntries_entries (h : Reachable r) : ofEntries r.entries = .ok r := by
  have hr := h.replayed
  rw [Replayed] at hr
  have hload := ofEntries_of_sound (hr.symm ▸ h.sound)
  rwa [hr] at hload

/-! ## Loading -/

theorem depth_toJson_le_iff (r : Registry) {levels : Nat} (hl : 3 ≤ levels) :
    (r.toJson now).depth ≤ levels + 3 ↔ ∀ e ∈ r.entries, e.sample.toJson.depth ≤ levels := by
  have hentries : (r.toJson now).depth ≤ levels + 3 ↔
      (array (r.entries.map (Entry.toJson now))).depth ≤ levels + 2 := by
    simp [toJson]
  rw [hentries, depth_array_le, itemsDepth_map_le]
  exact forall₂_congr fun e _ => e.depth_toJson_le_iff now hl

/-- A file gives back the registry that was written to it, with its patterns in their order and the
number of the next id, exactly when each pattern is one that a file can give back. -/
theorem load_save (h : Reachable r) : ofText (r.toText now) =
    if ∀ e ∈ r.entries, e.Loadable then .ok r else .error .malformed := by
  -- File, list and pattern are shallow enough for the limit, so only the samples are left.
  have hdepth : (r.toJson now).depth ≤ nestingLimit ↔
      ∀ e ∈ r.entries, e.sample.toJson.depth + 3 ≤ nestingLimit :=
    (r.depth_toJson_le_iff now (by decide : 3 ≤ nestingLimit - 3)).trans
      (forall₂_congr fun _ _ => Nat.add_le_add_iff_right.symm)
  have hread : Gives ((parse? (r.toText now)).bind (recordOfJson? nestingLimit))
      (∀ e ∈ r.entries, e.Loadable) (fileVersion, r.entries) := by
    rw [toText, parse?_prettyText (r.storable_toJson now)]
    refine (gives_recordOfJson? now r nestingLimit).congr ?_
    rw [hdepth, ← forall₂_and]
    exact forall₂_congr fun _ _ => and_comm
  by_cases hloadable : ∀ e ∈ r.entries, e.Loadable
  · rw [ofText, hread.eq_some hloadable, if_pos hloadable]
    exact h.ofEntries_entries
  · rw [ofText, hread.eq_none hloadable, if_neg hloadable]

/-- Widgets that are each the only child of the next one. -/
def nested : Nat → Widget
  | 0 => Stock.leaf "Spacer" []
  | n + 1 => ⟨"Column", [], [nested n]⟩

theorem depth_nested (n : Nat) : (nested n).toJson.depth = 2 * n + 2 := by
  induction n with
  | zero => rfl
  | succ n ih =>
      rw [nested, Widget.toJson]
      simp [depth, membersDepth, itemsDepth, field, propertiesToJson, widgetsToJson, ih, ofString]
      omega

theorem slots_nested (n : Nat) : (nested n).slots = [] := by
  induction n with
  | zero => rfl
  | succ n ih => simp [nested, Widget.slots, propertySlots, childSlots, ih]

/-- Sixty-two widgets inside each other can be loaded, and no more. -/
theorem loadable_nested (id : String) (n : Nat) (about : Description) :
    (Entry.ofWidget id (nested n) about).Loadable ↔ n ≤ 61 := by
  have hslots : (Entry.ofWidget id (nested n) about).slots = [] := slots_nested n
  have hdepth : (Entry.ofWidget id (nested n) about).sample.toJson.depth = 2 * n + 2 :=
    depth_nested n
  rw [Entry.Loadable, Entry.Indexed, hslots, hdepth, nestingLimit]
  simp
  omega

/-- With one widget more inside each other, a registry that was written cannot be loaded. -/
theorem load_save_nested :
    let saved n := empty.perform (.register (nested n))
    Reachable (saved 61) ∧ ofText ((saved 61).toText .epoch) = .ok (saved 61) ∧
      Reachable (saved 62) ∧ ofText ((saved 62).toText .epoch) = .error .malformed := by
  intro saved
  have hsaved : ∀ n, Reachable (saved n) := fun n => .next _ .empty
  have hentries : ∀ n, (saved n).entries = [.ofWidget "w1" (nested n) .default] :=
    fun n => entries_perform_empty (nested n)
  refine ⟨hsaved 61, ?_, hsaved 62, ?_⟩
  · rw [load_save _ (hsaved 61), hentries, if_pos]
    simp [loadable_nested]
  · rw [load_save _ (hsaved 62), hentries, if_neg]
    simp [loadable_nested]

end Registry

end WidgetShorthand
