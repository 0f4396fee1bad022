import WidgetShorthand.Proofs.SpelledScalars

/-!
# Which names are checked

A tree is rejected for a name in value position exactly when its document would spell that name.
What is left to say is which scalars of a tree these are. A reference spells scalars of the widget
that it replaces, and with exact matches it leaves out only what the sample has in the same slot:
the two shapes are equal, so every scalar of the widget stands in a slot of the pattern. Hence a
name that is no path gets past the check only if a registered widget contains it.

Registering checks no names, so there are such registries, and with one of them a tree is written
that no registry without patterns would take.
-/

namespace WidgetShorthand

variable {s : Scalar}

/-! ## Scalars stand at the ends of paths -/

mutual

theorem mem_scalars_widget : (w : Widget) →
    (s ∈ w.scalars ↔ ∃ q, (Value.widget w).scalarAt? q = some s)
  | ⟨t, ps, cs⟩ => by
      simp only [Widget.scalars, Widget.scalarsUnder, uncut]
      rw [List.mem_append, mem_propertyScalars ps, mem_childScalars cs]
      constructor
      · rintro (⟨⟨key, v⟩, hp, q, hq⟩ | ⟨c, hc, q, hq⟩)
        · obtain ⟨i, hi⟩ := List.mem_iff_getElem?.mp hp
          have hat := propertyAt?_eq_some (w := ⟨t, ps, cs⟩).mpr hi
          exact ⟨.property i key :: q, by rw [scalarAt?_widget_property, hat, Option.bind_some, hq]⟩
        · obtain ⟨i, hi⟩ := List.mem_iff_getElem?.mp hc
          exact ⟨.child i :: q, by rw [scalarAt?_widget_child, hi, Option.bind_some, hq]⟩
      · rintro ⟨q, hq⟩
        cases q with
        | nil => cases hq
        | cons step rest =>
            cases step with
            | property i key =>
                rw [scalarAt?_widget_property, Option.bind_eq_some_iff] at hq
                obtain ⟨v, hv, hq⟩ := hq
                exact .inl ⟨⟨key, v⟩, List.mem_of_getElem? (propertyAt?_eq_some.mp hv), rest, hq⟩
            | child i =>
                rw [scalarAt?_widget_child, Option.bind_eq_some_iff] at hq
                obtain ⟨c, hc, hq⟩ := hq
                exact .inr ⟨c, List.mem_of_getElem? hc, rest, hq⟩
            | item i => cases hq

theorem mem_propertyScalars : (ps : List Property) →
    (s ∈ propertyScalars uncut ps ↔ ∃ p ∈ ps, ∃ q, p.value.scalarAt? q = some s)
  | [] => by simp [propertyScalars]
  | ⟨key, v⟩ :: ps => by
      rw [propertyScalars, List.mem_append, mem_scalars_value v, mem_propertyScalars ps,
        List.exists_mem_cons_iff]

theorem mem_childScalars : (cs : List Widget) →
    (s ∈ childScalars uncut cs ↔ ∃ c ∈ cs, ∃ q, (Value.widget c).scalarAt? q = some s)
  | [] => by simp [childScalars]
  | c :: cs => by
      rw [childScalars, List.mem_append, ← Widget.scalars, mem_scalars_widget c,
        mem_childScalars cs, List.exists_mem_cons_iff]

theorem mem_scalars_value : (v : Value) →
    (s ∈ v.scalarsUnder uncut ↔ ∃ q, v.scalarAt? q = some s)
  | .scalar t => by
      rw [Value.scalarsUnder, List.mem_singleton]
      constructor
      · rintro rfl
        exact ⟨[], rfl⟩
      · rintro ⟨q, hq⟩
        cases q with
        | nil => exact (Option.some.inj hq).symm
        | cons step rest => simp at hq
  | .widget w => by
      rw [Value.scalarsUnder, ← Widget.scalars, mem_scalars_widget w]
  | .list vs => by
      rw [Value.scalarsUnder, mem_itemScalars vs]
      constructor
      · rintro ⟨v, hv, q, hq⟩
        obtain ⟨i, hi⟩ := List.mem_iff_getElem?.mp hv
        exact ⟨.item i :: q, by rw [scalarAt?_list_item, hi, Option.bind_some, hq]⟩
      · rintro ⟨q, hq⟩
        cases q with
        | nil => cases hq
        | cons step rest =>
            cases step with
            | property i key => cases hq
            | child i => simp at hq
            | item i =>
                rw [scalarAt?_list_item, Option.bind_eq_some_iff] at hq
                obtain ⟨v, hv, hq⟩ := hq
                exact ⟨v, List.mem_of_getElem? hv, rest, hq⟩

theorem mem_itemScalars : (vs : List Value) →
    (s ∈ itemScalars uncut vs ↔ ∃ v ∈ vs, ∃ q, v.scalarAt? q = some s)
  | [] => by simp [itemScalars]
  | v :: vs => by
      rw [itemScalars, List.mem_append, mem_scalars_value v, mem_itemScalars vs,
        List.exists_mem_cons_iff]

end

theorem Widget.mem_scalars {w : Widget} : s ∈ w.scalars ↔ ∃ q, w.scalarAt? q = some s := by
  simp only [Widget.scalarAt?_eq]
  exact mem_scalars_widget w

/-! ## From cut widgets to trees -/

/-- A relation of lists that goes from parts to the whole. -/
structure Additive (R : List Scalar → List Scalar → Prop) : Prop where
  refl : ∀ ss, R ss ss
  append : ∀ {ss ss' ts ts'}, R ss ts → R ss' ts' → R (ss ++ ss') (ts ++ ts')

section Traversal

variable {R : List Scalar → List Scalar → Prop} {cut : Widget → Option (List Scalar)}

/-- What a cut leaves of a widget is related to all of its scalars. -/
def RelatedAt (R : List Scalar → List Scalar → Prop) (cut : Widget → Option (List Scalar))
    (w : Widget) : Prop :=
  ∀ left, cut w = some left → R w.scalars left

mutual

theorem related_widget (hR : Additive R) : (w : Widget) → (∀ v ∈ w.subtrees, RelatedAt R cut v) →
    R w.scalars (w.scalarsUnder cut)
  | ⟨t, ps, cs⟩, h => by
      rw [Widget.subtrees, List.forall_mem_cons, List.forall_mem_append] at h
      obtain ⟨hself, hps, hcs⟩ := h
      cases hcut : cut ⟨t, ps, cs⟩ with
      | some left =>
          simp only [Widget.scalarsUnder, hcut]
          exact hself left hcut
      | none =>
          simp only [Widget.scalars, Widget.scalarsUnder, uncut, hcut]
          exact hR.append (related_properties hR ps hps) (related_children hR cs hcs)

theorem related_properties (hR : Additive R) : (ps : List Property) →
    (∀ v ∈ propertySubtrees ps, RelatedAt R cut v) →
      R (propertyScalars uncut ps) (propertyScalars cut ps)
  | [], _ => hR.refl []
  | ⟨key, v⟩ :: ps, h => by
      rw [propertySubtrees, List.forall_mem_append] at h
      exact hR.append (related_value hR v h.1) (related_properties hR ps h.2)

theorem related_children (hR : Additive R) : (cs : List Widget) →
    (∀ v ∈ childSubtrees cs, RelatedAt R cut v) → R (childScalars uncut cs) (childScalars cut cs)
  | [], _ => hR.refl []
  | c :: cs, h => by
      rw [childSubtrees, List.forall_mem_append] at h
      exact hR.append (related_widget hR c h.1) (related_children hR cs h.2)

theorem related_value (hR : Additive R) : (v : Value) → (∀ w ∈ v.subtrees, RelatedAt R cut w) →
    R (v.scalarsUnder uncut) (v.scalarsUnder cut)
  | .scalar s, _ => hR.refl [s]
  | .widget w, h => related_widget hR w h
  | .list vs, h => related_items hR vs h

theorem related_items (hR : Additive R) : (vs : List Value) →
    (∀ w ∈ itemSubtrees vs, RelatedAt R cut w) → R (itemScalars uncut vs) (itemScalars cut vs)
  | [], _ => hR.refl []
  | v :: vs, h => by
      rw [itemSubtrees, List.forall_mem_append] at h
      exact hR.append (related_value hR v h.1) (related_items hR vs h.2)

end

theorem Additive.flatMap {α : Type} {f g : α → List Scalar} {xs : List α} (hR : Additive R)
    (h : ∀ x ∈ xs, R (f x) (g x)) : R (xs.flatMap f) (xs.flatMap g) := by
  induction xs with
  | nil => exact hR.refl []
  | cons x xs ih =>
      rw [List.forall_mem_cons] at h
      rw [List.flatMap_cons, List.flatMap_cons]
      exact hR.append h.1 (ih h.2)

theorem related_option (hR : Additive R) {v : Option Value}
    (h : ∀ w ∈ optionSubtrees v, RelatedAt R cut w) :
    R (optionScalars uncut v) (optionScalars cut v) := by
  cases v with
  | none => exact hR.refl []
  | some v => exact related_value hR v h

theorem related_body (hR : Additive R) {b : MethodBody}
    (h : ∀ w ∈ b.subtrees, RelatedAt R cut w) : R (b.scalarsUnder uncut) (b.scalarsUnder cut) := by
  cases b with
  | widget w => exact related_widget hR w h
  | statements block =>
      refine hR.flatMap fun s hs => related_option hR fun w hw => ?_
      exact h w (List.mem_flatMap_of_mem hs hw)

theorem related_class (hR : Additive R) {c : ClassDecl}
    (h : ∀ w ∈ c.subtrees, RelatedAt R cut w) : R (c.scalarsUnder uncut) (c.scalarsUnder cut) := by
  rw [ClassDecl.subtrees, List.forall_mem_append] at h
  refine hR.append (hR.flatMap fun f hf => ?_) (hR.flatMap fun m hm => ?_)
  · exact related_option hR fun w hw => h.1 w (List.mem_flatMap_of_mem hf hw)
  · exact related_body hR fun w hw => h.2 w (List.mem_flatMap_of_mem hm hw)

mutual

theorem related_node (hR : Additive R) : (n : Node) → (∀ w ∈ n.widgets, RelatedAt R cut w) →
    R n.scalars (n.scalarsUnder cut)
  | .classDecl _, h => related_class hR h
  | .method _, h => related_body hR h
  | .widget w, h => related_widget hR w h
  | .literal l, _ => hR.refl [.literal l]
  | .unit items, h => related_nodes hR items h

theorem related_nodes (hR : Additive R) : (ns : List Node) →
    (∀ w ∈ nodeWidgets ns, RelatedAt R cut w) → R (nodeScalars uncut ns) (nodeScalars cut ns)
  | [], _ => hR.refl []
  | n :: ns, h => by
      rw [nodeWidgets, List.forall_mem_append] at h
      exact hR.append (related_node hR n h.1) (related_nodes hR ns h.2)

end

end Traversal

/-! ## What a reference spells -/

variable {e : Encoder} {entry : Entry} {w : Widget}

theorem additive_superset : Additive fun ss ts => ts ⊆ ss where
  refl := List.Subset.refl
  append h h' := List.append_subset.mpr
    ⟨List.subset_append_of_subset_left _ h, List.subset_append_of_subset_right _ h'⟩

/-- Nothing is missing but what is left out on purpose. -/
theorem additive_subset (out : List Scalar) : Additive fun ss ts => ss ⊆ ts ++ out where
  refl ss := List.subset_append_left ss out
  append := by
    intro ss ss' ts ts' h h'
    grind

theorem mem_arguments_iff :
    s ∈ (Encoder.arguments entry w).flatMap Option.toList ↔
      ∃ q ∈ entry.slots, Encoder.argument entry w q = some s := by
  obtain ⟨n, hn⟩ := dropMissing_append (entry.slots.map (Encoder.argument entry w))
  have hkept : some s ∈ Encoder.arguments entry w ↔
      some s ∈ entry.slots.map (Encoder.argument entry w) := by
    rw [hn, List.mem_append]
    simp [Encoder.arguments]
  rw [← List.mem_map, ← hkept]
  simp

/-- An argument is a scalar of the widget. -/
theorem arguments_subset (entry : Entry) (w : Widget) :
    (Encoder.arguments entry w).flatMap Option.toList ⊆ w.scalars := by
  intro s hs
  obtain ⟨q, _, hq⟩ := mem_arguments_iff.mp hs
  rw [argument_eq, Option.filter_eq_some_iff] at hq
  exact Widget.mem_scalars.mpr ⟨q, hq.1⟩

/-- A scalar of the widget is an argument, or the sample has it in the same slot. -/
theorem subset_arguments (he : entry.Sound) (h : w.shape = entry.sample.shape) :
    w.scalars ⊆ (Encoder.arguments entry w).flatMap Option.toList ++ entry.sample.scalars := by
  intro s hs
  obtain ⟨q, hq⟩ := Widget.mem_scalars.mp hs
  rw [List.mem_append]
  by_cases hsample : entry.sample.scalarAt? q = some s
  · exact .inr (Widget.mem_scalars.mpr ⟨q, hsample⟩)
  · -- Of another shape the path might be none of the pattern's slots, and the scalar would be lost.
    have hslot : q ∈ entry.slots := by
      rw [he.slots, ← Widget.slots_eq_of_shape h]
      exact Widget.mem_slots.mpr ⟨s, hq⟩
    have hargument : Encoder.argument entry w q = some s := by
      rw [argument_eq, hq, Option.filter_some, if_pos (decide_eq_true hsample)]
    exact .inl (mem_arguments_iff.mpr ⟨q, hslot, hargument⟩)

theorem spelled_subset (e : Encoder) (tree : Node) : e.spelled tree ⊆ tree.scalars := by
  refine related_node additive_superset tree fun w _ left hleft => ?_
  obtain ⟨entry, _, rfl⟩ := Option.map_eq_some_iff.mp hleft
  exact arguments_subset entry w

theorem spelled_eq_scalars (h : e.strategy.usesPatterns = false) (tree : Node) :
    e.spelled tree = tree.scalars := by
  have hcut : e.cut = uncut := by
    funext w
    rw [Encoder.cut, matchPattern?_eq_none h, Option.map_none, uncut]
  rw [Encoder.spelled, hcut, Node.scalars]

theorem scalars_subset {tree : Node} (hr : e.registry.Sound)
    (ht : 1.0 ≤ e.options.similarityThreshold)
    (hws : Discernible (tree.widgets ++ e.registry.samples)) :
    tree.scalars ⊆ e.spelled tree ++ e.registry.samples.flatMap Widget.scalars := by
  refine related_node (additive_subset _) tree fun w hw left hleft => ?_
  obtain ⟨entry, hmatch, rfl⟩ := Option.map_eq_some_iff.mp hleft
  have hmem := matchPattern?_mem hmatch
  have hshape := shape_of_exact hr ht hws (List.mem_append_left _ hw)
    (fun _ => List.mem_append_right _) hmatch
  refine List.Subset.trans (subset_arguments (hr.entries entry hmem) hshape) ?_
  refine List.append_subset.mpr ⟨List.subset_append_left _ _, fun s hs => ?_⟩
  exact List.mem_append_right _ (List.mem_flatMap_of_mem (List.mem_map_of_mem hmem) hs)

/-! ## Names that are no paths -/

/-- A tree is not written if its document would spell a name in value position that is no path, and
no other name in value position is the reason of a rejection. What the document spells is part of
the tree; it is all of it without references, and with exact references everything but what the
samples of the registry supply. -/
theorem encode_checks_spelled_names (e : Encoder) (tree : Node) :
    (∀ name, .ident name ∈ e.spelled tree → Text.isPath name = false →
      ∃ err, e.encode tree = .error err) ∧
    (∀ name, e.encode tree = .error (.invalidIdentifier .value name) →
      .ident name ∈ e.spelled tree ∧ Text.isPath name = false) ∧
    e.spelled tree ⊆ tree.scalars ∧
    (e.strategy.usesPatterns = false → e.spelled tree = tree.scalars) ∧
    (e.registry.Reachable → 1.0 ≤ e.options.similarityThreshold →
      Discernible (tree.widgets ++ e.registry.samples) →
      tree.scalars ⊆ e.spelled tree ++ e.registry.samples.flatMap Widget.scalars) := by
  refine ⟨fun name hname hpath => ?_, (checks_encode tree).error, spelled_subset e tree,
    fun h => spelled_eq_scalars h tree, fun hr => scalars_subset hr.sound⟩
  cases h : e.encode tree with
  | error err => exact ⟨err, rfl⟩
  | ok enc =>
      have hok := (checks_encode tree).ok enc h name hname
      rw [hpath] at hok
      cases hok

/-- A name that is no path, written by a reference to a widget that was registered with it. -/
theorem encode_registered_name :
    ∃ registry tree enc, registry.Reachable ∧ .ident "a b" ∈ tree.scalars ∧
      Text.isPath "a b" = false ∧
      (⟨.empty, registry, .patternReference, .default⟩ : Encoder).encode tree = .ok enc ∧
      enc.document = "@w1()" ∧ .ident "a b" ∈ registry.samples.flatMap Widget.scalars := by
  let w : Widget := ⟨"P", [⟨"a", .scalar (.ident "a b")⟩], []⟩
  let registry : Registry := Registry.empty.perform (.register w)
  let tree : Node := .widget w
  have hr : registry.Reachable := .next _ .empty
  have hname : .ident "a b" ∈ tree.scalars := by decide +kernel
  have hpath : Text.isPath "a b" = false := by decide +kernel
  have hws : Discernible (tree.widgets ++ registry.samples) :=
    ⟨by decide +kernel, by decide +kernel⟩
  have hdocument : ((⟨.empty, registry, .patternReference, .default⟩ : Encoder).encode tree).map
      (·.document) = .ok "@w1()" :=
    ok_of_toOption (by decide +kernel)
  clear_value w registry tree
  obtain ⟨enc, henc, hdocument⟩ := map_eq_ok.mp hdocument
  obtain ⟨hrejected, _, _, _, hsamples⟩ :=
    encode_checks_spelled_names ⟨.empty, registry, .patternReference, .default⟩ tree
  refine ⟨registry, tree, enc, hr, hname, hpath, henc, hdocument, ?_⟩
  have hthreshold : 1.0 ≤ EncodeOptions.default.similarityThreshold := by decide +kernel
  -- If the document spelled the name, it would not have been written.
  rcases List.mem_append.mp (hsamples hr hthreshold hws hname) with hspelled | hsample
  · obtain ⟨err, herr⟩ := hrejected "a b" hspelled hpath
    rw [henc] at herr
    cases herr
  · exact hsample

end WidgetShorthand
