import WidgetShorthand.Proofs.JsonReading
import WidgetShorthand.Tree.Json

/-!
# Records are read back

What was written as a record is read as what it was, exactly when the reader may open as many arrays
and objects as the record has inside each other. `Gives` says this of the result of a reader: it is
the value under a condition, and nothing without it. One reader after another joins the conditions,
so a record comes down to its fields, and a field has one level less than the record.

Only steps ask for more than levels: their indices are read as words. A step is also looked at as a
whole before it is read, but whatever index fits a word passes there.
-/

namespace WidgetShorthand

namespace Json

variable {α β : Type}

mutual

/-- The number of arrays and objects inside each other. -/
def depth : Json → Nat
  | .array items => itemsDepth items + 1
  | .object members => membersDepth members + 1
  | .null | .bool _ | .number _ | .string _ => 0

def itemsDepth : List Json → Nat
  | [] => 0
  | j :: js => max j.depth (itemsDepth js)

def membersDepth : List Member → Nat
  | [] => 0
  | ⟨_, j⟩ :: ms => max j.depth (membersDepth ms)

end

/-! ## Results under a condition -/

/-- A result that is `x` when the condition holds, and nothing otherwise. -/
def Gives (result : Option α) (condition : Prop) (x : α) : Prop :=
  ∀ y, result = some y ↔ condition ∧ x = y

section Gives

variable {o : Option α} {f : α → Option β} {p q : Prop} {x : α} {y : β}

theorem Gives.eq_some (h : Gives o p x) (hp : p) : o = some x :=
  (h x).mpr ⟨hp, rfl⟩

theorem Gives.eq_none (h : Gives o p x) (hp : ¬p) : o = none :=
  Option.eq_none_iff_forall_ne_some.mpr fun y hy => hp ((h y).mp hy).1

theorem gives_some (x : α) : Gives (some x) True x := by
  intro y
  rw [Option.some.injEq, true_and]

theorem gives_none (hp : ¬p) : Gives none p x := by
  intro y
  exact ⟨nofun, fun h => absurd h.1 hp⟩

theorem Gives.congr (h : Gives o p x) (hpq : p ↔ q) : Gives o q x := by
  intro y
  rw [h y, hpq]

theorem Gives.bind (h : Gives o p x) (hf : Gives (f x) q y) : Gives (o.bind f) (p ∧ q) y := by
  intro z
  rw [Option.bind_eq_some_iff]
  constructor
  · rintro ⟨x', hx', hz⟩
    obtain ⟨hp, rfl⟩ := (h x').mp hx'
    obtain ⟨hq, rfl⟩ := (hf z).mp hz
    exact ⟨⟨hp, hq⟩, rfl⟩
  · rintro ⟨⟨hp, hq⟩, rfl⟩
    exact ⟨x, h.eq_some hp, hf.eq_some hq⟩

theorem Gives.pure (h : Gives o p x) (f : α → β) : Gives (o.bind fun x => some (f x)) p (f x) :=
  (h.bind (gives_some (f x))).congr (and_iff_left trivial)

end Gives

/-! ## Fields -/

section Fields

variable {names : List String} {found : List Found} {key name : String} {j : Json}
  {read : Json → Option α} {fallback : α}

/-- The names found may be some of the known ones only, which is what the tail of a record needs. -/
theorem knownMembers_record {known : List String} {ms : List Member} (hn : names.Nodup)
    (hknown : names ⊆ known) (hkeys : ms.map (·.key) = names.map some) :
    knownMembers known ms = some (List.zipWith Found.mk names (ms.map (·.value))) := by
  induction names generalizing ms with
  | nil =>
      obtain rfl := List.map_eq_nil_iff.mp hkeys
      rfl
  | cons name names ih =>
      obtain ⟨hname, hn⟩ := List.nodup_cons.mp hn
      obtain ⟨hmem, hknown⟩ := List.cons_subset.mp hknown
      obtain ⟨⟨_, j⟩, ms', rfl, rfl, hkeys'⟩ := List.map_eq_cons_iff.mp hkeys
      have hnew : ∀ f ∈ List.zipWith Found.mk names (ms'.map (·.value)), ¬f.name = name := by
        rintro f hf rfl
        rw [← List.map_uncurry_zip_eq_zipWith, List.mem_map] at hf
        obtain ⟨_, hf, rfl⟩ := hf
        exact hname (List.of_mem_zip hf).1
      simpa [knownMembers, ih hn hknown hkeys', hmem] using hnew

/-- A record that has all its fields, each once, is found field by field. -/
theorem fields?_record {ms : List Member} (hn : names.Nodup)
    (hkeys : ms.map (·.key) = names.map some) :
    fields? names (.object ms) = some (List.zipWith Found.mk names (ms.map (·.value))) :=
  knownMembers_record hn (List.Subset.refl names) hkeys

@[simp]
theorem required_cons_self : required (⟨name, j⟩ :: found) name read = read j := by
  simp [required]

@[simp]
theorem required_cons_of_ne (h : key ≠ name) :
    required (⟨key, j⟩ :: found) name read = required found name read := by
  simp [required, h]

@[simp]
theorem orElse_cons_self : orElse (⟨name, j⟩ :: found) name fallback read = read j := by
  simp [orElse]

@[simp]
theorem orElse_cons_of_ne (h : key ≠ name) :
    orElse (⟨key, j⟩ :: found) name fallback read = orElse found name fallback read := by
  simp [orElse, h]

end Fields

@[simp]
theorem value_field (key : String) (j : Json) : (field key j).value = j := rfl

@[simp]
theorem choice?_tagged (tag : String) (j : Json) : choice? (tagged tag j) = some (tag, j) := rfl

/-! ## Atoms -/

@[simp]
theorem text?_ofString (s : String) : text? (ofString s) = some s := rfl

theorem gives_nat (n limit : Nat) : Gives (nat? limit (ofNat n)) (n ≤ limit) n := by
  rw [ofNat, nat?, toNat?_ofNat]
  split
  · next h => exact (gives_some n).congr (iff_of_true trivial h)
  · next h => exact gives_none h

theorem gives_word (n : Nat) : Gives (word? (ofNat n)) (n ≤ maxWord) n :=
  gives_nat n maxWord

theorem sound_ofNat {n : Nat} (h : n ≤ maxWord) (levels : Nat) : sound levels (ofNat n) = true := by
  rw [ofNat, sound, Number.isInRange, toNat?_ofNat, if_pos h]
  rfl

theorem sound_ofString (s : String) (levels : Nat) : sound levels (ofString s) = true := by
  rw [ofString, sound]
  rfl

/-! ## Depths -/

section Depth

variable {key tag : String} {j : Json} {js : List Json} {ms : List Member} {levels : Nat}

@[simp]
theorem depth_ofString (s : String) : (ofString s).depth = 0 := rfl

@[simp]
theorem depth_ofNat (n : Nat) : (ofNat n).depth = 0 := rfl

@[simp]
theorem depth_array_le : (array js).depth ≤ levels + 1 ↔ itemsDepth js ≤ levels :=
  Nat.succ_le_succ_iff

@[simp]
theorem depth_object_le : (object ms).depth ≤ levels + 1 ↔ membersDepth ms ≤ levels :=
  Nat.succ_le_succ_iff

theorem not_depth_array_le : ¬(array js).depth ≤ 0 :=
  Nat.not_succ_le_zero _

theorem not_depth_object_le : ¬(object ms).depth ≤ 0 :=
  Nat.not_succ_le_zero _

theorem itemsDepth_cons_le :
    itemsDepth (j :: js) ≤ levels ↔ j.depth ≤ levels ∧ itemsDepth js ≤ levels :=
  Nat.max_le

theorem itemsDepth_map_le {write : α → Json} {xs : List α} :
    itemsDepth (xs.map write) ≤ levels ↔ ∀ x ∈ xs, (write x).depth ≤ levels := by
  induction xs with
  | nil => exact iff_of_true (Nat.zero_le levels) nofun
  | cons x xs ih => rw [List.map_cons, itemsDepth_cons_le, ih, List.forall_mem_cons]

@[simp]
theorem membersDepth_nil : membersDepth [] = 0 := rfl

@[simp]
theorem membersDepth_field_le :
    membersDepth (field key j :: ms) ≤ levels ↔ j.depth ≤ levels ∧ membersDepth ms ≤ levels :=
  Nat.max_le

@[simp]
theorem depth_tagged_le : (tagged tag j).depth ≤ levels + 1 ↔ j.depth ≤ levels := by
  rw [tagged, depth_object_le, membersDepth_field_le, membersDepth_nil]
  exact and_iff_left (Nat.zero_le levels)

theorem depth_texts_le (texts : List String) : (textsToJson texts).depth ≤ 1 := by
  rw [textsToJson, depth_array_le, itemsDepth_map_le]
  exact fun s _ => Nat.le_refl 0

end Depth

/-! ## Storable values -/

section Storable

variable {key tag : String} {j : Json} {js : List Json} {ms : List Member}

@[simp]
theorem storable_ofString (s : String) : Storable (ofString s) := rfl

@[simp]
theorem storable_ofNat (n : Nat) : Storable (ofNat n) := ⟨n, rfl⟩

@[simp]
theorem storable_array : Storable (.array js) ↔ StorableItems js := Iff.rfl

@[simp]
theorem storable_object : Storable (.object ms) ↔ StorableMembers ms := Iff.rfl

@[simp]
theorem storableItems_cons : StorableItems (j :: js) ↔ Storable j ∧ StorableItems js := Iff.rfl

@[simp]
theorem storableMembers_nil : StorableMembers [] := trivial

@[simp]
theorem storableMembers_field :
    StorableMembers (field key j :: ms) ↔ Storable j ∧ StorableMembers ms :=
  and_iff_right rfl

@[simp]
theorem storable_tagged : Storable (tagged tag j) ↔ Storable j := by
  simp [tagged]

theorem storableItems_map {write : α → Json} (h : ∀ x, Storable (write x)) (xs : List α) :
    StorableItems (xs.map write) := by
  induction xs with
  | nil => trivial
  | cons x xs ih => exact ⟨h x, ih⟩

theorem storable_texts (texts : List String) : Storable (textsToJson texts) :=
  storableItems_map storable_ofString texts

end Storable

/-! ## Lists -/

section Lists

variable {read : Nat → Json → Option α} {write : α → Json} {j : Json} {js : List Json} {x : α}
  {xs : List α}

theorem gives_mapM_nil {read : Json → Option α} : Gives (([] : List Json).mapM read) True [] :=
  gives_some []

theorem gives_mapM_cons {read : Json → Option α} {p q : Prop} (hx : Gives (read j) p x)
    (hxs : Gives (js.mapM read) q xs) : Gives ((j :: js).mapM read) (p ∧ q) (x :: xs) := by
  rw [List.mapM_cons]
  exact hx.bind (hxs.pure (x :: ·))

/-- An array opens one level, and leaves the others to its items. -/
theorem gives_list (h : ∀ levels, Gives (js.mapM (read levels)) (itemsDepth js ≤ levels) xs)
    (levels : Nat) : Gives (list read levels (.array js)) ((array js).depth ≤ levels) xs := by
  cases levels with
  | zero => exact gives_none not_depth_array_le
  | succ levels => exact (h levels).congr depth_array_le.symm

theorem gives_mapM {read : Json → Option α} {p : α → Prop} (h : ∀ x, Gives (read (write x)) (p x) x)
    (xs : List α) : Gives ((xs.map write).mapM read) (∀ x ∈ xs, p x) xs := by
  induction xs with
  | nil => exact gives_mapM_nil.congr (iff_of_true trivial nofun)
  | cons x xs ih => exact (gives_mapM_cons (h x) ih).congr List.forall_mem_cons.symm

/-- A list of values of which each is read for itself. -/
theorem gives_list_map {ok : α → Prop}
    (h : ∀ x levels, Gives (read levels (write x)) (ok x ∧ (write x).depth ≤ levels) x)
    (xs : List α) (levels : Nat) : Gives (list read levels (.array (xs.map write)))
      ((∀ x ∈ xs, ok x) ∧ (array (xs.map write)).depth ≤ levels) xs := by
  cases levels with
  | zero => exact gives_none fun h => not_depth_array_le h.2
  | succ levels =>
      refine (gives_mapM (fun x => h x levels) xs).congr ?_
      rw [depth_array_le, itemsDepth_map_le, ← forall₂_and]

theorem gives_texts (texts : List String) (levels : Nat) :
    Gives (Json.texts levels (textsToJson texts)) ((textsToJson texts).depth ≤ levels) texts := by
  have htext : ∀ (s : String) (levels : Nat),
      Gives (text? (ofString s)) (True ∧ (ofString s).depth ≤ levels) s :=
    fun s levels => (gives_some s).congr (iff_of_true trivial ⟨trivial, Nat.zero_le levels⟩)
  exact (gives_list_map htext texts levels).congr (and_iff_right fun _ _ => trivial)

end Lists

end Json

open Json

/-! ## Trees -/

theorem LiteralKind.ofJson?_name (kind : LiteralKind) (levels : Nat) :
    LiteralKind.ofJson? levels (ofString kind.name) = some kind := by
  cases kind <;> cases levels <;> rfl

theorem Literal.gives_ofJson? (l : Literal) (levels : Nat) :
    Gives (Literal.ofJson? levels l.toJson) (l.toJson.depth ≤ levels) l := by
  cases levels with
  | zero => exact gives_none not_depth_object_le
  | succ levels =>
      rw [ofJson?, toJson, fields?_record (by decide) rfl]
      simpa [LiteralKind.ofJson?_name] using gives_some l

/-! The lists inside trees are read like all other lists. -/

theorem propertiesOfJson?_eq : propertiesOfJson? = Json.list Property.ofJson? := by
  funext levels j
  cases levels <;> cases j <;> rfl

theorem widgetsOfJson?_eq : widgetsOfJson? = Json.list Widget.ofJson? := by
  funext levels j
  cases levels <;> cases j <;> rfl

theorem valuesOfJson?_eq : valuesOfJson? = Json.list Value.ofJson? := by
  funext levels j
  cases levels <;> cases j <;> rfl

theorem Scalar.gives_ofJson? (s : Scalar) (levels : Nat) :
    Gives (Value.ofJson? levels s.toJson) (s.toJson.depth ≤ levels) (.scalar s) := by
  cases levels with
  | zero => cases s <;> exact gives_none not_depth_object_le
  | succ levels =>
      rw [Value.ofJson?]
      cases s with
      | literal l =>
          simpa [toJson] using (l.gives_ofJson? levels).pure fun l => Value.scalar (.literal l)
      | ident name => simpa [toJson] using gives_some (Value.scalar (.ident name))
      | expr text => simpa [toJson] using gives_some (Value.scalar (.expr text))

theorem Literal.storable_toJson (l : Literal) : Storable l.toJson := by
  simp [toJson]

theorem Scalar.storable_toJson (s : Scalar) : Storable s.toJson := by
  cases s <;> simp [toJson, Literal.storable_toJson]

mutual

theorem Widget.storable_toJson : (w : Widget) → Storable w.toJson
  | ⟨_, properties, children⟩ => by
      rw [Widget.toJson]
      simp [storable_properties properties, storable_children children]

theorem storable_properties : (properties : List Property) →
    StorableItems (propertiesToJson properties)
  | [] => trivial
  | ⟨_, v⟩ :: properties => by
      rw [propertiesToJson]
      simp [Value.storable_toJson v, storable_properties properties]

theorem storable_children : (children : List Widget) → StorableItems (widgetsToJson children)
  | [] => trivial
  | w :: children => ⟨Widget.storable_toJson w, storable_children children⟩

theorem Value.storable_toJson : (v : Value) → Storable v.toJson
  | .scalar s => s.storable_toJson
  | .widget w => by
      rw [Value.toJson]
      simp [Widget.storable_toJson w]
  | .list items => by
      rw [Value.toJson]
      simp [storable_items items]

theorem storable_items : (items : List Value) → StorableItems (valuesToJson items)
  | [] => trivial
  | v :: items => ⟨Value.storable_toJson v, storable_items items⟩

end

mutual

theorem Widget.gives_ofJson? : (w : Widget) → (levels : Nat) →
    Gives (Widget.ofJson? levels w.toJson) (w.toJson.depth ≤ levels) w
  | ⟨_, _, _⟩, 0 => gives_none not_depth_object_le
  | ⟨typeName, properties, children⟩, levels + 1 => by
      have hproperties := gives_list fun levels => gives_properties properties levels
      have hchildren := gives_list fun levels => gives_children children levels
      rw [Widget.ofJson?, Widget.toJson, fields?_record (by decide) rfl, propertiesOfJson?_eq,
        widgetsOfJson?_eq]
      simpa using (hproperties levels).bind
        ((hchildren levels).pure (Widget.mk typeName properties))

theorem gives_properties : (properties : List Property) → (levels : Nat) →
    Gives ((propertiesToJson properties).mapM (Property.ofJson? levels))
      (itemsDepth (propertiesToJson properties) ≤ levels) properties
  | [], levels => gives_mapM_nil.congr (iff_of_true trivial (Nat.zero_le levels))
  | ⟨key, v⟩ :: properties, levels => by
      rw [propertiesToJson]
      refine (gives_mapM_cons ?_ (gives_properties properties levels)).congr itemsDepth_cons_le.symm
      cases levels with
      | zero => exact gives_none not_depth_object_le
      | succ levels =>
          rw [Property.ofJson?, fields?_record (by decide) rfl]
          simpa using (Value.gives_ofJson? v levels).pure (Property.mk key)

theorem gives_children : (children : List Widget) → (levels : Nat) →
    Gives ((widgetsToJson children).mapM (Widget.ofJson? levels))
      (itemsDepth (widgetsToJson children) ≤ levels) children
  | [], levels => gives_mapM_nil.congr (iff_of_true trivial (Nat.zero_le levels))
  | w :: children, levels => by
      rw [widgetsToJson]
      exact (gives_mapM_cons (Widget.gives_ofJson? w levels) (gives_children children levels)).congr
        itemsDepth_cons_le.symm

theorem Value.gives_ofJson? : (v : Value) → (levels : Nat) →
    Gives (Value.ofJson? levels v.toJson) (v.toJson.depth ≤ levels) v
  | .scalar s, levels => s.gives_ofJson? levels
  | .widget _, 0 | .list _, 0 => gives_none not_depth_object_le
  | .widget w, levels + 1 => by
      rw [Value.ofJson?, Value.toJson]
      simpa using (Widget.gives_ofJson? w levels).pure Value.widget
  | .list items, levels + 1 => by
      have hitems := gives_list fun levels => gives_items items levels
      rw [Value.ofJson?, Value.toJson, valuesOfJson?_eq]
      simpa using (hitems levels).pure Value.list

theorem gives_items : (items : List Value) → (levels : Nat) →
    Gives ((valuesToJson items).mapM (Value.ofJson? levels))
      (itemsDepth (valuesToJson items) ≤ levels) items
  | [], levels => gives_mapM_nil.congr (iff_of_true trivial (Nat.zero_le levels))
  | v :: items, levels => by
      rw [valuesToJson]
      exact (gives_mapM_cons (Value.gives_ofJson? v levels) (gives_items items levels)).congr
        itemsDepth_cons_le.symm

end

/-! ## Slot paths -/

namespace Step

def tag : Step → String
  | .property _ _ => "property"
  | .item _ => "item"
  | .child _ => "child"

def index : Step → Nat
  | .property index _ | .item index | .child index => index

def members : Step → List Json.Member
  | .property index key => [field "index" (ofNat index), field "key" (ofString key)]
  | .item index | .child index => [field "index" (ofNat index)]

variable (step : Step) (levels : Nat)

theorem toJson_eq : step.toJson = .object (field "step" (ofString step.tag) :: step.members) := by
  cases step <;> rfl

theorem untag?_toJson : untag? step.toJson = some (step.tag, .object step.members) := by
  cases step <;> rfl

theorem membersDepth_members : membersDepth step.members = 0 := by
  cases step <;> rfl

theorem depth_toJson_le : step.toJson.depth ≤ 1 := by
  rw [toJson_eq, depth_object_le, membersDepth_field_le, membersDepth_members]
  exact ⟨Nat.le_refl 0, Nat.le_refl 0⟩

theorem soundMembers_members {step : Step} (h : step.index ≤ maxWord) :
    soundMembers levels step.members = true := by
  have hindex := sound_ofNat h levels
  cases step <;> simpa [members, soundMembers, field, sound_ofString, index] using hindex

theorem sound_toJson {step : Step} (h : step.index ≤ maxWord) :
    Json.sound (levels + 1) step.toJson = true := by
  rw [toJson_eq, sound, field, soundMembers, sound_ofString, soundMembers_members levels h]
  rfl

theorem gives_ofFound? :
    Gives (ofFound? step.tag (.object step.members)) (step.index ≤ maxWord) step := by
  cases step with
  | property index key =>
      rw [tag, members, ofFound?, fields?_record (by decide) rfl]
      simpa [Step.index] using (gives_word index).pure (Step.property · key)
  | item index =>
      rw [tag, members, ofFound?, fields?_record (by decide) rfl]
      simpa [Step.index] using (gives_word index).pure Step.item
  | child index =>
      rw [tag, members, ofFound?, fields?_record (by decide) rfl]
      simpa [Step.index] using (gives_word index).pure Step.child

theorem gives_ofJson? : Gives (Step.ofJson? levels step.toJson)
    (step.index ≤ maxWord ∧ step.toJson.depth ≤ levels) step := by
  cases levels with
  | zero =>
      have hsound : Json.sound 0 step.toJson = false := by
        rw [toJson_eq]
        rfl
      rw [Step.ofJson?, hsound, toJson_eq]
      exact gives_none fun h => not_depth_object_le h.2
  | succ levels =>
      have hdepth : step.toJson.depth ≤ levels + 1 :=
        Nat.le_trans step.depth_toJson_le (Nat.succ_le_succ (Nat.zero_le levels))
      rw [Step.ofJson?]
      -- A number too large for a word may still pass as a float; then it fails as an index.
      split
      · rw [untag?_toJson]
        exact step.gives_ofFound?.congr (and_iff_left hdepth).symm
      · next hsound => exact gives_none fun h => hsound (sound_toJson levels h.1)

end Step

theorem Step.storable_toJson (step : Step) : Storable step.toJson := by
  cases step <;> simp [toJson]

theorem storable_slotPath (path : SlotPath) : Storable (slotPathToJson path) :=
  storableItems_map Step.storable_toJson path

theorem gives_slotPath (path : SlotPath) (levels : Nat) :
    Gives (slotPathOfJson? levels (slotPathToJson path))
      ((∀ step ∈ path, step.index ≤ maxWord) ∧ (slotPathToJson path).depth ≤ levels) path :=
  gives_list_map Step.gives_ofJson? path levels

end WidgetShorthand
