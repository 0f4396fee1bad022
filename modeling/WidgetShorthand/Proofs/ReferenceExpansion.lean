import WidgetShorthand.Proofs.DecodingEnds
import WidgetShorthand.Proofs.DocumentReading
import WidgetShorthand.Proofs.FaultPlaces
import WidgetShorthand.Proofs.RegistryGrowth
import WidgetShorthand.Proofs.ScalarTexts
import WidgetShorthand.Proofs.SlotOrder

/-!
# What a reference with arguments is read as

A reference names a pattern and lists arguments for its slots, the first ones first. An argument may
be missing, and then nothing stands between the separators. The text of an argument is any text that
is read as a scalar when it stands alone: `ScalarTexts` puts it in front of a comma or a bracket,
and the loop over the slots takes one argument after the other.

Filling goes through the slots one by one, on a widget that the earlier arguments have changed
already. Since slots differ and writing into one moves none, the result is described position by
position.
-/

namespace WidgetShorthand

open Text Reader

/-! ## Filling a pattern -/

/-- The widget has the shape of the sample, and in each slot the argument with the slot's number.
Where there is none it has the sample's own value. -/
structure Entry.FilledWith (entry : Entry) (args : List (Option Scalar)) (w : Widget) : Prop where
  shape : w.shape = entry.sample.shape
  slots : ∀ (i : Nat) q, entry.slots[i]? = some q →
    w.at? q = (args[i]?.join.map Value.scalar).or (entry.sample.at? q)

section

variable {entry : Entry} {args : List (Option Scalar)} {w : Widget}

/-- Without repetitions a path has one number, so arguments by number are arguments by path. -/
theorem zip_missing {paths : List SlotPath} (h : paths.Nodup) (args : List (Option Scalar)) :
    paths.zip (args ++ List.replicate paths.length none) =
      paths.zip (paths.map fun q => args[paths.idxOf q]?.join) := by
  refine List.ext_getElem (by simp) fun i hi _ => ?_
  have hpath : i < paths.length := by simp at hi; omega
  simp only [List.getElem_zip, List.getElem_map, h.idxOf_getElem, List.getElem_append]
  split
  · next hlt => simp [hlt]
  · next hge => simp [List.getElem?_eq_none (Nat.le_of_not_lt hge)]

theorem filledWith_iff (he : entry.Sound) {v : Widget} (hv : entry.FilledWith args v) :
    entry.FilledWith args w ↔ w = v := by
  refine ⟨fun hw => ?_, fun h => h ▸ hv⟩
  have hshape := hw.shape.trans hv.shape.symm
  have hslots := Widget.slots_eq_of_shape hw.shape
  refine Widget.eq_of_shape hshape fun q => ?_
  by_cases hq : q ∈ w.slots
  · obtain ⟨i, hi⟩ := List.getElem?_of_mem (he.slots ▸ hslots ▸ hq)
    have hat : w.at? q = v.at? q := (hw.slots i q hi).trans (hv.slots i q hi).symm
    obtain ⟨s, hs⟩ := Widget.mem_slots.mp hq
    rw [hs, eq_comm, ← Widget.at?_eq_scalar, ← hat, Widget.at?_eq_scalar, hs]
  · rw [Widget.scalarAt?_eq_none hq, Widget.scalarAt?_eq_none]
    rwa [← Widget.slots_eq_of_shape hshape]

/-- Filling always succeeds, however many arguments there are. -/
theorem fill_filled (he : entry.Sound) (args : List (Option Scalar)) :
    ∃ w, Decoding.fill entry args = some w ∧ entry.FilledWith args w := by
  have hnodup : entry.slots.Nodup := he.slots ▸ nodup_slots_widget entry.sample
  have hslots : ∀ p ∈ entry.slots, p ∈ entry.sample.slots := fun p hp => he.slots ▸ hp
  obtain ⟨w, hw, hshape, hat⟩ :=
    foldlM_fillSlot (fun q => args[entry.slots.idxOf q]?.join) hslots
  -- Slots behind the last argument get none, so that every slot has its own.
  rw [← zip_missing hnodup, foldlM_fillSlot_missing] at hw
  refine ⟨w, hw, hshape, fun i q hi => ?_⟩
  obtain ⟨hlt, hq⟩ := List.getElem?_eq_some_iff.mp hi
  have hmem : q ∈ entry.slots := List.mem_of_getElem? hi
  obtain ⟨s, hs⟩ := Widget.mem_slots.mp (hslots q hmem)
  have hnumber : entry.slots.idxOf q = i := by rw [← hq, hnodup.idxOf_getElem]
  have hvalue := hat q
  rw [if_pos hmem, hnumber, hs] at hvalue
  cases harg : args[i]?.join with
  | some a =>
      rw [harg, Option.some_or] at hvalue
      exact Widget.at?_eq_scalar.mpr hvalue
  | none =>
      rw [harg, Option.none_or] at hvalue
      rw [Option.map_none, Option.none_or, Widget.at?_eq_scalar.mpr hvalue,
        Widget.at?_eq_scalar.mpr hs]

end

/-- The patterns of a registry that can occur are filled with whatever arguments there are. -/
theorem Registry.Reachable.fillable {d : Decoder} (hr : d.registry.Reachable) :
    Decoding.Fillable d := by
  intro id entry hget args
  obtain ⟨w, hw, _⟩ := fill_filled (hr.sound.entries entry (List.mem_of_find?_eq_some hget)) args
  rw [hw]
  exact nofun

/-! ## Failing on the way -/

namespace Reader

variable {α β : Type} {p q : Place} {x : α} {r r' : Reader α} {fault : Fault} {a : List Char}
  {o : List OpenBracket} {size : Nat}

/-- From the place on the reader fails with the fault. -/
def FailsWith (r : Reader α) (p : Place) (fault : Fault) : Prop :=
  ∀ expecting, ∃ position, r (p.cursor expecting) = .error ⟨position, fault⟩

theorem FailsWith.bind (h : FailsWith r p fault) (f : α → Reader β) :
    FailsWith (r >>= f) p fault := by
  intro e
  obtain ⟨position, herror⟩ := h e
  exact ⟨position, run_bind_of_error herror⟩

theorem Runs.failsWith {f : α → Reader β} (h : Runs r p x q) (hf : FailsWith (f x) q fault) :
    FailsWith (r >>= f) p fault := by
  intro e
  obtain ⟨e₁, h₁⟩ := h e
  obtain ⟨position, herror⟩ := hf e₁
  exact ⟨position, (run_bind_of_ok h₁).trans herror⟩

theorem Leads.failsWith (h : Leads r p r' q) (hr : FailsWith r' q fault) : FailsWith r p fault := by
  intro e
  obtain ⟨e₁, h₁⟩ := h e
  rw [h₁]
  exact hr e₁

theorem failsWith_fail : FailsWith (fail (α := α) size fault) p fault :=
  fun _ => ⟨_, rfl⟩

end Reader

/-! ## Arguments -/

/-- The text is a scalar by itself: it is read as one, and nothing is left but layout. -/
def Decoder.ReadsScalar (d : Decoder) (text : String) (s : Scalar) : Prop :=
  let reading : Decoding := { d with size := byteLength text.toList }
  ∃ s', reading.value d.maxDepth ⟨text.toList, [], .node⟩ = .ok (.scalar s, s') ∧
    dropBlanks s'.rest = []

/-- The text of a reference. Of a missing argument nothing is written. -/
def referenceText (id : String) (args : List (Option String)) : String :=
  "@" ++ id ++ "(" ++ ",".intercalate (args.map (·.getD "")) ++ ")"

/-- What stands in the place of an argument. -/
def argumentChars (arg : Option String) : List Char :=
  (arg.getD "").toList

/-- A character behind an argument. -/
abbrev endsArgument : Char → Bool :=
  among [',', ')']

theorem endsValue_of_endsArgument {c : Char} (hc : endsArgument c = true) (rest : List Char) :
    endsValue (c :: rest) :=
  of_among (p := among [',', ';', '|', '}', ']', ')']) (by decide) hc

/-- The reader takes the text as the argument, layout before it or not, when a separator or the
closing bracket follows. Layout behind the argument may be left over. -/
def Takes (r : Reader (Option Scalar)) (text : List Char) (arg : Option Scalar) : Prop :=
  ∀ ⦃c rest o before⦄, endsArgument c = true → dropBlanks before = dropBlanks (text ++ c :: rest) →
    ∃ left, dropBlanks left = c :: rest ∧ Runs r ⟨before, o⟩ arg ⟨left, o⟩

section

variable {d d₀ : Decoding} {readList rl : Reader (List Value)} {readWidget rw : Reader Widget}

theorem takes_missing (value : Reader Value) : Takes (d.argument value) [] none := by
  intro c rest o before hc hb
  have hends : c = ',' ∨ c = ')' := by simpa [among] using hc
  rcases hends with rfl | rfl
  · exact ⟨_, rfl, (runs_next hb).bind runs_pure⟩
  · exact ⟨_, rfl, (runs_next hb).bind runs_pure⟩

/-- Layout in front of a value makes no difference. -/
theorem valueWith_dropBlanks (text : List Char) (o : List OpenBracket) (e : Expectation) :
    d.valueWith readList readWidget ⟨dropBlanks text, o, e⟩ =
      d.valueWith readList readWidget ⟨text, o, e⟩ := by
  have hnext : next ⟨dropBlanks text, o, e⟩ = next ⟨text, o, e⟩ := by
    have hagain : dropBlanks (dropBlanks text) = dropBlanks text := dropBlanks_of_eq rfl
    show Except.ok ((dropBlanks (dropBlanks text)).head?,
      Cursor.mk (dropBlanks (dropBlanks text)) o e) = _
    rw [hagain]
    rfl
  exact run_bind_of_ok hnext

/-- No value begins with what stands behind an argument. -/
theorem starts_of_value {text : List Char} {o : List OpenBracket} {e : Expectation} {v : Value}
    {s' : Cursor} (h : d.valueWith readList readWidget ⟨text, o, e⟩ = .ok (v, s')) :
    Starts (fun c => !endsArgument c) (dropBlanks text) := by
  obtain ⟨c, s₁, hc, hr⟩ := run_bind_eq_ok.mp h
  cases hc
  cases hb : dropBlanks text with
  | nil =>
      rw [hb] at hr
      exact absurd hr (unexpected_ne_ok _ _)
  | cons c cs =>
      rw [starts_cons, Bool.not_eq_true', ← Bool.not_eq_true]
      intro hends
      have hplain : isValueMark c = false := by
        simpa using of_among (p := fun c => !isValueMark c) (by decide) hends
      have hother := of_among (p := fun c => !(c == '-' || c.isDigit) && !isNameStart c)
        (by decide) hends
      simp only [Bool.and_eq_true, Bool.not_eq_true'] at hother
      -- What is neither a mark nor begins a number or a name is refused.
      have hleads : Leads (d.valueWith readList readWidget) ⟨text, o⟩ _ ⟨c :: cs, o⟩ :=
        leads_valueWith_plain hb hplain
      obtain ⟨e', he'⟩ := hleads e
      rw [if_neg (by rw [hother.1]; exact nofun), if_neg (by rw [hother.2]; exact nofun)] at he'
      exact absurd (he'.symm.trans h) (unexpected_ne_ok _ _)

theorem takes_scalar (hs : d.symbols = d₀.symbols) {text : List Char} {s : Scalar} {s' : Cursor}
    (h : d₀.valueWith rl rw ⟨text, [], .node⟩ = .ok (.scalar s, s'))
    (hrest : dropBlanks s'.rest = []) :
    Takes (d.argument (d.valueWith readList readWidget)) text (some s) := by
  intro c rest o before hc hb
  have htail := endsValue_of_endsArgument hc rest
  have hsolid := solid_of_endsValue htail
  rw [dropBlanks_append hsolid] at hb
  have hread := (valueWith_dropBlanks text [] .node).trans h
  have hrun : Runs (d.valueWith readList readWidget) ⟨dropBlanks text ++ c :: rest, o⟩ (.scalar s)
      ⟨s'.rest ++ c :: rest, o⟩ := Decoding.readsOn_valueWith hs s hread htail
  obtain ⟨first, others, htext, hfirst⟩ := (starts_of_value h).exists_cons
  refine ⟨s'.rest ++ c :: rest, ?_, (runs_next hb).bind ?_⟩
  · rw [dropBlanks_append hsolid, hrest, List.nil_append]
  · rw [htext] at hrun ⊢
    rw [List.cons_append, List.head?_cons]
    split
    · next heq => cases heq; exact absurd hfirst (by decide)
    · next heq => cases heq; exact absurd hfirst (by decide)
    · exact runs_get fun _ => hrun.bind runs_pure

/-! ## One argument after the other -/

variable {r : Reader (Option Scalar)} {tooMany : Reader (List (Option Scalar))}
  {texts : List (List Char)} {args : List (Option Scalar)} {slots : Nat} {before rest : List Char}
  {o : List OpenBracket}

theorem intercalate_append (t u : List Char) (ts : List (List Char)) (rest : List Char) :
    [','].intercalate (t :: u :: ts) ++ rest =
      t ++ ',' :: ([','].intercalate (u :: ts) ++ rest) := by
  simp [List.intercalate_cons_cons]

theorem runs_taken (h : List.Forall₂ (Takes r) texts args) (hne : args ≠ [])
    (hslots : args.length ≤ slots)
    (hb : dropBlanks before = dropBlanks ([','].intercalate texts ++ ')' :: rest)) :
    ∃ left, dropBlanks left = ')' :: rest ∧
      Runs (Decoding.arguments r tooMany slots) ⟨before, o⟩ args ⟨left, o⟩ := by
  induction h generalizing slots before with
  | nil => exact absurd rfl hne
  | @cons t arg ts args harg hargs ih =>
      obtain ⟨slots, rfl⟩ : ∃ n, slots = n + 1 := by
        cases slots with
        | zero => simp at hslots
        | succ n => exact ⟨n, rfl⟩
      cases hargs with
      | nil =>
          rw [List.intercalate_singleton] at hb
          obtain ⟨left, hleft, hrun⟩ := harg (o := o) (by decide) hb
          exact ⟨_, rfl, hrun.bind ((runs_eat_other hleft (by simp)).bind runs_pure)⟩
      | cons hnext hrest =>
          rw [intercalate_append] at hb
          obtain ⟨left, hleft, hrun⟩ := harg (o := o) (by decide) hb
          obtain ⟨last, hlast, hruns⟩ := ih (by simp) (by simpa using hslots) rfl
          refine ⟨last, hlast, hrun.bind ((runs_eat hleft).bind ?_)⟩
          rw [if_pos rfl]
          exact hruns.bind runs_pure

/-- The argument for which there is no slot is still read. -/
theorem failsWith_taken {fault : Fault} (h : List.Forall₂ (Takes r) texts args)
    (hslots : slots < args.length) (htooMany : ∀ p, FailsWith tooMany p fault)
    (hb : dropBlanks before = dropBlanks ([','].intercalate texts ++ ')' :: rest)) :
    FailsWith (Decoding.arguments r tooMany slots) ⟨before, o⟩ fault := by
  induction h generalizing slots before with
  | nil => exact absurd hslots (Nat.not_lt_zero _)
  | @cons t arg ts args harg hargs ih =>
      cases hargs with
      | nil =>
          obtain rfl : slots = 0 := by simpa using hslots
          rw [List.intercalate_singleton] at hb
          obtain ⟨left, _, hrun⟩ := harg (o := o) (by decide) hb
          exact hrun.failsWith (htooMany _)
      | cons hnext hrest =>
          rw [intercalate_append] at hb
          obtain ⟨left, hleft, hrun⟩ := harg (o := o) (by decide) hb
          cases slots with
          | zero => exact hrun.failsWith (htooMany _)
          | succ slots =>
              refine hrun.failsWith ((runs_eat hleft).failsWith ?_)
              rw [if_pos rfl]
              exact (ih (by simpa using hslots) rfl).bind _

end

/-! ## Arguments that are scalars -/

section

variable {d : Decoder} {reading : Decoding} {levels : Nat} {entry : Entry}
  {texts : List (Option String)}
  {args : List (Option Scalar)} {rest : List Char} {o : List OpenBracket}

theorem takes_argument
    (hs : reading.symbols = d.symbols) {text : Option String} {arg : Option Scalar}
    (h : Option.Rel d.ReadsScalar text arg) :
    Takes (reading.argument (reading.value levels)) (argumentChars text) arg := by
  cases h with
  | none => exact takes_missing _
  | some h =>
      obtain ⟨s', hread, hleft⟩ := h
      obtain ⟨_, hvalue⟩ := value_eq_valueWith reading levels
      obtain ⟨_, halone⟩ := value_eq_valueWith { d with size := byteLength _ } d.maxDepth
      rw [halone] at hread
      rw [hvalue]
      exact takes_scalar hs hread hleft

theorem forall₂_takes (hs : reading.symbols = d.symbols) (levels : Nat)
    (h : List.Forall₂ (Option.Rel d.ReadsScalar) texts args) :
    List.Forall₂ (Takes (reading.argument (reading.value levels)))
      (texts.map argumentChars) args := by
  rw [List.forall₂_map_left_iff]
  exact h.imp fun _ _ => takes_argument hs

/-- Where there are arguments, the closing bracket does not come next. -/
theorem head_ne_close (h : List.Forall₂ (Option.Rel d.ReadsScalar) texts args) (hne : args ≠ [])
    (hmissing : args ≠ [none]) (rest : List Char) :
    (dropBlanks ([','].intercalate (texts.map argumentChars) ++ ')' :: rest)).head? ≠ some ')' := by
  cases h with
  | nil => exact absurd rfl hne
  | @cons text arg texts args harg hargs =>
      obtain ⟨c, tail, hc, htail⟩ : ∃ c tail, endsArgument c = true ∧
          [','].intercalate ((text :: texts).map argumentChars) ++ ')' :: rest =
            argumentChars text ++ c :: tail := by
        cases hargs with
        | nil =>
            exact ⟨')', rest, by decide, by rw [List.map_singleton, List.intercalate_singleton]⟩
        | cons _ _ => exact ⟨',', _, by decide, intercalate_append _ _ _ _⟩
      have hsolid := solid_of_endsValue (endsValue_of_endsArgument hc tail)
      rw [htail, dropBlanks_append hsolid]
      cases harg with
      | some hread =>
          obtain ⟨s', hread, _⟩ := hread
          obtain ⟨_, halone⟩ := value_eq_valueWith { d with size := byteLength _ } d.maxDepth
          rw [halone] at hread
          exact ne_head_of_follows ((starts_of_value hread).follows _) (by decide)
      | none =>
          cases hargs with
          | nil => exact absurd rfl hmissing
          | cons _ _ =>
              rw [List.map_cons, List.map_cons, intercalate_append] at htail
              obtain ⟨rfl, _⟩ := List.cons.inj htail
              exact nofun

theorem runs_callArguments_taken (hs : reading.symbols = d.symbols)
    (h : List.Forall₂ (Option.Rel d.ReadsScalar) texts args) (hmissing : args ≠ [none])
    (hslots : args.length ≤ entry.arity) :
    ∃ left, dropBlanks left = ')' :: rest ∧
      Runs (reading.callArguments (reading.value levels) entry)
        ⟨[','].intercalate (texts.map argumentChars) ++ ')' :: rest, o⟩ args ⟨left, o⟩ := by
  by_cases hne : args = []
  · subst hne
    cases h
    exact ⟨')' :: rest, rfl, (runs_next rfl).bind runs_pure⟩
  · have htakes := forall₂_takes hs levels h
    obtain ⟨left, hleft, hruns⟩ := runs_taken htakes hne hslots (dropBlanks_of_eq rfl)
    refine ⟨left, hleft, (runs_next rfl).bind ?_⟩
    rw [if_neg (head_ne_close h hne hmissing rest)]
    exact hruns

theorem failsWith_callArguments (hs : reading.symbols = d.symbols)
    (h : List.Forall₂ (Option.Rel d.ReadsScalar) texts args) (hmissing : args ≠ [none])
    (hslots : entry.arity < args.length) :
    FailsWith (reading.callArguments (reading.value levels) entry)
      ⟨[','].intercalate (texts.map argumentChars) ++ ')' :: rest, o⟩
      (.tooManyArguments entry.id entry.arity) := by
  have hne : args ≠ [] := by
    rintro rfl
    exact absurd hslots (Nat.not_lt_zero _)
  refine (runs_next rfl).failsWith ?_
  rw [if_neg (head_ne_close h hne hmissing rest)]
  exact failsWith_taken (forall₂_takes hs levels h) hslots (fun _ => failsWith_fail)
    (dropBlanks_of_eq rfl)

end

/-! ## Documents with one reference -/

section

variable {d : Decoding} {levels : Nat} {entry : Entry} {args : List (Option Scalar)} {w : Widget}
  {inside : List Char}

theorem toList_referenceText (id : String) (texts : List (Option String)) :
    (referenceText id texts).toList =
      '@' :: (id.toList ++ '(' :: ([','].intercalate (texts.map argumentChars) ++ [')'])) := by
  have hparts : (texts.map (·.getD "")).map String.toList = texts.map argumentChars :=
    List.map_map
  simp [referenceText, String.toList_intercalate, hparts]

/-- A document with nothing but a reference leads to its arguments. -/
theorem leads_root_reference (hdepth : d.maxDepth = levels + 1)
    (hid : isReferenceId entry.id = true) (hget : d.registry.get? entry.id = some entry) :
    Leads d.root ⟨'@' :: (entry.id.toList ++ '(' :: inside), []⟩ (do
        return .widget (← d.expansion (d.value levels) entry
          ('@' :: (entry.id.toList ++ '(' :: inside))))
      ⟨inside, [⟨'(', '(' :: inside⟩]⟩ := by
  have hsolid : isSolid '@' = true := by decide
  have hstart : dropBlanks ('@' :: (entry.id.toList ++ '(' :: inside)) =
      '@' :: (entry.id.toList ++ '(' :: inside) := dropBlanks_cons hsolid _
  have hnone : Decoding.declaration? ('@' :: (entry.id.toList ++ '(' :: inside)) = none :=
    declaration?_of_not_startsName rfl hsolid
  have hitem := leads_item_widget (d := d) (o := [])
    (.reference (entry.id.toList ++ '(' :: inside)) (hstart.trans (List.append_nil _).symm)
  rw [List.append_nil] at hitem
  refine (leads_root_item (by rw [hnone]; exact nofun)).trans (hitem.trans ?_)
  rw [hdepth, widget_succ]
  exact ((leads_reference hstart).trans (leads_referenceFrom hid hget _)).bind _

theorem runs_document_reference (hdepth : d.maxDepth = levels + 1)
    (hid : isReferenceId entry.id = true) (hget : d.registry.get? entry.id = some entry)
    (hcall : ∀ o, ∃ left, dropBlanks left = [')'] ∧
      Runs (d.callArguments (d.value levels) entry) ⟨inside, o⟩ args ⟨left, o⟩)
    (hfill : Decoding.fill entry args = some w) :
    Runs d.document ⟨'@' :: (entry.id.toList ++ '(' :: inside), []⟩ (.widget w) ⟨[], []⟩ := by
  obtain ⟨left, hleft, hrun⟩ := hcall [⟨'(', '(' :: inside⟩]
  refine runs_document rfl ((leads_root_reference hdepth hid hget).runs (.bind ?_ runs_pure))
  refine hrun.bind ((runs_closeBracket hleft).bind ?_)
  rw [hfill]
  exact runs_pure

theorem failsWith_document_reference (hdepth : d.maxDepth = levels + 1)
    (hid : isReferenceId entry.id = true) (hget : d.registry.get? entry.id = some entry)
    {fault : Fault}
    (hcall : ∀ o, FailsWith (d.callArguments (d.value levels) entry) ⟨inside, o⟩ fault) :
    FailsWith d.document ⟨'@' :: (entry.id.toList ++ '(' :: inside), []⟩ fault := by
  have hstart : Starts isSolid ('@' :: (entry.id.toList ++ '(' :: inside)) := rfl
  refine (leads_document hstart).failsWith (FailsWith.bind ?_ _)
  exact (leads_root_reference hdepth hid hget).failsWith (((hcall _).bind _).bind _)

end

theorem filledWith_missing {entry : Entry} {w : Widget} :
    entry.FilledWith [none] w ↔ entry.FilledWith [] w := by
  have hnone : ∀ i : Nat, ([none] : List (Option Scalar))[i]?.join = none := by
    intro i
    cases i <;> rfl
  constructor
  · intro h
    refine ⟨h.shape, fun i q hq => ?_⟩
    rw [h.slots i q hq, hnone]
    rfl
  · intro h
    refine ⟨h.shape, fun i q hq => ?_⟩
    rw [h.slots i q hq, hnone]
    rfl

/-- A reference to a pattern that is known is read as the pattern's widget with the arguments in the
slots and everything else as it was; each argument may be any text that is a scalar by itself, or be
missing. With more arguments than slots the document is refused. One empty argument is no argument.
That a slot is not found in its pattern does not occur, whatever is read. -/
theorem decode_reference {d : Decoder} (hr : d.registry.Reachable) (hdepth : 1 ≤ d.maxDepth)
    {entry : Entry} (he : entry ∈ d.registry.entries) {texts : List (Option String)}
    {args : List (Option Scalar)} (h : List.Forall₂ (Option.Rel d.ReadsScalar) texts args) :
    (args = [none] ∨ args.length ≤ entry.arity →
      ∃ w, d.decode (referenceText entry.id texts) = .ok (.widget w) ∧
        ∀ w', entry.FilledWith args w' ↔ w' = w) ∧
    (args ≠ [none] → entry.arity < args.length →
      ∃ position, d.decode (referenceText entry.id texts) =
        .error ⟨position, .tooManyArguments entry.id entry.arity⟩) ∧
    ∀ text error, d.decode text = .error error → ∀ id, error.fault ≠ .unresolvedSlot id := by
  have hsound := hr.sound.entries entry he
  have hget := hr.sound.get?_of_mem he
  obtain ⟨levels, hlevels⟩ : ∃ levels, d.maxDepth = levels + 1 := ⟨d.maxDepth - 1, by omega⟩
  let reading : Decoding := { d with size := byteLength (referenceText entry.id texts).toList }
  have hdecode : d.decode (referenceText entry.id texts) =
      (reading.document ⟨(referenceText entry.id texts).toList, [], .node⟩).map (·.1) := rfl
  rw [hdecode, toList_referenceText]
  refine ⟨fun hcount => ?_, fun hmissing hcount => ?_, fun text error herror => ?_⟩
  · obtain ⟨args', hfilled, hcall⟩ : ∃ args',
      (∀ w, entry.FilledWith args w ↔ entry.FilledWith args' w) ∧
        ∀ o, ∃ left, dropBlanks left = [')'] ∧
          Runs (reading.callArguments (reading.value levels) entry)
            ⟨[','].intercalate (texts.map argumentChars) ++ [')'], o⟩ args' ⟨left, o⟩ := by
      -- One empty argument is written like no argument.
      by_cases hmissing : args = [none]
      · subst hmissing
        cases h with
        | cons hnone hnil =>
            cases hnone
            cases hnil
            exact ⟨[], fun _ => filledWith_missing,
              fun o => ⟨[')'], rfl, (runs_next rfl).bind runs_pure⟩⟩
      · exact ⟨args, fun _ => .rfl, fun o =>
          runs_callArguments_taken rfl h hmissing (hcount.resolve_left hmissing)⟩
    obtain ⟨w, hfill, hw⟩ := fill_filled hsound args'
    obtain ⟨expecting, hrun⟩ :=
      runs_document_reference (d := reading) hlevels hsound.id hget hcall hfill .node
    refine ⟨w, congrArg (Except.map (·.1)) hrun, fun w' => ?_⟩
    rw [hfilled, filledWith_iff hsound hw]
  · obtain ⟨position, hrun⟩ := failsWith_document_reference (d := reading) hlevels hsound.id hget
      (fun o => failsWith_callArguments (o := o) rfl h hmissing hcount) .node
    exact ⟨position, congrArg (Except.map (·.1)) hrun⟩
  · exact (Decoder.located hr.fillable herror).fault

/-- Five slots, filled with a string, a folded name with layout behind it, nothing, a number with
layout before it, and an expression. A sixth argument is one too many. -/
theorem decode_reference_forms :
    let literals : Table := ⟨.literal, [("double.infinity", "di")]⟩
    let d : Decoder := ⟨⟨.empty .type, .empty .property, .empty .keyword, literals⟩, .stock, 1⟩
    (∃ w, d.decode "@email_input(\"a, b\",#di ,, -4.5e+3,&\"f(x)\")" = .ok (.widget w) ∧
      w.at? [.property 0 "controller"] = some (.scalar (.string "a, b")) ∧
      w.at? [.property 1 "decoration", .property 1 "hintText"] =
        some (.scalar (.string "you@example.com"))) ∧
    ∃ position, d.decode "@email_input(\"a, b\",#di ,, -4.5e+3,&\"f(x)\",)" =
      .error ⟨position, .tooManyArguments "email_input" 5⟩ := by
  intro literals d
  obtain ⟨entry, hentry, hid, hsample, hslots⟩ : ∃ entry ∈ d.registry.entries,
      entry.id = "email_input" ∧ entry.sample = Stock.emailInput ∧
        entry.slots = Stock.emailInput.slots :=
    ⟨_, List.mem_cons_self, rfl, rfl, rfl⟩
  have hscalar : ∀ {text s} (left : List Char),
      (({ d with size := byteLength text.toList } : Decoding).value 1
        ⟨text.toList, [], .node⟩).toOption = some (.scalar s, ⟨left, [], .node⟩) →
      dropBlanks left = [] → d.ReadsScalar text s :=
    fun _ h hleft => ⟨_, ok_of_toOption h, hleft⟩
  have hfive : List.Forall₂ (Option.Rel d.ReadsScalar)
      [some "\"a, b\"", some "#di ", none, some " -4.5e+3", some "&\"f(x)\""]
      [some (.string "a, b"), some (.ident "double.infinity"), none, some (.number "-4.5e+3"),
        some (.expr "f(x)")] :=
    .cons (.some (hscalar [] (by decide +kernel) rfl))
      (.cons (.some (hscalar [' '] (by decide +kernel) rfl))
        (.cons .none (.cons (.some (hscalar [] (by decide +kernel) rfl))
          (.cons (.some (hscalar [] (by decide +kernel) rfl)) .nil))))
  have harity : entry.arity = 5 := by
    rw [Entry.arity, hslots]
    decide
  refine ⟨?_, ?_⟩
  · obtain ⟨w, hw, hfilled⟩ := (decode_reference .stock (by decide) hentry hfive).1
      (.inr (by rw [harity]; decide))
    have hat := ((hfilled w).mpr rfl).slots
    rw [hid] at hw
    rw [hslots, hsample] at hat
    exact ⟨w, hw, hat 0 _ rfl, hat 2 _ rfl⟩
  · have hsix := List.rel_append hfive (List.Forall₂.cons (.none (r := d.ReadsScalar)) .nil)
    obtain ⟨position, herror⟩ := (decode_reference .stock (by decide) hentry hsix).2.1 (by simp)
      (by rw [harity]; decide)
    rw [hid, harity] at herror
    exact ⟨position, herror⟩

end WidgetShorthand
