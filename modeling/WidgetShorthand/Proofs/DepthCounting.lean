import WidgetShorthand.Proofs.RoundTrip

/-!
# Reader and writer count depth alike

A document that was written with enough depth is taken to a lower limit. The writer either writes it
again or gives up at the first part that nests too deep, and then the reader gives up at that part
too: what stands in front of it was written at the lower limit as well, and is read back as always.

So there are two ways for each part of a tree, and `Counts` says that reader and writer always take
the same one. That a reader gives up is stated like `Reads`, and the statements follow those of the
round trip: one to each kind of node, given the same of its parts.
-/

namespace WidgetShorthand

open Text Reader

namespace Reader

variable {α β γ : Type} {p q : Place} {x : α} {r : Reader α} {ok ok' : List Char → Prop}
  {first : Char → Bool} {text rest a : List Char} {o : List OpenBracket} {separator : Char}
  {layout : List Char} {parts : List Fragment}

/-! ## Giving up -/

/-- The reader fails at the place because no level of depth is left. -/
def GivesUp (r : Reader α) (p : Place) : Prop :=
  ∀ expecting, ∃ error, r (p.cursor expecting) = .error error ∧
    error.fault.kind = .depthLimitExceeded

theorem GivesUp.bind (h : GivesUp r p) (f : α → Reader β) : GivesUp (r >>= f) p := by
  intro e
  obtain ⟨error, herror, hkind⟩ := h e
  refine ⟨error, ?_, hkind⟩
  show Except.bind (r (p.cursor e)) (fun s => f s.1 s.2) = _
  rw [herror]
  rfl

theorem Runs.givesUp {f : α → Reader β} (h : Runs r p x q) (hf : GivesUp (f x) q) :
    GivesUp (r >>= f) p := by
  intro e
  obtain ⟨e₁, h₁⟩ := h e
  obtain ⟨error, herror, hkind⟩ := hf e₁
  refine ⟨error, ?_, hkind⟩
  show Except.bind (r (p.cursor e)) (fun s => f s.1 s.2) = _
  rw [h₁]
  exact herror

theorem Leads.givesUp {r' : Reader α} (h : Leads r p r' q) (hr : GivesUp r' q) : GivesUp r p := by
  intro e
  obtain ⟨e₁, h₁⟩ := h e
  rw [h₁]
  exact hr e₁

theorem givesUp_get {f : Cursor → Reader α} (h : ∀ e, GivesUp (f ⟨a, o, e⟩) ⟨a, o⟩) :
    GivesUp (get >>= f) ⟨a, o⟩ :=
  fun e => h e e

theorem givesUp_tooDeep {d : Decoding} : GivesUp (α := α) d.tooDeep p :=
  fun _ => ⟨_, rfl, rfl⟩

/-- The text takes more levels than there are, wherever it stands. -/
def Exceeds (r : Reader α) (ok : List Char → Prop) (text : List Char) : Prop :=
  ∀ ⦃before rest : List Char⦄ ⦃o : List OpenBracket⦄,
    dropBlanks before = text ++ rest → ok rest → GivesUp r ⟨before, o⟩

/-! ## Lists -/

/-- Some element takes more levels than there are, and those in front of it are read. -/
inductive Breaks (r : Reader α) (ok : List Char → Prop) (first : Char → Bool) : List Fragment → Prop
  | here {f : Fragment} {parts : List Fragment} (h : Exceeds r ok f.text)
      (hs : Starts first f.text) : Breaks r ok first (f :: parts)
  | later {f : Fragment} {parts : List Fragment} {x : α} (h : Reads r ok f.text x)
      (hs : Starts first f.text) (hparts : Breaks r ok first parts) : Breaks r ok first (f :: parts)

theorem Breaks.starts_join (h : Breaks r ok first parts) (mark : List Char) :
    Starts first (Fragment.join mark parts).text := by
  have hhead : ∀ {f : Fragment} {gs : List Fragment}, Starts first f.text →
      Starts first (Fragment.join mark (f :: gs)).text := by
    intro f gs hf
    cases gs with
    | nil => exact hf
    | cons g gs => exact hf.append _
  cases h with
  | here _ hs => exact hhead hs
  | later _ hs _ => exact hhead hs

theorem givesUp_separatedLoop (hsep : Separates ok first separator layout) (hr : ok rest)
    (h : Breaks r ok first parts) {fuel : Nat} {before : List Char}
    (hfuel : parts.length ≤ fuel + 1)
    (hb : dropBlanks before = (Fragment.join (separator :: layout) parts).text ++ rest) :
    GivesUp (separatedLoop separator r fuel) ⟨before, o⟩ := by
  induction h generalizing fuel before with
  | @here f gs h hs =>
      have hfirst : GivesUp r ⟨before, o⟩ := by
        cases gs with
        | nil => exact h hb hr
        | cons g gs =>
            rw [join_cons_cons, List.cons_append] at hb
            exact h hb (hsep.separator _)
      cases fuel with
      | zero => exact hfirst.bind _
      | succ fuel => exact hfirst.bind _
  | @later f gs x h hs hgs ih =>
      obtain ⟨g, gs, rfl⟩ : ∃ g gs', gs = g :: gs' := by cases hgs <;> exact ⟨_, _, rfl⟩
      obtain ⟨fuel, rfl⟩ : ∃ n, fuel = n + 1 := by
        cases fuel with
        | zero => simp at hfuel
        | succ n => exact ⟨n, rfl⟩
      rw [join_cons_cons, List.cons_append] at hb
      have hstart := (hgs.starts_join (separator :: layout)).mono hsep.first
      have hbehind := (dropBlanks_append_of_all hsep.layout _).trans
        (dropBlanks_append_of_starts hstart rest)
      have hmark : ∀ cs, dropBlanks (separator :: cs) = separator :: cs :=
        fun cs => dropBlanks_of_follows (hsep.solid _ (hsep.separator cs))
      refine (h hb (hsep.separator _)).givesUp ((runs_eat (hmark _)).givesUp ?_)
      rw [if_pos rfl]
      exact (ih (by simpa using hfuel) hbehind).bind _

theorem givesUp_separated (hsep : Separates ok first separator layout)
    (h : Breaks r ok first parts)
    (hb : dropBlanks a = (Fragment.join (separator :: layout) parts).text ++ rest) (hr : ok rest) :
    GivesUp (separated separator r) ⟨a, o⟩ := by
  refine givesUp_get fun e => ?_
  refine givesUp_separatedLoop hsep hr h ?_ hb
  have htext := length_join separator layout parts
  have hlen := length_dropBlanks_le a
  rw [hb, List.length_append] at hlen
  dsimp only
  omega

theorem givesUp_separatedUnless {stop : Option Char → Bool}
    (hsep : Separates ok first separator layout) (h : Breaks r ok first parts)
    (hb : dropBlanks a = (Fragment.join (separator :: layout) parts).text ++ rest) (hr : ok rest)
    (hgo : ∀ c, first c = true → stop (some c) = false) :
    GivesUp (separatedUnless stop separator r) ⟨a, o⟩ := by
  obtain ⟨c, cs, htext, hc⟩ := (h.starts_join (separator :: layout)).exists_cons
  refine (runs_next hb).givesUp ?_
  rw [if_neg (by simp [htext, hgo c hc])]
  exact givesUp_separated hsep h (dropBlanks_of_eq hb) hr

theorem givesUp_separatedUntil {close : Char} (hsep : Separates ok first separator layout)
    (h : Breaks r ok first parts)
    (hb : dropBlanks a = (Fragment.join (separator :: layout) parts).text ++ close :: rest)
    (hclose : ok (close :: rest)) (hgo : first close = false) :
    GivesUp (separatedUnless (· == some close) separator r) ⟨a, o⟩ := by
  exact givesUp_separatedUnless hsep h hb hclose fun _ => not_close_of_first hgo

theorem Breaks.dropBlanks_join (h : Breaks r ok first parts)
    (hfirst : ∀ c, first c = true → isSolid c = true) (mark rest : List Char) :
    dropBlanks ((Fragment.join mark parts).text ++ rest) =
      (Fragment.join mark parts).text ++ rest :=
  dropBlanks_append_of_starts ((h.starts_join mark).mono hfirst) rest

/-! ## The two ways -/

/-- A part is written at the limit as with more depth, or writer and reader both give up on it. -/
inductive Counts (limit : Nat) (written : Except EncodeError Fragment) (r : Reader α)
    (ok : List Char → Prop) (f : Fragment) : Prop
  | written (h : written = .ok f)
  | exceeded (h : written = .error (.depthLimitExceeded limit)) (hr : Exceeds r ok f.text)

/-- The same for a list of parts. -/
inductive CountsAll (limit : Nat) (written : Except EncodeError (List Fragment)) (r : Reader α)
    (ok : List Char → Prop) (first : Char → Bool) (parts : List Fragment) : Prop
  | written (h : written = .ok parts)
  | exceeded (h : written = .error (.depthLimitExceeded limit)) (hr : Breaks r ok first parts)

section Counts

variable {limit : Nat} {written : Except EncodeError Fragment}
  {others : Except EncodeError (List Fragment)} {f : Fragment}

theorem Counts.bind (h : Counts limit written r ok f) (g : α → Reader β) :
    Counts limit written (r >>= g) ok f := by
  rcases h with hok | ⟨herror, hexceeds⟩
  · exact .written hok
  · exact .exceeded herror fun _ _ _ hb hr => (hexceeds hb hr).bind g

theorem CountsAll.cons (h : Counts limit written r ok f) (hs : Starts first f.text)
    (hread : written = .ok f → Reads r ok f.text x)
    (hall : CountsAll limit others r ok first parts) :
    CountsAll limit (do return (← written) :: (← others)) r ok first (f :: parts) := by
  rcases h with hok | ⟨herror, hexceeds⟩
  · rcases hall with hothers | ⟨herror, hbreaks⟩
    · exact .written ((bind_of_ok hok).trans (bind_of_ok hothers))
    · refine .exceeded ((bind_of_ok hok).trans (bind_of_error herror)) ?_
      exact .later (hread hok) hs hbreaks
  · exact .exceeded (bind_of_error herror) (.here hexceeds hs)

end Counts

theorem countsAll_mapM {limit : Nat} {write write' : γ → Except EncodeError Fragment}
    {back : γ → α} (hwrite : ∀ y f, write y = .ok f → Starts first f.text)
    (hwrite' : ∀ y f, write' y = .ok f → Reads r ok f.text (back y))
    (hcounts : ∀ y f, write y = .ok f → Counts limit (write' y) r ok f) {ys : List γ}
    (h : ys.mapM write = .ok parts) : CountsAll limit (ys.mapM write') r ok first parts := by
  induction ys generalizing parts with
  | nil => exact .written h
  | cons y ys ih =>
      rw [List.mapM_cons] at h ⊢
      obtain ⟨f, hf, h⟩ := bind_eq_ok.mp h
      obtain ⟨fs, hfs, h⟩ := bind_eq_ok.mp h
      cases h
      exact .cons (hcounts y f hf) (hwrite y f hf) (hwrite' y f) (ih hfs)

end Reader

/-! ## Limits -/

/-- The writer with another limit. -/
def Encoder.limited (e : Encoder) (limit : Nat) : Encoder :=
  { e with options := { e.options with maxDepth := limit } }

/-- The reader with another limit. -/
def Decoder.limited (d : Decoder) (limit : Nat) : Decoder :=
  { d with maxDepth := limit }

/-- The same document, read with another limit. -/
def Decoding.limited (d : Decoding) (limit : Nat) : Decoding :=
  { d with maxDepth := limit }

section

variable {d : Decoding} {e : Encoder} {stand : Entry → Widget → Widget} {limit : Nat}
  {readValue : Reader Value} {readWidget : Reader Widget} {readList : Reader (List Value)}
  {text : List Char} {parts : List Fragment} {rest : List Char} {o : List OpenBracket}

theorem Understands.limited (hu : Understands d.toDecoder e stand) (limit : Nat) :
    Understands (d.limited limit).toDecoder (e.limited limit) stand where
  symbols := hu.symbols
  tables := hu.tables
  depth := rfl
  references := hu.references

/-! ## Widgets -/

theorem exceeds_widget_zero (hhead : WidgetHead text) : Exceeds (d.widget 0) endsValue text := by
  intro before rest o hb _
  obtain ⟨c, r, htext, hc⟩ := (hhead.starts.append rest).exists_cons
  have hwidget : (c == '@' || c == '!' || isNameStart c) = true := hc
  refine (runs_expectNow _).givesUp ((runs_next hb).givesUp ?_)
  rw [htext, List.head?_cons]
  dsimp only
  rw [if_pos hwidget]
  exact givesUp_tooDeep

theorem exceeds_property (hu : Understands d.toDecoder e stand) {key : String} {code : List Char}
    (hcode : e.propertyKey key = .ok code) (hv : Exceeds readValue endsValue text)
    (hstart : Starts startsValue text) :
    Exceeds (d.property readValue) endsValue (code ++ ':' :: text) := by
  intro before rest o hb hr
  rw [List.append_assoc, List.cons_append] at hb
  have hvalue := dropBlanks_append_of_starts (hstart.mono fun _ => isSolid_of_startsValue) rest
  refine (runs_expectNow _).givesUp ?_
  refine (reads_propertyKey hu.symbols hu.tables hcode hb rfl).givesUp
    ((runs_expect rfl).givesUp ?_)
  exact (runs_expectNow _).givesUp ((hv hvalue hr).bind _)

theorem givesUp_properties (h : Breaks (d.property readValue) endsValue startsCode parts) :
    GivesUp (d.properties readValue)
      ⟨'\x7b' :: ((Fragment.join [','] parts).text ++ '\x7d' :: rest), o⟩ := by
  have hsolid : ∀ c, startsCode c = true → isSolid c = true := fun _ => isSolid_of_startsCode
  have hbody := h.dropBlanks_join hsolid [','] ('\x7d' :: rest)
  refine (runs_openBracket rfl).givesUp ((runs_expectNow _).givesUp ?_)
  exact (givesUp_separatedUntil (separates_comma hsolid) h hbody rfl (by decide)).bind _

theorem givesUp_children (h : Breaks (Decoding.child readWidget) endsValue startsWidget parts) :
    GivesUp (d.children readWidget)
      ⟨'[' :: ((Fragment.join [','] parts).text ++ ']' :: rest), o⟩ := by
  have hsolid : ∀ c, startsWidget c = true → isSolid c = true := fun _ => isSolid_of_startsWidget
  have hbody := h.dropBlanks_join hsolid [','] (']' :: rest)
  refine (runs_openBracket rfl).givesUp ((runs_expectNow _).givesUp ?_)
  exact (givesUp_separatedUntil (separates_comma hsolid) h hbody rfl (by decide)).bind _

theorem exceeds_of_properties (hu : Understands d.toDecoder e stand) {t : String}
    {code : List Char} {properties children : List Fragment} (hcode : e.typeCode t = .ok code)
    (h : Breaks (d.property readValue) endsValue startsCode properties) :
    Exceeds (d.widgetWith (d.widgetBody readValue readWidget)) endsValue
      (fullText code properties children).text := by
  intro before rest o hb _
  rw [fullText_append] at hb
  exact (leads_fullWidget hu hcode hb).givesUp ((givesUp_properties h).bind _)

theorem exceeds_of_children (hu : Understands d.toDecoder e stand) {t : String}
    {code : List Char} {ps : List Property} {properties children : List Fragment}
    (hcode : e.typeCode t = .ok code)
    (hps : ReadsAll (d.property readValue) endsValue startsCode properties ps)
    (h : Breaks (Decoding.child readWidget) endsValue startsWidget children) :
    Exceeds (d.widgetWith (d.widgetBody readValue readWidget)) endsValue
      (fullText code properties children).text := by
  intro before rest o hb _
  have hchildren : children.isEmpty = false := by cases h <;> rfl
  rw [fullText_append, hchildren, if_neg Bool.false_ne_true] at hb
  refine (leads_fullWidget hu hcode hb).givesUp ((runs_properties hps).givesUp ?_)
  refine (runs_next (dropBlanks_cons (by decide) _)).givesUp ?_
  rw [List.head?_cons, if_pos rfl]
  exact (givesUp_children h).bind _

/-! ## Values -/

theorem exceeds_widgetValue (h : Exceeds readWidget endsValue text) (hhead : WidgetHead text) :
    Exceeds (d.valueWith readList readWidget) endsValue text := by
  intro before rest o hb hr
  exact (leads_widgetValue hhead hb).givesUp ((h (dropBlanks_of_eq hb) hr).bind _)

theorem exceeds_list_zero (f : Fragment) :
    Exceeds (d.value 0) endsValue (Fragment.enclose ['['] f [']']).text := by
  intro before rest o hb _
  rw [enclose_append, List.singleton_append] at hb
  exact (leads_listValue hb).givesUp (givesUp_tooDeep.bind _)

theorem exceeds_listValue (h : Breaks readValue endsValue startsValue parts) :
    Exceeds (d.valueWith (d.list readValue) readWidget) endsValue
      (Fragment.enclose ['['] (.join [','] parts) [']']).text := by
  intro before rest o hb _
  rw [enclose_append, List.singleton_append] at hb
  have hsolid : ∀ c, startsValue c = true → isSolid c = true := fun _ => isSolid_of_startsValue
  have hbody := h.dropBlanks_join hsolid [','] (']' :: rest)
  have hlist : GivesUp (d.list readValue)
      ⟨'[' :: ((Fragment.join [','] parts).text ++ ']' :: rest), o⟩ := by
    refine (runs_openBracket rfl).givesUp ?_
    exact (givesUp_separatedUntil (separates_comma hsolid) h hbody rfl (by decide)).bind _
  exact (leads_listValue hb).givesUp (hlist.bind _)

/-! ## All levels -/

mutual

theorem counts_widget (hu : Understands d.toDecoder e stand) (limit : Nat) :
    (w : Widget) → {levels m : Nat} → {f : Fragment} → e.widget levels w = .ok f →
      Counts limit ((e.limited limit).widget m w) ((d.limited limit).widget m) endsValue f
  | ⟨t, ps, cs⟩, 0, m, f, h => by cases h
  | ⟨t, ps, cs⟩, levels + 1, 0, f, h => .exceeded rfl (exceeds_widget_zero (reads_widget hu _ h).2)
  | ⟨t, ps, cs⟩, levels + 1, m + 1, f, h => by
      have hu' := hu.limited limit
      cases hmatch : e.matchPattern? ⟨t, ps, cs⟩ with
      | some entry =>
          rw [widget_eq_reference hmatch] at h
          exact .written ((widget_eq_reference (e := e.limited limit) hmatch).trans h)
      | none =>
          have hmatch' : (e.limited limit).matchPattern? ⟨t, ps, cs⟩ = none := hmatch
          obtain ⟨code, properties, children, hcode, hps, hcs, rfl⟩ := (widget_in_full hmatch).mp h
          have hcode' : (e.limited limit).typeCode t = .ok code := hcode
          rw [widget_succ]
          rcases counts_properties hu limit ps hps with hps' | ⟨herror, hbreaks⟩
          · rcases counts_children hu limit cs hcs with hcs' | ⟨herror, hbreaks⟩
            · exact .written
                ((widget_in_full hmatch').mpr ⟨code, properties, children, hcode', hps',
                hcs', rfl⟩)
            · refine .exceeded ?_
                (exceeds_of_children hu' hcode' (readsAll_properties hu' ps hps') hbreaks)
              simp only [Encoder.widget, hmatch']
              exact (bind_of_ok hcode').trans ((bind_of_ok hps').trans (bind_of_error herror))
          · refine .exceeded ?_ (exceeds_of_properties hu' hcode' hbreaks)
            simp only [Encoder.widget, hmatch']
            exact (bind_of_ok hcode').trans (bind_of_error herror)

theorem counts_properties (hu : Understands d.toDecoder e stand) (limit : Nat) :
    (ps : List Property) → {levels m : Nat} → {fs : List Fragment} →
      e.properties levels ps = .ok fs →
      CountsAll limit ((e.limited limit).properties m ps)
        ((d.limited limit).property ((d.limited limit).value m)) endsValue startsCode fs
  | [], levels, m, fs, h => .written h
  | ⟨key, v⟩ :: ps, levels, m, fs, h => by
      have hu' := hu.limited limit
      obtain ⟨code, f, rest, hcode, hf, hrest, rfl⟩ := properties_cons_eq_ok.mp h
      have hcode' : (e.limited limit).propertyKey key = .ok code := hcode
      have hstart := (reads_value hu v hf).2
      have hstarts : Starts startsCode (Fragment.ofText (code ++ [':']) ++ f).text :=
        ((starts_of_propertyKey hu.tables hcode).append _).append _
      have htext : (Fragment.ofText (code ++ [':']) ++ f).text = code ++ ':' :: f.text := by simp
      rw [Encoder.properties]
      rcases counts_value hu limit v hf with hv | ⟨herror, hexceeds⟩
      · rcases counts_properties hu limit ps hrest with hps | ⟨herror, hbreaks⟩
        · exact .written ((bind_of_ok hcode').trans ((bind_of_ok hv).trans (bind_of_ok hps)))
        · have hread := reads_property hu' hcode' (reads_value hu' v hv).1 (reads_value hu' v hv).2
          refine .exceeded ?_ (.later (htext ▸ hread) hstarts hbreaks)
          exact (bind_of_ok hcode').trans ((bind_of_ok hv).trans (bind_of_error herror))
      · refine .exceeded ?_ (.here (htext ▸ exceeds_property hu' hcode' hexceeds hstart) hstarts)
        exact (bind_of_ok hcode').trans (bind_of_error herror)

theorem counts_children (hu : Understands d.toDecoder e stand) (limit : Nat) :
    (cs : List Widget) → {levels m : Nat} → {fs : List Fragment} →
      e.children levels cs = .ok fs →
      CountsAll limit ((e.limited limit).children m cs)
        (Decoding.child ((d.limited limit).widget m)) endsValue startsWidget fs
  | [], levels, m, fs, h => .written h
  | c :: cs, levels, m, fs, h => by
      obtain ⟨f, rest, hf, hrest, rfl⟩ := children_cons_eq_ok.mp h
      have hstart := (reads_widget hu c hf).2.starts
      rw [Encoder.children]
      exact .cons ((counts_widget hu limit c hf).bind _) hstart
        (fun hc => reads_child (reads_widget (hu.limited limit) c hc).1)
        (counts_children hu limit cs hrest)

theorem counts_value (hu : Understands d.toDecoder e stand) (limit : Nat) :
    (v : Value) → {levels m : Nat} → {f : Fragment} → e.value levels v = .ok f →
      Counts limit ((e.limited limit).value m v) ((d.limited limit).value m) endsValue f
  | .scalar s, levels, m, f, h => .written h
  | .widget w, levels, m, f, h => by
      obtain ⟨readList, hvalue⟩ := value_eq_valueWith (d.limited limit) m
      rcases counts_widget hu limit w h with hw | ⟨herror, hexceeds⟩
      · exact .written hw
      · rw [hvalue]
        exact .exceeded herror (exceeds_widgetValue hexceeds (reads_widget hu w h).2)
  | .list vs, 0, m, f, h => by cases h
  | .list vs, levels + 1, 0, f, h => by
      obtain ⟨texts, htexts, h⟩ := bind_eq_ok.mp h
      cases h
      exact .exceeded rfl (exceeds_list_zero _)
  | .list vs, levels + 1, m + 1, f, h => by
      obtain ⟨texts, htexts, h⟩ := bind_eq_ok.mp h
      cases h
      rw [value_succ]
      rcases counts_items hu limit vs htexts with hvs | ⟨herror, hbreaks⟩
      · exact .written (bind_of_ok hvs)
      · exact .exceeded (bind_of_error herror) (exceeds_listValue hbreaks)

theorem counts_items (hu : Understands d.toDecoder e stand) (limit : Nat) :
    (vs : List Value) → {levels m : Nat} → {fs : List Fragment} → e.items levels vs = .ok fs →
      CountsAll limit ((e.limited limit).items m vs) ((d.limited limit).value m) endsValue
        startsValue fs
  | [], levels, m, fs, h => .written h
  | v :: vs, levels, m, fs, h => by
      obtain ⟨f, rest, hf, hrest, rfl⟩ := items_cons_eq_ok.mp h
      have hstart := (reads_value hu v hf).2
      rw [Encoder.items]
      exact .cons (counts_value hu limit v hf) hstart
        (fun hv => (reads_value (hu.limited limit) v hv).1) (counts_items hu limit vs hrest)

end

/-! ## Types -/

theorem exceeds_type_zero (hu : Understands d.toDecoder e stand) {name : String} {code : List Char}
    (h : e.typeCode name = .ok code) (f : Fragment) :
    Exceeds (d.typeRef 0) endsType (Fragment.enclose (code ++ ['<']) f ['>']).text := by
  intro before rest o hb _
  rw [enclose_append, List.append_assoc, List.singleton_append] at hb
  refine (reads_typeCode hu h hb rfl).givesUp
    ((runs_next (dropBlanks_cons (by decide) _)).givesUp ?_)
  rw [List.head?_cons, if_pos rfl]
  exact givesUp_tooDeep.bind _

theorem exceeds_typeWithArgs (hu : Understands d.toDecoder e stand) {name : String}
    {code : List Char} {readType : Reader TypeRef} (h : e.typeCode name = .ok code)
    (hts : Breaks readType endsType startsCode parts) :
    Exceeds (d.typeRefWith (d.typeArgs readType)) endsType
      (Fragment.enclose (code ++ ['<']) (.join [','] parts) ['>']).text := by
  intro before rest o hb _
  rw [enclose_append, List.append_assoc, List.singleton_append] at hb
  have hbody := hts.dropBlanks_join separates_types.first [','] ('>' :: rest)
  have hargs : GivesUp (d.typeArgs readType)
      ⟨'<' :: ((Fragment.join [','] parts).text ++ '>' :: rest), o⟩ :=
    (runs_openBracket rfl).givesUp ((givesUp_separated separates_types hts hbody rfl).bind _)
  refine (reads_typeCode hu h hb rfl).givesUp
    ((runs_next (dropBlanks_cons (by decide) _)).givesUp ?_)
  rw [List.head?_cons, if_pos rfl]
  exact hargs.bind _

mutual

theorem counts_typeRef (hu : Understands d.toDecoder e stand) (limit : Nat) :
    (t : TypeRef) → {levels m : Nat} → {f : Fragment} → e.typeRef levels t = .ok f →
      Counts limit ((e.limited limit).typeRef m t) ((d.limited limit).typeRef m) endsType f
  | ⟨name, []⟩, levels, m, f, h => by
      rw [Encoder.typeRef] at h ⊢
      exact .written h
  | ⟨name, arg :: args⟩, levels, m, f, h => by
      have hu' := hu.limited limit
      rw [Encoder.typeRef] at h ⊢
      obtain ⟨code, hcode, h⟩ := bind_eq_ok.mp h
      have hcode' : (e.limited limit).typeCode name = .ok code := hcode
      cases levels with
      | zero => cases h
      | succ levels =>
          obtain ⟨texts, htexts, h⟩ := bind_eq_ok.mp h
          cases h
          cases m with
          | zero => exact .exceeded (bind_of_ok hcode') (exceeds_type_zero hu' hcode' _)
          | succ m =>
              rcases counts_typeRefs hu limit (arg :: args) htexts with hargs | ⟨herror, hbreaks⟩
              · exact .written ((bind_of_ok hcode').trans (bind_of_ok hargs))
              · refine .exceeded ?_ (exceeds_typeWithArgs hu' hcode' hbreaks)
                exact (bind_of_ok hcode').trans (bind_of_error herror)

theorem counts_typeRefs (hu : Understands d.toDecoder e stand) (limit : Nat) :
    (ts : List TypeRef) → {levels m : Nat} → {fs : List Fragment} →
      e.typeRefs levels ts = .ok fs →
      CountsAll limit ((e.limited limit).typeRefs m ts) ((d.limited limit).typeRef m) endsType
        startsCode fs
  | [], levels, m, fs, h => .written h
  | t :: ts, levels, m, fs, h => by
      obtain ⟨f, rest, hf, hrest, rfl⟩ := typeRefs_cons_eq_ok.mp h
      have hstart := (reads_typeRef hu t hf).2
      rw [Encoder.typeRefs]
      exact .cons (counts_typeRef hu limit t hf) hstart
        (fun ht => (reads_typeRef (hu.limited limit) t ht).1) (counts_typeRefs hu limit ts hrest)

end

theorem counts_declaredType (hu : Understands d.toDecoder e stand) (limit : Nat)
    {t : Option TypeRef} {f : Fragment} (h : e.declaredType t = .ok f) :
    Counts limit (Encoder.declaredType (e.limited limit) t)
      (Decoding.declaredType (d.limited limit)) endsType f := by
  rcases optional_eq_ok h with ⟨rfl, rfl⟩ | ⟨u, g, rfl, hg, rfl⟩
  · exact .written rfl
  · rcases counts_typeRef hu limit u hg (m := limit) with hu' | ⟨herror, hexceeds⟩
    · exact .written (map_of_ok hu')
    · refine .exceeded (map_of_error herror) fun before rest o hb hr => ?_
      have hstart := (reads_typeRef hu u hg).2.mono fun _ => isSolid_of_startsCode
      exact (runs_eat hb).givesUp ((hexceeds (dropBlanks_append_of_starts hstart rest) hr).bind _)

/-! ## Fields and parameters -/

theorem counts_initializer (hu : Understands d.toDecoder e stand) (limit : Nat) {v : Option Value}
    {f : Fragment} (h : Encoder.optional '=' (e.value e.options.maxDepth) v = .ok f) :
    Counts limit (Encoder.optional '=' ((e.limited limit).value limit) v)
      (d.limited limit).initializer endsField f := by
  rcases optional_eq_ok h with ⟨rfl, rfl⟩ | ⟨u, g, rfl, hg, rfl⟩
  · exact .written rfl
  · rcases counts_value hu limit u hg (m := limit) with hu' | ⟨herror, hexceeds⟩
    · exact .written (map_of_ok hu')
    · refine .exceeded (map_of_error herror) fun before rest o hb hr => ?_
      have hstart := (reads_value hu u hg).2.mono fun _ => isSolid_of_startsValue
      have hends : endsValue rest := hr.widen (by decide)
      exact (runs_eat hb).givesUp
        ((hexceeds (dropBlanks_append_of_starts hstart rest) hends).bind _)

theorem counts_field (hu : Understands d.toDecoder e stand) (limit : Nat) {x : Field} {f : Fragment}
    (h : e.field x = .ok f) :
    Counts limit ((e.limited limit).field x) (d.limited limit).field endsField f := by
  have hu' := hu.limited limit
  obtain ⟨modifiers, hmodifiers, h⟩ := bind_eq_ok.mp h
  obtain ⟨name, hname, h⟩ := bind_eq_ok.mp h
  obtain ⟨type, htype, h⟩ := bind_eq_ok.mp h
  obtain ⟨init, hinit, h⟩ := bind_eq_ok.mp h
  cases h
  have hmodifiers' : (e.limited limit).keywords x.modifiers = .ok modifiers := hmodifiers
  obtain ⟨hid, rfl⟩ := identifier_eq_ok hname
  have hbehind {rest : List Char} (hr : endsField rest) :
      Follows (among ['=', ',', ';']) (init.text ++ rest) :=
    follows_optional hinit (by decide) (hr.widen (by decide))
  have hbehind' {rest : List Char} (hr : endsField rest) :
      Follows (among [':', '=', ',', ';']) (type.text ++ (init.text ++ rest)) :=
    follows_optional htype (by decide) ((hbehind hr).widen (by decide))
  rcases counts_declaredType hu limit htype with htype' | ⟨herror, hexceeds⟩
  · rcases counts_initializer hu limit hinit with hinit' | ⟨herror, hexceeds⟩
    · exact .written ((bind_of_ok hmodifiers').trans ((bind_of_ok hname).trans
        ((bind_of_ok htype').trans (bind_of_ok hinit'))))
    · refine .exceeded ((bind_of_ok hmodifiers').trans ((bind_of_ok hname).trans
        ((bind_of_ok htype').trans (bind_of_error herror)))) fun before rest o hb hr => ?_
      refine (leads_field hu' hmodifiers' hid hb ((hbehind' hr).widen (by decide))).givesUp ?_
      refine (reads_declaredType hu' htype'
        (dropBlanks_of_follows ((hbehind' hr).widen (by decide)))
        ((hbehind hr).widen (by decide))).givesUp ?_
      exact (hexceeds (dropBlanks_of_follows ((hbehind hr).widen (by decide))) hr).bind _
  · refine .exceeded ((bind_of_ok hmodifiers').trans ((bind_of_ok hname).trans
      (bind_of_error herror))) fun before rest o hb hr => ?_
    refine (leads_field hu' hmodifiers' hid hb ((hbehind' hr).widen (by decide))).givesUp ?_
    exact (hexceeds (dropBlanks_of_follows ((hbehind' hr).widen (by decide)))
      ((hbehind hr).widen (by decide))).bind _

theorem counts_param (hu : Understands d.toDecoder e stand) (limit : Nat) {x : Param} {f : Fragment}
    (h : e.param x = .ok f) :
    Counts limit ((e.limited limit).param x) (d.limited limit).param endsParam f := by
  obtain ⟨name, hname, h⟩ := bind_eq_ok.mp h
  obtain ⟨type, htype, h⟩ := bind_eq_ok.mp h
  cases h
  obtain ⟨hid, rfl⟩ := identifier_eq_ok hname
  rcases counts_declaredType hu limit htype with htype' | ⟨herror, hexceeds⟩
  · exact .written ((bind_of_ok hname).trans (bind_of_ok htype'))
  · refine .exceeded ((bind_of_ok hname).trans (bind_of_error herror)) fun before rest o hb hr => ?_
    rw [Fragment.text_append, Fragment.text_ofText, List.append_assoc] at hb
    have hbehind : Follows (among [':', ',', ')']) (type.text ++ rest) :=
      follows_optional htype (by decide) (hr.widen (by decide))
    refine (reads_identifier hid hb (hbehind.widen (by decide))).givesUp ?_
    exact (hexceeds (dropBlanks_of_follows (hbehind.widen (by decide)))
      (hr.widen (by decide))).bind _

/-! ## Methods -/

theorem counts_statementValue (hu : Understands d.toDecoder e stand) (limit : Nat)
    {v : Option Value} {f : Fragment} (h : e.statementValue v = .ok f) :
    Counts limit ((e.limited limit).statementValue v) (d.limited limit).statementValue
      endsStatement f := by
  cases v with
  | none => exact .written h
  | some v =>
      rcases counts_value hu limit v h (m := limit) with hv | ⟨herror, hexceeds⟩
      · exact .written hv
      · refine .exceeded herror fun before rest o hb hr => ?_
        obtain ⟨c, r, hrest, hc⟩ := hr.exists_cons
        have hstart := (reads_value hu v h).2
        have hends : endsValue rest := by
          rw [hrest]
          exact of_among (p := among [',', ';', '|', '\x7d', ']', ')']) (by decide) hc
        refine (runs_next hb).givesUp ?_
        split
        · next heq => exact absurd heq (ne_head_of_follows (hstart.follows rest) (by decide))
        · next heq => exact absurd heq (ne_head_of_follows (hstart.follows rest) (by decide))
        · exact (hexceeds (dropBlanks_of_eq hb) hends).bind _

theorem counts_statement (hu : Understands d.toDecoder e stand) (limit : Nat) {x : Statement}
    {f : Fragment} (h : e.statement x = .ok f) :
    Counts limit ((e.limited limit).statement x) (d.limited limit).statement endsStatement f := by
  have hu' := hu.limited limit
  rw [Encoder.statement] at h ⊢
  split at h
  · cases h
  · next hfull =>
      rw [if_neg hfull]
      obtain ⟨keywords, hkeywords, h⟩ := bind_eq_ok.mp h
      obtain ⟨value, hvalue, h⟩ := bind_eq_ok.mp h
      cases h
      have hkeywords' : (e.limited limit).keywords x.keywords = .ok keywords := hkeywords
      rcases counts_statementValue hu limit hvalue with hvalue' | ⟨herror, hexceeds⟩
      · exact .written ((bind_of_ok hkeywords').trans (bind_of_ok hvalue'))
      · refine .exceeded ((bind_of_ok hkeywords').trans (bind_of_error herror))
          fun before rest o hb hr => ?_
        rw [Fragment.text_append, List.append_assoc] at hb
        have hbehind := follows_statementValue hu hvalue hr
        have hsolid := hbehind.mono fun c hc => (Bool.and_eq_true _ _ ▸ hc : _ ∧ _).1
        refine (reads_modifiers hu'.symbols hu'.tables hkeywords' hb hbehind).givesUp ?_
        exact (hexceeds (dropBlanks_of_follows hsolid) hr).bind _

theorem counts_methodBody (hu : Understands d.toDecoder e stand) (limit : Nat) {b : MethodBody}
    {f : Fragment} (h : e.methodBody b = .ok f) :
    Counts limit ((e.limited limit).methodBody b) (d.limited limit).methodBody endsValue f := by
  cases b with
  | widget w =>
      obtain ⟨g, hg, rfl⟩ := map_eq_ok.mp h
      rcases counts_widget hu limit w hg (m := limit) with hw | ⟨herror, hexceeds⟩
      · exact .written (map_of_ok hw)
      · refine .exceeded (map_of_error herror) fun before rest o hb hr => ?_
        have hstart := (reads_widget hu w hg).2.starts.mono fun _ => isSolid_of_startsWidget
        refine (runs_next hb).givesUp (runs_advance.givesUp ?_)
        exact (hexceeds (dropBlanks_append_of_starts hstart rest) hr).bind _
  | statements block =>
      obtain ⟨texts, htexts, rfl⟩ := map_eq_ok.mp h
      have hall := countsAll_mapM (fun x f hf => (reads_statement hu (x := x) (f := f) hf).2)
        (fun x f hf => (reads_statement (hu.limited limit) (x := x) (f := f) hf).1)
        (fun _ _ hf => counts_statement hu limit hf) htexts
      rcases hall with htexts' | ⟨herror, hbreaks⟩
      · exact .written (map_of_ok htexts')
      · refine .exceeded (map_of_error herror) fun before rest o hb _ => ?_
        rw [enclose_append, List.singleton_append] at hb
        have hbody := hbreaks.dropBlanks_join separates_statements.first [';'] ('\x7d' :: rest)
        refine (runs_next hb).givesUp ?_
        rw [List.head?_cons]
        have hstatements : GivesUp (d.limited limit).statements
            ⟨'\x7b' :: ((Fragment.join [';'] texts).text ++ '\x7d' :: rest), o⟩ := by
          refine (runs_openBracket rfl).givesUp ?_
          exact (givesUp_separatedUntil separates_statements hbreaks hbody rfl (by decide)).bind _
        exact hstatements.bind _

theorem countsAll_params (hu : Understands d.toDecoder e stand) (limit : Nat) {xs : List Param}
    (h : xs.mapM e.param = .ok parts) :
    CountsAll limit (xs.mapM (e.limited limit).param) (d.limited limit).param endsParam isNameStart
      parts :=
  countsAll_mapM (fun x f hf => (reads_param hu (x := x) (f := f) hf).2)
    (fun x f hf => (reads_param (hu.limited limit) (x := x) (f := f) hf).1)
    (fun _ _ hf => counts_param hu limit hf) h

theorem givesUp_params (h : Breaks d.param endsParam isNameStart parts) :
    GivesUp d.params ⟨'(' :: ((Fragment.join [','] parts).text ++ ')' :: rest), o⟩ := by
  have hbody := h.dropBlanks_join separates_params.first [','] (')' :: rest)
  refine (runs_openBracket rfl).givesUp ?_
  exact (givesUp_separatedUntil separates_params h hbody rfl (by decide)).bind _

theorem counts_method (hu : Understands d.toDecoder e stand) (limit : Nat) {x : Method}
    {f : Fragment} (h : e.method x = .ok f) :
    Counts limit ((e.limited limit).method x) (d.limited limit).method endsValue f := by
  have hu' := hu.limited limit
  obtain ⟨modifiers, hmodifiers, h⟩ := bind_eq_ok.mp h
  obtain ⟨name, hname, h⟩ := bind_eq_ok.mp h
  obtain ⟨params, hparams, h⟩ := bind_eq_ok.mp h
  obtain ⟨type, htype, h⟩ := bind_eq_ok.mp h
  obtain ⟨body, hbody, h⟩ := bind_eq_ok.mp h
  cases h
  have hmodifiers' : (e.limited limit).keywords x.modifiers = .ok modifiers := hmodifiers
  obtain ⟨hid, rfl⟩ := identifier_eq_ok hname
  have hstart := (reads_methodBody hu hbody).2
  have hbehind (rest : List Char) : Follows (among ['=', '\x7b']) (body.text ++ rest) :=
    hstart.follows rest
  have hbehind' (rest : List Char) :
      Follows (among [':', '=', '\x7b']) (type.text ++ (body.text ++ rest)) :=
    follows_optional htype (by decide) ((hbehind rest).widen (by decide))
  rcases countsAll_params hu limit hparams with hparams' | ⟨herror, hbreaks⟩
  · rcases counts_declaredType hu limit htype with htype' | ⟨herror, hexceeds⟩
    · rcases counts_methodBody hu limit hbody with hbody' | ⟨herror, hexceeds⟩
      · exact .written ((bind_of_ok hmodifiers').trans ((bind_of_ok hname).trans
          ((bind_of_ok hparams').trans ((bind_of_ok htype').trans (bind_of_ok hbody')))))
      · refine .exceeded ((bind_of_ok hmodifiers').trans ((bind_of_ok hname).trans
          ((bind_of_ok hparams').trans ((bind_of_ok htype').trans (bind_of_error herror)))))
          fun before rest o hb hr => ?_
        refine (leads_method hu' hmodifiers' hid hb).givesUp
          ((runs_params hu' hparams').givesUp ?_)
        refine (reads_declaredType hu' htype'
          (dropBlanks_of_follows ((hbehind' rest).widen (by decide)))
          ((hbehind rest).widen (by decide))).givesUp ?_
        exact (hexceeds (dropBlanks_of_follows ((hbehind rest).widen (by decide))) hr).bind _
    · refine .exceeded ((bind_of_ok hmodifiers').trans ((bind_of_ok hname).trans
        ((bind_of_ok hparams').trans (bind_of_error herror)))) fun before rest o hb _ => ?_
      refine (leads_method hu' hmodifiers' hid hb).givesUp ((runs_params hu' hparams').givesUp ?_)
      exact (hexceeds (dropBlanks_of_follows ((hbehind' rest).widen (by decide)))
        ((hbehind rest).widen (by decide))).bind _
  · refine .exceeded ((bind_of_ok hmodifiers').trans ((bind_of_ok hname).trans
      (bind_of_error herror))) fun before rest o hb _ => ?_
    exact (leads_method hu' hmodifiers' hid hb).givesUp ((givesUp_params hbreaks).bind _)

/-! ## Classes -/

theorem counts_superType (hu : Understands d.toDecoder e stand) (limit : Nat)
    {t : Option TypeRef} {f : Fragment} (h : e.superType t = .ok f) :
    Counts limit ((e.limited limit).superType t) (d.limited limit).superType
      (Follows (· == ';')) f := by
  cases t with
  | none => exact .written h
  | some t =>
      obtain ⟨g, hg, rfl⟩ := map_eq_ok.mp h
      rcases counts_typeRef hu limit t hg (m := limit) with ht | ⟨herror, hexceeds⟩
      · exact .written (map_of_ok ht)
      · refine .exceeded (map_of_error herror) fun before rest o hb _ => ?_
        rw [enclose_append, List.singleton_append] at hb
        have hstart := (reads_typeRef hu t hg).2.mono fun _ => isSolid_of_startsCode
        have hends : endsType ('>' :: rest) := rfl
        refine (runs_next hb).givesUp ?_
        rw [List.head?_cons, if_pos rfl]
        refine (runs_openBracket rfl).givesUp ?_
        exact (hexceeds (dropBlanks_append_of_starts hstart _) hends).bind _

theorem dropBlanks_layout_breaks {α : Type} {r : Reader α} {ok : List Char → Prop}
    {first : Char → Bool} (e : Encoder) (h : Breaks r ok first parts)
    (hfirst : ∀ c, first c = true → isSolid c = true) (rest : List Char) :
    dropBlanks (e.layout ++ ((Fragment.join (',' :: e.layout) parts).text ++ rest)) =
      (Fragment.join (',' :: e.layout) parts).text ++ rest := by
  rw [dropBlanks_append_of_all (isBlank_of_mem_layout e)]
  exact h.dropBlanks_join hfirst _ rest

theorem countsAll_fields (hu : Understands d.toDecoder e stand) (limit : Nat) {xs : List Field}
    (h : xs.mapM e.field = .ok parts) :
    CountsAll limit (xs.mapM (e.limited limit).field) (d.limited limit).field endsField
      startsDeclaration parts :=
  countsAll_mapM (fun x f hf => (reads_field hu (x := x) (f := f) hf).2)
    (fun x f hf => (reads_field (hu.limited limit) (x := x) (f := f) hf).1)
    (fun _ _ hf => counts_field hu limit hf) h

theorem countsAll_methods (hu : Understands d.toDecoder e stand) (limit : Nat) {xs : List Method}
    (h : xs.mapM e.method = .ok parts) :
    CountsAll limit (xs.mapM (e.limited limit).method) (d.limited limit).method endsValue
      startsDeclaration parts :=
  countsAll_mapM (fun x f hf => (reads_method hu (x := x) (f := f) hf).2)
    (fun x f hf => (reads_method (hu.limited limit) (x := x) (f := f) hf).1)
    (fun _ _ hf => counts_method hu limit hf) h

theorem givesUp_fields (h : Breaks d.field endsField startsDeclaration parts) (back : List Char) :
    GivesUp (separatedUnless (· == some ';') ',' d.field)
      ⟨e.layout ++ ((Fragment.join (',' :: e.layout) parts).text ++ ';' :: back), o⟩ :=
  givesUp_separatedUntil (separates_fields e) h
    (dropBlanks_layout_breaks e h (separates_fields e).first _) rfl (by decide)

theorem givesUp_methods (h : Breaks d.method endsValue startsDeclaration parts)
    (hr : endsItem rest) :
    GivesUp (separatedUnless (fun c => c == none || c == some '|') ',' d.method)
      ⟨e.layout ++ ((Fragment.join (',' :: e.layout) parts).text ++ rest), o⟩ :=
  givesUp_separatedUnless (separates_methods e) h
    (dropBlanks_layout_breaks e h (separates_methods e).first _) (hr.widen (by decide))
    fun _ => not_endsMethods_of_startsDeclaration

theorem counts_classDecl (hu : Understands d.toDecoder e stand) (limit : Nat) {x : ClassDecl}
    {f : Fragment} (h : e.classDecl x = .ok f) :
    Counts limit ((e.limited limit).classDecl x) (d.limited limit).item endsItem f := by
  have hu' := hu.limited limit
  obtain ⟨name, hname, h⟩ := bind_eq_ok.mp h
  obtain ⟨superType, hsuper, h⟩ := bind_eq_ok.mp h
  obtain ⟨fields, hfields, h⟩ := bind_eq_ok.mp h
  obtain ⟨methods, hmethods, h⟩ := bind_eq_ok.mp h
  cases h
  obtain ⟨hid, rfl⟩ := identifier_eq_ok hname
  have hbehind (back : List Char) :=
    dropBlanks_of_follows ((follows_superType hsuper back).widen (by decide))
  rcases counts_superType hu limit hsuper with hsuper' | ⟨herror, hexceeds⟩
  · rcases countsAll_fields hu limit hfields with hfields' | ⟨herror, hbreaks⟩
    · rcases countsAll_methods hu limit hmethods with hmethods' | ⟨herror, hbreaks⟩
      · exact .written ((bind_of_ok hname).trans ((bind_of_ok hsuper').trans
          ((bind_of_ok hfields').trans (bind_of_ok hmethods'))))
      · refine .exceeded ((bind_of_ok hname).trans ((bind_of_ok hsuper').trans
          ((bind_of_ok hfields').trans (bind_of_error herror)))) fun before rest o hb hr => ?_
        refine (leads_item_class (hb.trans (text_classDecl ..))).givesUp (.bind ?_ _)
        refine (leads_classDecl hid hsuper _).givesUp ?_
        refine (reads_superType hu' hsuper' (hbehind _) rfl).givesUp ((runs_expect rfl).givesUp ?_)
        refine (runs_fields hu' hfields' _).givesUp ((runs_expect rfl).givesUp ?_)
        exact (givesUp_methods hbreaks hr).bind _
    · refine .exceeded ((bind_of_ok hname).trans ((bind_of_ok hsuper').trans
        (bind_of_error herror))) fun before rest o hb _ => ?_
      refine (leads_item_class (hb.trans (text_classDecl ..))).givesUp (.bind ?_ _)
      refine (leads_classDecl hid hsuper _).givesUp ?_
      refine (reads_superType hu' hsuper' (hbehind _) rfl).givesUp ((runs_expect rfl).givesUp ?_)
      exact (givesUp_fields hbreaks _).bind _
  · refine .exceeded ((bind_of_ok hname).trans (bind_of_error herror)) fun before rest o hb _ => ?_
    refine (leads_item_class (hb.trans (text_classDecl ..))).givesUp (.bind ?_ _)
    exact (leads_classDecl hid hsuper _).givesUp ((hexceeds (hbehind _) rfl).bind _)

/-! ## Documents -/

theorem counts_item (hu : Understands d.toDecoder e stand) (limit : Nat) {n : Node} {f : Fragment}
    (h : e.item n = .ok f) :
    Counts limit ((e.limited limit).item n) (d.limited limit).item endsItem f := by
  cases n with
  | classDecl x => exact counts_classDecl hu limit h
  | method x =>
      obtain ⟨g, hg, rfl⟩ := map_eq_ok.mp h
      rcases counts_method hu limit hg with hg' | ⟨herror, hexceeds⟩
      · exact .written (map_of_ok hg')
      · refine .exceeded (map_of_error herror) fun before rest o hb hr => ?_
        have hstart := (reads_method hu hg).2.mono fun _ => isSolid_of_startsDeclaration
        exact (leads_item_method hb).givesUp ((hexceeds (dropBlanks_append_of_starts hstart rest)
          (endsValue_of_endsItem hr)).bind _)
  | widget w =>
      rcases counts_widget hu limit w h (m := limit) with hw | ⟨herror, hexceeds⟩
      · exact .written hw
      · refine .exceeded herror fun before rest o hb hr => ?_
        exact (leads_item_widget (reads_widget hu w h).2 hb).givesUp
          ((hexceeds (dropBlanks_of_eq hb) (endsValue_of_endsItem hr)).bind _)
  | literal l => exact .written h
  | unit items => cases h

theorem givesUp_document (hstart : Starts isSolid text) (h : GivesUp d.root ⟨text, []⟩) :
    GivesUp d.document ⟨text, []⟩ :=
  (leads_document hstart).givesUp (h.bind _)

/-- A document is written at the limit as it stands, or neither written nor read there. -/
theorem counts_document (hu : Understands d.toDecoder e stand) (limit : Nat) {tree : Node}
    {f : Fragment} (h : e.document tree = .ok f) :
    (e.limited limit).document tree = .ok f ∨
      (e.limited limit).document tree = .error (.depthLimitExceeded limit) ∧
        GivesUp (d.limited limit).document ⟨f.text, []⟩ := by
  have hitem {n : Node} (h : e.item n = .ok f) : (e.limited limit).item n = .ok f ∨
      (e.limited limit).item n = .error (.depthLimitExceeded limit) ∧
        GivesUp (d.limited limit).document ⟨f.text, []⟩ := by
    rcases counts_item hu limit h with hok | ⟨herror, hexceeds⟩
    · exact .inl hok
    · have hsolid := (reads_item hu h).2.mono fun _ => isSolid_of_startsValue
      have htext := dropBlanks_append_of_starts hsolid []
      rw [List.append_nil] at htext
      refine .inr ⟨herror, givesUp_document hsolid ?_⟩
      refine (leads_root_item (declaration?_item hu h)).givesUp ?_
      exact hexceeds (htext.trans (List.append_nil _).symm) (follows_nil _)
  cases tree with
  | unit ns =>
      cases ns with
      | nil => exact .inl h
      | cons n ns =>
          obtain ⟨texts, htexts, rfl⟩ := map_eq_ok.mp h
          have hall := countsAll_mapM (fun n f hf => (reads_item hu (n := n) (f := f) hf).2)
            (fun n f hf => (reads_item (hu.limited limit) (n := n) (f := f) hf).1)
            (fun _ _ hf => counts_item hu limit hf) htexts
          rcases hall with htexts' | ⟨herror, hbreaks⟩
          · exact .inl (map_of_ok htexts')
          · refine .inr ⟨map_of_error herror, givesUp_document rfl (leads_root_unit.givesUp ?_)⟩
            have hbody := hbreaks.dropBlanks_join (separates_items e).first ('|' :: e.layout) []
            rw [List.append_nil] at hbody
            refine (givesUp_separated (separates_items e) hbreaks ?_ (follows_nil _)).bind _
            rw [List.append_nil]
            exact hbody
  | classDecl x => exact hitem (n := .classDecl x) h
  | method x => exact hitem (n := .method x) h
  | widget w => exact hitem (n := .widget w) h
  | literal l => exact hitem (n := .literal l) h

end

/-- Whole documents, as writing and reading answer them. -/
theorem encode_limited_or {d : Decoder} {e : Encoder} {stand : Entry → Widget → Widget}
    (hu : Understands d e stand) {tree : Node} {enc : Encoded} (h : e.encode tree = .ok enc)
    (limit : Nat) :
    ((e.limited limit).encode tree = .ok enc ∧
        ∃ read, (d.limited limit).decode enc.document = .ok read) ∨
      (e.limited limit).encode tree = .error (.depthLimitExceeded limit) ∧
        ∃ error, (d.limited limit).decode enc.document = .error error ∧
          error.fault.kind = .depthLimitExceeded := by
  obtain ⟨f, hf, rfl⟩ := map_eq_ok.mp h
  let reading : Decoding := { d with size := byteLength f.text }
  have hreading : Understands reading.toDecoder e stand := hu
  rcases counts_document hreading limit hf with hok | ⟨herror, hgivesUp⟩
  · refine .inl ⟨map_of_ok hok, ?_⟩
    have hlimited : Understands (d.limited limit) (e.limited limit) stand := hreading.limited limit
    exact ⟨_, decode_encode hlimited (map_of_ok hok)⟩
  · obtain ⟨error, hdocument, hkind⟩ := hgivesUp .node
    refine .inr ⟨map_of_error herror, error, ?_, hkind⟩
    have htext : (String.ofList f.text).toList = f.text := String.toList_ofList
    rw [Decoder.decode, htext]
    exact congrArg (Except.map Prod.fst) hdocument

/-- At every limit a document is written again exactly when it can be read, and otherwise both
writer and reader say that it nests too deep. -/
theorem encode_limited_iff {symbols : List Symbol} {tables : Symbols} {registry : Registry}
    {strategy : Strategy} {options : EncodeOptions} {tree : Node} {enc : Encoded}
    (ht : Symbols.ofList symbols = .ok tables) (hr : registry.Reachable)
    (h : (⟨tables, registry, strategy, options⟩ : Encoder).encode tree = .ok enc) (limit : Nat) :
    let writer : Encoder := ⟨tables, registry, strategy, { options with maxDepth := limit }⟩
    let reader : Decoder := ⟨tables, registry, limit⟩
    (writer.encode tree = .ok enc ↔ ∃ read, reader.decode enc.document = .ok read) ∧
      ((¬ ∃ read, reader.decode enc.document = .ok read) →
        writer.encode tree = .error (.depthLimitExceeded limit) ∧
          ∃ error, reader.decode enc.document = .error error ∧
            error.fault.kind = .depthLimitExceeded) := by
  intro writer reader
  have hu := understands_own (e := ⟨tables, registry, strategy, options⟩)
    (Symbols.sound_of_ofList ht) hr.sound
  have hor : (writer.encode tree = .ok enc ∧ ∃ read, reader.decode enc.document = .ok read) ∨
      writer.encode tree = .error (.depthLimitExceeded limit) ∧
        ∃ error, reader.decode enc.document = .error error ∧
          error.fault.kind = .depthLimitExceeded := encode_limited_or hu h limit
  clear_value writer reader
  rcases hor with ⟨hwritten, hread⟩ | ⟨hwritten, error, hread, hkind⟩
  · exact ⟨⟨fun _ => hread, fun _ => hwritten⟩, fun hnot => absurd hread hnot⟩
  · refine ⟨⟨fun hok => ?_, fun ⟨_, hok⟩ => ?_⟩, fun _ => ⟨hwritten, error, hread, hkind⟩⟩
    · rw [hwritten] at hok
      cases hok
    · rw [hread] at hok
      cases hok

/-- A reference takes a level of its own: three levels are enough for this document, two are not. -/
theorem encode_limited_row :
    ∃ registry tree enc, registry.Reachable ∧
      (⟨.empty, registry, .hybrid, .default⟩ : Encoder).encode tree = .ok enc ∧
      enc.document = "!Column{}[!Row{}[@w1(b)]]" ∧
      (⟨.empty, registry, .hybrid, { EncodeOptions.default with maxDepth := 3 }⟩ : Encoder).encode
        tree = .ok enc ∧
      (⟨.empty, registry, .hybrid, { EncodeOptions.default with maxDepth := 2 }⟩ : Encoder).encode
        tree = .error (.depthLimitExceeded 2) ∧
      ∃ error, (⟨.empty, registry, 2⟩ : Decoder).decode enc.document = .error error ∧
        error.fault.kind = .depthLimitExceeded := by
  let text (s : String) : Widget := ⟨"Text", [⟨"data", .scalar (.ident s)⟩], []⟩
  let registry : Registry := Registry.empty.perform (.register (text "a"))
  let tree : Node := .widget ⟨"Column", [], [⟨"Row", [], [text "b"]⟩]⟩
  have hr : registry.Reachable := .next _ .empty
  have hdocument : ((⟨.empty, registry, .hybrid, .default⟩ : Encoder).encode tree).map
      (·.document) = .ok "!Column{}[!Row{}[@w1(b)]]" :=
    ok_of_toOption (by decide +kernel)
  have hthree : ((⟨.empty, registry, 3⟩ : Decoder).decode
      "!Column{}[!Row{}[@w1(b)]]").toOption.isSome = true := by decide +kernel
  have htwo : ((⟨.empty, registry, 2⟩ : Decoder).decode
      "!Column{}[!Row{}[@w1(b)]]").toOption = none := by decide +kernel
  clear_value registry tree
  obtain ⟨enc, henc, hdocument⟩ := map_eq_ok.mp hdocument
  have ht : Symbols.ofList [] = .ok .empty := ok_of_toOption (by decide +kernel)
  rw [← hdocument] at hthree htwo
  obtain ⟨read, hread⟩ := Option.isSome_iff_exists.mp hthree
  have hwritten := (encode_limited_iff ht hr henc 3).1.mpr ⟨read, ok_of_toOption hread⟩
  have hgivesUp := (encode_limited_iff ht hr henc 2).2 fun ⟨read, hread⟩ => by
    rw [hread] at htwo
    cases htwo
  exact ⟨registry, tree, enc, hr, henc, hdocument, hwritten, hgivesUp⟩

end WidgetShorthand
