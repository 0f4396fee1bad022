import WidgetShorthand.Document.Cursor
import WidgetShorthand.Document.Encode
import WidgetShorthand.Proofs.Success
import WidgetShorthand.Proofs.TokenEnds

/-!
# What a reader does, from place to place

A reader that succeeds moves the cursor from one place to another. What it was looking for on the
way matters for the words of a fault only, so `Runs` forgets it: it relates places, an answer and
the reader, and composes along `bind`. With it, following a reader through a text is one step to
each of its statements, and no proof ever sees the state transformer.

`Reads` is the form in which everything below is put together. A reader reads a text when, wherever
the text stands, behind layout and before anything that may follow, it answers the value and stops
right behind the text. The condition on what follows is only ever about one character, since every
closing mark of the notation is one, but not all parts may stand at the very end of a document.
-/

namespace WidgetShorthand.Reader

open Text

/-- A cursor without what it is looking for. -/
structure Place where
  rest : List Char
  opened : List OpenBracket

/-- A cursor at a place. -/
def Place.cursor (p : Place) (expecting : Expectation) : Cursor :=
  ⟨p.rest, p.opened, expecting⟩

variable {α β : Type} {p q t : Place} {x : α} {y : β} {size : Nat}
  {a b rest : List Char} {o : List OpenBracket} {c : Char}

/-- The reader goes from one place to another with an answer. -/
def Runs (r : Reader α) (p : Place) (x : α) (q : Place) : Prop :=
  ∀ expecting, ∃ expecting', r (p.cursor expecting) = .ok (x, q.cursor expecting')

/-! ## Steps -/

theorem Runs.bind {r : Reader α} {f : α → Reader β} (h : Runs r p x q)
    (hf : Runs (f x) q y t) : Runs (r >>= f) p y t := by
  intro e
  obtain ⟨e₁, h₁⟩ := h e
  obtain ⟨e₂, h₂⟩ := hf e₁
  refine ⟨e₂, ?_⟩
  show Except.bind (r (p.cursor e)) (fun s => f s.1 s.2) = _
  rw [h₁]
  exact h₂

theorem runs_pure : Runs (pure x) p x p :=
  fun e => ⟨e, rfl⟩

theorem runs_get {f : Cursor → Reader α} (h : ∀ e, Runs (f ⟨a, o, e⟩) ⟨a, o⟩ x q) :
    Runs (get >>= f) ⟨a, o⟩ x q :=
  fun e => h e e

/-- Running the first reader at its place comes to running the second one at its own. A reader that
looks at what comes next to see which way to go leads to the way it takes. -/
def Leads (r : Reader α) (p : Place) (r' : Reader α) (q : Place) : Prop :=
  ∀ expecting, ∃ expecting', r (p.cursor expecting) = r' (q.cursor expecting')

theorem Leads.refl (r : Reader α) (p : Place) : Leads r p r p :=
  fun e => ⟨e, rfl⟩

theorem Leads.runs {r r' : Reader α} (h : Leads r p r' q) (hr : Runs r' q x t) : Runs r p x t := by
  intro e
  obtain ⟨e₁, h₁⟩ := h e
  obtain ⟨e₂, h₂⟩ := hr e₁
  exact ⟨e₂, h₁.trans h₂⟩

theorem Leads.trans {r r' r'' : Reader α} (h : Leads r p r' q) (h' : Leads r' q r'' t) :
    Leads r p r'' t := by
  intro e
  obtain ⟨e₁, h₁⟩ := h e
  obtain ⟨e₂, h₂⟩ := h' e₁
  exact ⟨e₂, h₁.trans h₂⟩

theorem Runs.leads {r : Reader α} {f : α → Reader β} {r' : Reader β} (h : Runs r p x q)
    (hf : Leads (f x) q r' t) : Leads (r >>= f) p r' t := by
  intro e
  obtain ⟨e₁, h₁⟩ := h e
  obtain ⟨e₂, h₂⟩ := hf e₁
  refine ⟨e₂, ?_⟩
  show Except.bind (r (p.cursor e)) (fun s => f s.1 s.2) = _
  rw [h₁]
  exact h₂

theorem Leads.bind {r r' : Reader α} (h : Leads r p r' q) (f : α → Reader β) :
    Leads (r >>= f) p (r' >>= f) q := by
  intro e
  obtain ⟨e₁, h₁⟩ := h e
  refine ⟨e₁, ?_⟩
  show Except.bind (r (p.cursor e)) (fun s => f s.1 s.2) = _
  rw [h₁]
  rfl

theorem leads_get {f : Cursor → Reader α} {r : Reader α} (h : ∀ e, Leads (f ⟨a, o, e⟩) ⟨a, o⟩ r q) :
    Leads (get >>= f) ⟨a, o⟩ r q :=
  fun e => h e e

theorem runs_expectNow (e : Expectation) : Runs (expectNow e) p () p :=
  fun _ => ⟨e, rfl⟩

theorem runs_moveTo : Runs (moveTo b) ⟨a, o⟩ () ⟨b, o⟩ :=
  fun e => ⟨e, rfl⟩

theorem runs_peek : Runs peek ⟨a, o⟩ a.head? ⟨a, o⟩ :=
  fun e => ⟨e, rfl⟩

theorem runs_advance : Runs advance ⟨c :: a, o⟩ () ⟨a, o⟩ :=
  fun e => ⟨e, rfl⟩

theorem runs_skipBlanks (h : dropBlanks a = b) : Runs skipBlanks ⟨a, o⟩ () ⟨b, o⟩ :=
  fun e => ⟨e, by rw [← h]; rfl⟩

theorem runs_next (h : dropBlanks a = b) : Runs next ⟨a, o⟩ b.head? ⟨b, o⟩ :=
  (runs_skipBlanks h).bind runs_peek

theorem runs_eat (h : dropBlanks a = c :: b) : Runs (eat c) ⟨a, o⟩ true ⟨b, o⟩ := by
  refine (runs_next h).bind ?_
  rw [List.head?_cons, if_pos rfl]
  exact runs_advance.bind runs_pure

theorem runs_eat_other (h : dropBlanks a = b) (hb : b.head? ≠ some c) :
    Runs (eat c) ⟨a, o⟩ false ⟨b, o⟩ := by
  refine (runs_next h).bind ?_
  rw [if_neg hb]
  exact runs_pure

theorem runs_expect (h : dropBlanks a = c :: b) : Runs (expect size c) ⟨a, o⟩ () ⟨b, o⟩ := by
  refine (runs_eat h).bind ?_
  rw [if_pos rfl]
  exact runs_pure

theorem runs_openBracket (h : dropBlanks a = c :: b) :
    Runs (openBracket size c) ⟨a, o⟩ () ⟨b, ⟨c, c :: b⟩ :: o⟩ := by
  refine (runs_skipBlanks h).bind (runs_get fun e => ?_)
  dsimp only
  refine (runs_expect (dropBlanks_of_eq h)).bind ?_
  exact fun e => ⟨e, rfl⟩

theorem runs_closeBracket {k : OpenBracket} (h : dropBlanks a = closerOf k.bracket :: b) :
    Runs (closeBracket size) ⟨a, k :: o⟩ () ⟨b, o⟩ := by
  refine runs_get fun e => ?_
  show Runs (eat (closerOf k.bracket) >>= _) _ _ _
  refine (runs_eat h).bind ?_
  rw [if_pos rfl]
  exact fun e => ⟨e, rfl⟩

/-! ## Parts of a text -/

/-- The reader reads the text as the value, provided that what follows may follow it. -/
def Reads (r : Reader α) (ok : List Char → Prop) (text : List Char) (x : α) : Prop :=
  ∀ ⦃before rest : List Char⦄ ⦃o : List OpenBracket⦄,
    dropBlanks before = text ++ rest → ok rest → Runs r ⟨before, o⟩ x ⟨rest, o⟩

variable {r : Reader α} {ok ok' : List Char → Prop} {text text' : List Char}

theorem Reads.mono (h : Reads r ok text x) (hok : ∀ rest, ok' rest → ok rest) :
    Reads r ok' text x :=
  fun _ _ _ hb hr => h hb (hok _ hr)

/-! ## Names -/

theorem reads_identifier {name : String} (hn : isIdentifier name = true) :
    Reads (identifier size) (Follows endsName) name.toList name := by
  intro before rest o hb hr
  have hchars := isNameChar_of_isIdentifier hn
  have hstart := startsName_of_starts ((starts_of_isIdentifier hn).append rest)
  refine (runs_skipBlanks hb).bind (runs_get fun e => ?_)
  dsimp only
  rw [if_pos hstart, takeWhile_append_of_follows hchars hr, dropWhile_append_of_follows hchars hr,
    String.ofList_toList]
  exact runs_moveTo.bind runs_pure

theorem reads_path {name : String} (hn : isPath name = true) :
    Reads (path size) (Follows endsPath) name.toList name := by
  intro before rest o hb hr
  refine (runs_skipBlanks hb).bind (runs_get fun e => ?_)
  dsimp only
  rw [if_pos (startsName_of_isPathFrom hn rest), spanPath_append hr, spanPath_of_isPathFrom hn]
  dsimp only
  rw [String.ofList_toList]
  exact runs_moveTo.bind runs_pure

/-- An identifier behind its mark. The reader gets there with the mark still in front. -/
theorem runs_markedName {name : String} {wanted : Wanted} (hn : isIdentifier name = true)
    (hr : Follows endsName rest) :
    Runs (markedName size wanted) ⟨c :: (name.toList ++ rest), o⟩ name ⟨rest, o⟩ := by
  have hstart := starts_of_isIdentifier hn
  refine runs_advance.bind (runs_get fun e => ?_)
  dsimp only
  rw [if_pos (startsName_of_starts (hstart.append rest))]
  exact reads_identifier hn
    (dropBlanks_append_of_starts (starts_isSolid_of_isNameStart hstart) rest) hr

/-! ## Lists

Elements stand one behind the other with a separator between them, and the writer may put layout
behind a separator. The reader's fuel is the length of the text, which is never less than the number
of separators. -/

/-- The elements of a list as they are written and as they are read. -/
def ReadsAll (r : Reader α) (ok : List Char → Prop) (first : Char → Bool) (parts : List Fragment)
    (xs : List α) : Prop :=
  List.Forall₂ (fun f x => Reads r ok f.text x ∧ Starts first f.text) parts xs

/-- What keeps elements apart: the separator may follow one, layout cannot be mistaken for the
beginning or the end of one. -/
structure Separates (ok : List Char → Prop) (first : Char → Bool) (separator : Char)
    (layout : List Char) : Prop where
  layout : ∀ c ∈ layout, isBlank c = true
  first : ∀ c, first c = true → isSolid c = true
  solid : ∀ rest, ok rest → Follows isSolid rest
  separator : ∀ rest, ok (separator :: rest)

variable {separator : Char} {layout : List Char} {first : Char → Bool} {parts : List Fragment}
  {xs : List α}

/-- Between brackets there is no layout behind the separators. -/
theorem separates_bare (hfirst : ∀ c, first c = true → isSolid c = true)
    (hsolid : ∀ rest, ok rest → Follows isSolid rest) (hseparator : ∀ rest,
      ok (separator :: rest)) :
    Separates ok first separator [] :=
  ⟨nofun, hfirst, hsolid, hseparator⟩

theorem ReadsAll.starts_join {part : Fragment} (h : ReadsAll r ok first (part :: parts) xs)
    (mark : List Char) : Starts first (Fragment.join mark (part :: parts)).text := by
  cases h with
  | cons hx _ =>
      cases parts with
      | nil => exact hx.2
      | cons g gs => exact hx.2.append _

/-- A list that is written element by element is read element by element. -/
theorem ReadsAll.of_mapM {ε γ : Type} {write : γ → Except ε Fragment} {back : γ → α} {ys : List γ}
    (h : ys.mapM write = .ok parts)
    (hread : ∀ y f, write y = .ok f → Reads r ok f.text (back y) ∧ Starts first f.text) :
    ReadsAll r ok first parts (ys.map back) := by
  have hall := forall₂_of_mapM h
  clear h
  induction hall with
  | nil => exact .nil
  | cons hy _ ih => exact .cons (hread _ _ hy) ih

/-- Elements may have layout in front of them, also where there are none. -/
theorem ReadsAll.dropBlanks_join (h : ReadsAll r ok first parts xs)
    (hfirst : ∀ c, first c = true → isSolid c = true) (hr : Follows isSolid rest)
    (mark : List Char) :
    dropBlanks ((Fragment.join mark parts).text ++ rest) =
      (Fragment.join mark parts).text ++ rest := by
  cases parts with
  | nil => exact dropBlanks_of_follows hr
  | cons f gs => exact dropBlanks_append_of_starts ((h.starts_join mark).mono hfirst) rest

theorem join_cons_cons (mark : List Char) (f g : Fragment) (gs : List Fragment)
    (rest : List Char) : (Fragment.join mark (f :: g :: gs)).text ++ rest =
      f.text ++ (mark ++ ((Fragment.join mark (g :: gs)).text ++ rest)) := by
  simp [Fragment.join]

theorem enclose_append (before : List Char) (after : Char) (f : Fragment) (rest : List Char) :
    (Fragment.enclose before f [after]).text ++ rest = before ++ (f.text ++ after :: rest) := by
  simp [Fragment.enclose]

theorem length_join (separator : Char) (layout : List Char) (parts : List Fragment) :
    parts.length ≤ (Fragment.join (separator :: layout) parts).text.length + 1 := by
  induction parts with
  | nil => simp
  | cons f gs ih =>
      cases gs with
      | nil => simp
      | cons g gs =>
          simp only [Fragment.join, Fragment.text_append, Fragment.text_ofText, List.length_append,
            List.length_cons] at ih ⊢
          omega

theorem runs_separatedLoop (hsep : Separates ok first separator layout) (hr : ok rest)
    (hne : rest.head? ≠ some separator) :
    ∀ {parts : List Fragment} {xs : List α} {fuel : Nat} {before : List Char},
      ReadsAll r ok first parts xs → parts ≠ [] → parts.length ≤ fuel + 1 →
      dropBlanks before = (Fragment.join (separator :: layout) parts).text ++ rest →
      Runs (separatedLoop separator r fuel) ⟨before, o⟩ xs ⟨rest, o⟩ := by
  intro parts
  induction parts with
  | nil => intro _ _ _ _ hparts; exact absurd rfl hparts
  | cons f gs ih =>
      intro xs fuel before h _ hfuel hb
      obtain ⟨x, xs, rfl⟩ : ∃ y ys, xs = y :: ys := by cases h; exact ⟨_, _, rfl⟩
      obtain ⟨⟨hx, _⟩, hxs⟩ := List.forall₂_cons.mp h
      cases gs with
      | nil =>
          cases hxs
          have hlast := hx hb hr (o := o)
          cases fuel with
          | zero => exact hlast.bind runs_pure
          | succ fuel =>
              have hend := dropBlanks_of_follows (hsep.solid rest hr)
              exact hlast.bind ((runs_eat_other hend hne).bind runs_pure)
      | cons g gs =>
          obtain ⟨fuel, rfl⟩ : ∃ n, fuel = n + 1 := by
            cases fuel with
            | zero => simp at hfuel
            | succ n => exact ⟨n, rfl⟩
          rw [join_cons_cons, List.cons_append] at hb
          have hstart := (ReadsAll.starts_join hxs (separator :: layout)).mono hsep.first
          have hnext := dropBlanks_append_of_starts hstart rest
          have hbehind := (dropBlanks_append_of_all hsep.layout _).trans hnext
          have hmark : ∀ cs, dropBlanks (separator :: cs) = separator :: cs :=
            fun cs => dropBlanks_of_follows (hsep.solid _ (hsep.separator cs))
          refine (hx hb (hsep.separator _)).bind ((runs_eat (hmark _)).bind ?_)
          rw [if_pos rfl]
          exact (ih hxs (by simp) (by simpa using hfuel) hbehind).bind runs_pure

theorem runs_separated
    (hsep : Separates ok first separator layout) (h : ReadsAll r ok first parts xs)
    (hparts : parts ≠ [])
    (hb : dropBlanks a = (Fragment.join (separator :: layout) parts).text ++ rest)
    (hr : ok rest) (hne : rest.head? ≠ some separator) :
    Runs (separated separator r) ⟨a, o⟩ xs ⟨rest, o⟩ := by
  refine runs_get fun e => ?_
  refine runs_separatedLoop hsep hr hne h hparts ?_ hb
  have htext := length_join separator layout parts
  have hlen := length_dropBlanks_le a
  rw [hb, List.length_append] at hlen
  dsimp only
  omega

theorem runs_separatedUnless {stop : Option Char → Bool}
    (hsep : Separates ok first separator layout) (h : ReadsAll r ok first parts xs)
    (hb : dropBlanks a = (Fragment.join (separator :: layout) parts).text ++ rest)
    (hr : ok rest) (hne : rest.head? ≠ some separator)
    (hgo : ∀ c, first c = true → stop (some c) = false) (hstop : stop rest.head? = true) :
    Runs (separatedUnless stop separator r) ⟨a, o⟩ xs ⟨rest, o⟩ := by
  refine (runs_next hb).bind ?_
  cases parts with
  | nil =>
      cases h
      rw [show (Fragment.join (separator :: layout) []).text ++ rest = rest from rfl, if_pos hstop]
      exact runs_pure
  | cons f gs =>
      obtain ⟨c, cs, htext, hc⟩ := (h.starts_join (separator :: layout)).exists_cons
      rw [if_neg (by simp [htext, hgo c hc])]
      exact runs_separated hsep h (by simp) (dropBlanks_of_eq hb) hr hne

/-- What begins an element is no closing character that begins none. -/
theorem not_close_of_first
    {close : Char} (hgo : first close = false) {c : Char} (hc : first c = true) :
    (some c == some close) = false := by
  have hother : c ≠ close := by
    rintro rfl
    rw [hgo] at hc
    cases hc
  simpa using hother

/-- Elements up to a closing character. -/
theorem runs_separatedUntil {close : Char} (hsep : Separates ok first separator layout)
    (h : ReadsAll r ok first parts xs)
    (hb : dropBlanks a = (Fragment.join (separator :: layout) parts).text ++ close :: rest)
    (hclose : ok (close :: rest)) (hne : close ≠ separator) (hgo : first close = false) :
    Runs (separatedUnless (· == some close) separator r) ⟨a, o⟩ xs ⟨close :: rest, o⟩ := by
  refine runs_separatedUnless hsep h hb hclose (by simpa using hne) ?_ (by simp)
  exact fun _ => not_close_of_first hgo

end WidgetShorthand.Reader
