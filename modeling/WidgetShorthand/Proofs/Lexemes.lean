import WidgetShorthand.Proofs.CutTokens

/-!
# Whole tokens

What a token of the notation is, without regard to the forms it stands in: an identifier or a dotted
path, a numeral, a string or an expression, a constant, a name or a code with its sigil, a keyword
with its dot, the id of a reference with its mark, or a mark of punctuation. `behindLexeme?` cuts
the first one off a text, going on as long as the characters allow.

Layout may stand between two tokens and does not belong to either. `Spread` puts more of it there.
Whether a token is whole depends on what stands behind it only as far as that could continue it, and
layout continues nothing, so a token stays whole when layout is put behind it
(`IsLexeme.of_breaks`).
-/

namespace WidgetShorthand

open Text Reader

namespace Text

/-! ## One token -/

/-- The marks of punctuation. -/
def isPunctuation (c : Char) : Bool :=
  among [',', ':', ';', '{', '}', '[', ']', '(', ')', '<', '>', '=', '|'] c

/-- The text behind the closing quote of a string. -/
def behindString? (cs : List Char) : Option (List Char) :=
  (Quoted.read cs).toOption.map (·.2)

def behindName? (cs : List Char) : Option (List Char) :=
  if startsName cs then some (cs.dropWhile isNameChar) else none

/-- The text behind a symbol, or behind a name with its mark. -/
def behindCode? : List Char → Option (List Char)
  | '!' :: cs => behindName? cs
  | cs => behindName? cs

def behindDot? : List Char → Option (List Char)
  | '.' :: cs => some cs
  | _ => none

def behindReference? (cs : List Char) : Option (List Char) :=
  if (cs.takeWhile isReferenceChar).isEmpty then none else some (cs.dropWhile isReferenceChar)

/-- The text behind what a sigil introduces. The codes of literals and keywords may stand off from
their sigils. -/
def behindSigil? (sigil : Char) (cs : List Char) : Option (List Char) :=
  match sigil with
  | '"' => behindString? cs
  | '&' => if cs.head? = some '"' then behindString? cs.tail else none
  | '~' => (Decoding.constant? cs.head?).map fun _ => cs.tail
  | '!' => behindName? cs
  | '#' => behindCode? (dropBlanks cs)
  | '%' => (behindCode? (dropBlanks cs)).bind behindDot?
  | '@' => behindReference? cs
  | _ => none

/-- The text behind the token that a text begins with. -/
def behindLexeme? : List Char → Option (List Char)
  | [] => none
  | c :: cs =>
    if isNameStart c then some (spanPath (c :: cs)).2
    else if c == '-' || c.isDigit then (Numeral.split (c :: cs)).map (·.2)
    else if isPunctuation c then some cs
    else behindSigil? c cs

/-- In front of a rest a token is whole: it goes on up to the rest and no further. -/
def IsLexeme (token rest : List Char) : Prop :=
  behindLexeme? (token ++ rest) = some rest

/-! ## Texts made of tokens -/

/-- The second text is the first one with more layout in front of whole tokens and behind them.
Where nothing is added any more, the texts go on in the same way. -/
inductive Spread : List Char → List Char → Prop where
  | rest (cs : List Char) : Spread cs cs
  | added {blank : Char} {cs cs' : List Char} (hblank : isBlank blank = true) (h : Spread cs cs') :
      Spread cs (blank :: cs')
  | blank {blank : Char} {cs cs' : List Char} (hblank : isBlank blank = true) (h : Spread cs cs') :
      Spread (blank :: cs) (blank :: cs')
  | lexeme {token cs cs' : List Char} (htoken : IsLexeme token cs) (h : Spread cs cs') :
      Spread (token ++ cs) (token ++ cs')

/-- The text consists of whole tokens and layout. -/
inductive Tokenized : List Char → Prop where
  | nil : Tokenized []
  | blank {blank : Char} {cs : List Char} (hblank : isBlank blank = true) (h : Tokenized cs) :
      Tokenized (blank :: cs)
  | lexeme {token cs : List Char} (htoken : IsLexeme token cs) (h : Tokenized cs) :
      Tokenized (token ++ cs)

variable {token cs rest u v w : List Char} {c : Char}

/-! ## A token takes something -/

theorem Quoted.length_read {text : List Char} (h : Quoted.read cs = .ok (text, rest)) :
    rest.length < cs.length := by
  fun_induction Quoted.read cs generalizing text rest with
  | case1 => cases h
  | case2 r =>
      cases h
      exact Nat.lt_succ_self _
  | case3 => cases h
  | case4 c r hc hq ih =>
      obtain ⟨⟨text', rest'⟩, hr, heq⟩ := map_eq_ok.mp h
      cases heq
      have hlt := ih hr
      simp only [List.length_cons]
      omega
  | case5 => cases h
  | case6 c r hq hb ih =>
      obtain ⟨⟨text', rest'⟩, hr, heq⟩ := map_eq_ok.mp h
      cases heq
      have hlt := ih hr
      simp only [List.length_cons]
      omega

theorem behindString?_eq_some :
    behindString? cs = some rest ↔ ∃ text, Quoted.read cs = .ok (text, rest) := by
  unfold behindString?
  cases Quoted.read cs with
  | error fault => simp [Except.toOption]
  | ok q => simp [Except.toOption, Prod.ext_iff]

theorem length_behindString? (h : behindString? cs = some rest) : rest.length < cs.length := by
  obtain ⟨text, hread⟩ := behindString?_eq_some.mp h
  exact Quoted.length_read hread

theorem behindName?_eq_some :
    behindName? cs = some rest ↔ startsName cs = true ∧ cs.dropWhile isNameChar = rest := by
  unfold behindName?
  split
  · next hname => simp [hname]
  · next hname => simp [hname]

theorem behindCode?_of_ne (h : cs.head? ≠ some '!') : behindCode? cs = behindName? cs := by
  unfold behindCode?
  split
  · exact absurd rfl h
  · rfl

theorem behindDot?_eq_some : behindDot? cs = some rest ↔ cs = '.' :: rest := by
  unfold behindDot?
  split
  · simp
  · next hdot =>
      refine ⟨nofun, ?_⟩
      rintro rfl
      exact absurd rfl (hdot rest)

theorem behindReference?_eq_some : behindReference? cs = some rest ↔
    cs.takeWhile isReferenceChar ≠ [] ∧ cs.dropWhile isReferenceChar = rest := by
  unfold behindReference?
  cases cs.takeWhile isReferenceChar with
  | nil => simp
  | cons c run => simp

theorem length_behindName? (h : behindName? cs = some rest) : rest.length < cs.length := by
  obtain ⟨hname, rfl⟩ := behindName?_eq_some.mp h
  exact (further_name hname).length_lt

theorem length_behindCode? (h : behindCode? cs = some rest) : rest.length < cs.length := by
  by_cases hmark : cs.head? = some '!'
  · obtain ⟨cs, rfl⟩ := List.head?_eq_some_iff.mp hmark
    exact Nat.lt_succ_of_lt (length_behindName? h)
  · rw [behindCode?_of_ne hmark] at h
    exact length_behindName? h

theorem suffix_behindCode? (h : behindCode? cs = some rest) : rest <:+ cs := by
  by_cases hmark : cs.head? = some '!'
  · obtain ⟨cs, rfl⟩ := List.head?_eq_some_iff.mp hmark
    obtain ⟨-, rfl⟩ := behindName?_eq_some.mp h
    exact (List.dropWhile_suffix _).trans (List.suffix_cons _ _)
  · rw [behindCode?_of_ne hmark] at h
    obtain ⟨-, rfl⟩ := behindName?_eq_some.mp h
    exact List.dropWhile_suffix _

theorem length_behindSigil? (h : behindSigil? c cs = some rest) : rest.length ≤ cs.length := by
  have htail : cs.tail.length ≤ cs.length := (List.tail_sublist cs).length_le
  have hblanks := length_dropBlanks_le cs
  unfold behindSigil? at h
  split at h
  · exact Nat.le_of_lt (length_behindString? h)
  · split at h
    · have hlt := length_behindString? h
      omega
    · cases h
  · obtain ⟨_, _, rfl⟩ := Option.map_eq_some_iff.mp h
    exact htail
  · exact Nat.le_of_lt (length_behindName? h)
  · have hlt := length_behindCode? h
    omega
  · obtain ⟨dotted, hcode, hdot⟩ := Option.bind_eq_some_iff.mp h
    have hlt := length_behindCode? hcode
    rw [behindDot?_eq_some.mp hdot, List.length_cons] at hlt
    omega
  · obtain ⟨-, rfl⟩ := behindReference?_eq_some.mp h
    exact (List.dropWhile_sublist _).length_le
  · cases h

theorem length_behindLexeme? (h : behindLexeme? cs = some rest) : rest.length < cs.length := by
  cases cs with
  | nil => cases h
  | cons c cs =>
      rw [behindLexeme?] at h
      split at h
      · next hname =>
          cases h
          have hfurther : Further 1 (c :: cs) (spanPath (c :: cs)).2 := further_spanPath hname
          exact hfurther.length_lt
      · split at h
        · obtain ⟨⟨spelling, behind⟩, hsplit, rfl⟩ := Option.map_eq_some_iff.mp h
          exact (Numeral.further_split hsplit).length_lt
        · split at h
          · cases h
            exact Nat.lt_succ_self _
          · exact Nat.lt_succ_of_le (length_behindSigil? h)

theorem IsLexeme.exists_cons (h : IsLexeme token rest) : ∃ c w, token = c :: w := by
  refine List.exists_cons_of_ne_nil ?_
  rintro rfl
  exact absurd (length_behindLexeme? h) (Nat.lt_irrefl _)

theorem behindLexeme?_blank (hblank : isBlank c = true) (cs : List Char) :
    behindLexeme? (c :: cs) = none := by
  simp only [isBlank, Bool.or_eq_true, beq_iff_eq] at hblank
  rcases hblank with (((rfl | rfl) | rfl) | rfl) | rfl <;> rfl

theorem IsLexeme.ne_dot (h : IsLexeme (c :: w) rest) : c ≠ '.' := by
  rintro rfl
  exact absurd h nofun

theorem IsLexeme.isSolid (h : IsLexeme (c :: w) rest) : isSolid c = true := by
  rw [Text.isSolid, Bool.not_eq_true', ← Bool.not_eq_true]
  intro hblank
  rw [IsLexeme, List.cons_append, behindLexeme?_blank hblank] at h
  cases h

/-! ## What stands behind a token -/

/-- What does not go on with a token in the first text does not do so in the second one. -/
structure Breaks (u v : List Char) : Prop where
  run : ∀ p : Char → Bool, (∀ c, p c = true → isSolid c = true) →
    Follows (fun c => !p c) u → Follows (fun c => !p c) v
  dot : ∀ r, v = '.' :: r → v = u

theorem Spread.breaks (h : Spread u v) : Breaks u v := by
  cases h with
  | rest => exact ⟨fun _ _ hu => hu, fun _ _ => rfl⟩
  | @added blank cs cs' hblank h =>
      refine ⟨fun p hp _ => ?_, fun r hr => ?_⟩
      · rw [follows_cons, Bool.not_eq_true', ← Bool.not_eq_true]
        intro hpblank
        exact absurd (hp blank hpblank) (by simp [Text.isSolid, hblank])
      · cases hr
        exact absurd hblank (by decide)
  | @blank blank cs cs' hblank h =>
      refine ⟨fun p _ hu => hu, fun r hr => ?_⟩
      cases hr
      exact absurd hblank (by decide)
  | @lexeme token cs cs' htoken h =>
      obtain ⟨c, w, rfl⟩ := htoken.exists_cons
      refine ⟨fun p _ hu => hu, fun r hr => ?_⟩
      cases hr
      exact absurd rfl htoken.ne_dot

/-- A run that ends where a text begins consists of characters of the class, and the text does not
go on with one. -/
theorem run_of_dropWhile {p : Char → Bool} (h : (w ++ u).dropWhile p = u) :
    (∀ c ∈ w, p c = true) ∧ Follows (fun c => !p c) u := by
  induction w with
  | nil =>
      refine ⟨nofun, ?_⟩
      cases u with
      | nil => trivial
      | cons c u =>
          rw [follows_cons, Bool.not_eq_true', ← Bool.not_eq_true]
          intro hc
          have hle := (List.dropWhile_sublist p (l := u)).length_le
          rw [List.nil_append, List.dropWhile_cons_of_pos hc] at h
          rw [h, List.length_cons] at hle
          omega
  | cons c w ih =>
      by_cases hc : p c = true
      · rw [List.cons_append, List.dropWhile_cons_of_pos hc] at h
        obtain ⟨hw, hu⟩ := ih h
        exact ⟨List.forall_mem_cons.mpr ⟨hc, hw⟩, hu⟩
      · rw [List.cons_append, List.dropWhile_cons_of_neg hc] at h
        have hlength := congrArg List.length h
        simp only [List.length_cons, List.length_append] at hlength
        omega

theorem takeWhile_of_dropWhile {p : Char → Bool} (h : (w ++ u).dropWhile p = u) :
    (w ++ u).takeWhile p = w := by
  obtain ⟨hw, hu⟩ := run_of_dropWhile h
  exact takeWhile_append_of_follows hw hu

theorem dropWhile_of_breaks {p : Char → Bool} (hp : ∀ c, p c = true → isSolid c = true)
    (hb : Breaks u v) (h : (w ++ u).dropWhile p = u) : (w ++ v).dropWhile p = v := by
  obtain ⟨hw, hu⟩ := run_of_dropWhile h
  exact dropWhile_append_of_follows hw (hb.run p hp hu)

/-! ### Names and codes -/

/-- A name that stays a name when something else stands behind it. -/
theorem behindName?_congr
    (hrun : Follows (fun c => !isNameChar c) u → Follows (fun c => !isNameChar c) v)
    (h : behindName? (w ++ u) = some u) : behindName? (w ++ v) = some v := by
  obtain ⟨hname, hdrop⟩ := behindName?_eq_some.mp h
  obtain ⟨hw, hu⟩ := run_of_dropWhile hdrop
  refine behindName?_eq_some.mpr ⟨?_, dropWhile_append_of_follows hw (hrun hu)⟩
  cases w with
  | cons c w => exact hname
  | nil =>
      have hlt := length_behindName? h
      exact absurd hlt (Nat.lt_irrefl _)

theorem behindCode?_congr
    (hrun : Follows (fun c => !isNameChar c) u → Follows (fun c => !isNameChar c) v)
    (h : behindCode? (w ++ u) = some u) : behindCode? (w ++ v) = some v := by
  cases w with
  | nil => exact absurd (length_behindCode? h) (Nat.lt_irrefl _)
  | cons c w =>
      by_cases hc : c = '!'
      · subst hc
        exact behindName?_congr (w := w) hrun h
      · rw [behindCode?_of_ne (by simpa using hc)] at h ⊢
        exact behindName?_congr hrun h

/-- The same with layout in front of the code. -/
theorem behindCode?_dropBlanks_congr
    (hrun : Follows (fun c => !isNameChar c) u → Follows (fun c => !isNameChar c) v)
    (h : behindCode? (dropBlanks (w ++ u)) = some u) :
    behindCode? (dropBlanks (w ++ v)) = some v := by
  cases hw : dropBlanks w with
  | nil =>
      have hall : ∀ c ∈ w, isBlank c = true := List.dropWhile_eq_nil_iff.mp hw
      rw [dropBlanks_append_of_all hall] at h
      have hlt := length_behindCode? h
      have hle := length_dropBlanks_le u
      omega
  | cons c x =>
      rw [dropBlanks_append_of_cons hw] at h ⊢
      exact behindCode?_congr (w := c :: x) hrun h

theorem behindKeyword?_congr
    (h : (behindCode? (dropBlanks (w ++ u))).bind behindDot? = some u) :
    (behindCode? (dropBlanks (w ++ v))).bind behindDot? = some v := by
  obtain ⟨dotted, hcode, hdot⟩ := Option.bind_eq_some_iff.mp h
  obtain rfl := behindDot?_eq_some.mp hdot
  -- The dot stands in front of the rest, so it is the last character of the token.
  obtain ⟨x, hx⟩ : '.' :: u <:+ w ++ u := by
    have hblanks : dropBlanks (w ++ u) <:+ w ++ u := List.dropWhile_suffix _
    exact (suffix_behindCode? hcode).trans hblanks
  have hw : w ++ u = x ++ ['.'] ++ u := by
    rw [← hx, List.append_assoc, List.singleton_append]
  obtain rfl := List.append_cancel_right hw
  simp only [List.append_assoc, List.singleton_append] at hcode ⊢
  have hrun : Follows (fun c => !isNameChar c) ('.' :: u) →
      Follows (fun c => !isNameChar c) ('.' :: v) := fun hu => hu
  rw [behindCode?_dropBlanks_congr hrun hcode]
  rfl

/-! ### Paths -/

theorem follows_of_spanPath (h : (spanPath u).2 = u) : Follows (fun c => !isNameChar c) u := by
  cases u with
  | nil => trivial
  | cons c u =>
      rw [follows_cons, Bool.not_eq_true', ← Bool.not_eq_true]
      intro hc
      have hle := (suffix_spanPath u).length_le
      rw [spanPath, hc, Bool.true_or, if_pos rfl] at h
      rw [show (spanPath u).2 = c :: u from h, List.length_cons] at hle
      omega

theorem spanPath_of_breaks (hb : Breaks u v) (h : (spanPath (w ++ u)).2 = u) :
    (spanPath (w ++ v)).2 = v := by
  have hsolid : ∀ c, isNameChar c = true → isSolid c = true := fun _ => isSolid_of_isNameChar
  induction w with
  | nil =>
      rw [List.nil_append] at h ⊢
      cases v with
      | nil => rfl
      | cons c v =>
          have hc : isNameChar c = false := by
            simpa using hb.run isNameChar hsolid (follows_of_spanPath h)
          by_cases hdot : c = '.'
          · subst hdot
            rw [hb.dot v rfl, h]
          · rw [spanPath, hc, beq_eq_false_iff_ne.mpr hdot]
            rfl
  | cons c w ih =>
      rw [List.cons_append, spanPath] at h ⊢
      split at h
      · next hcond =>
          have hw := ih h
          -- What stands behind a dot in a path is a part of the path.
          have hcond' : (isNameChar c || (c == '.' && startsName (w ++ v))) = true := by
            cases w with
            | cons d w => exact hcond
            | nil =>
                have hu : Follows (fun c => !isNameChar c) u := follows_of_spanPath h
                have hstart : startsName u = false := by
                  cases u with
                  | nil => rfl
                  | cons d u =>
                      rw [startsName, ← Bool.not_eq_true]
                      intro hd
                      rw [follows_cons, isNameChar_of_isNameStart hd] at hu
                      cases hu
                rw [List.nil_append, hstart, Bool.and_false, Bool.or_false] at hcond
                rw [hcond, Bool.true_or]
          rw [if_pos hcond']
          exact hw
      · have hlength := congrArg List.length h
        simp only [List.length_cons, List.length_append] at hlength
        omega

/-! ### Numerals -/

theorem Numeral.isSolid_of_continues {hex : Bool} {last : Char}
    (h : Numeral.continues hex last c = true) : isSolid c = true := by
  rw [Text.isSolid, Bool.not_eq_true', ← Bool.not_eq_true]
  intro hblank
  have hends : Numeral.ends c = true := by
    simp only [isBlank, Bool.or_eq_true, beq_iff_eq] at hblank
    rcases hblank with (((rfl | rfl) | rfl) | rfl) | rfl <;> decide
  rw [Numeral.continues_of_ends hends] at h
  cases h

theorem Numeral.follows_of_spanFrom {hex : Bool} {last : Char}
    (h : (Numeral.spanFrom hex last u).2 = u) :
    Follows (fun c => !Numeral.continues hex last c) u := by
  cases u with
  | nil => trivial
  | cons c u =>
      rw [follows_cons, Bool.not_eq_true', ← Bool.not_eq_true]
      intro hc
      have hle := (Numeral.suffix_spanFrom hex c u).length_le
      rw [Numeral.spanFrom, if_pos hc] at h
      rw [show (Numeral.spanFrom hex c u).2 = c :: u from h, List.length_cons] at hle
      omega

theorem Numeral.spanFrom_of_follows {hex : Bool} {last : Char}
    (h : Follows (fun c => !Numeral.continues hex last c) u) :
    (Numeral.spanFrom hex last u).2 = u := by
  cases u with
  | nil => rfl
  | cons c u =>
      have hc : Numeral.continues hex last c = false := by simpa using h
      rw [Numeral.spanFrom, hc]
      rfl

theorem Numeral.spanFrom_of_breaks {hex : Bool} {last : Char} (hb : Breaks u v)
    (h : (Numeral.spanFrom hex last (w ++ u)).2 = u) :
    (Numeral.spanFrom hex last (w ++ v)).2 = v := by
  induction w generalizing last with
  | nil =>
      have hu : Follows (fun c => !Numeral.continues hex last c) u := Numeral.follows_of_spanFrom h
      exact Numeral.spanFrom_of_follows (hb.run _ (fun _ => Numeral.isSolid_of_continues) hu)
  | cons c w ih =>
      rw [List.cons_append, Numeral.spanFrom] at h ⊢
      split at h
      · next hc =>
          rw [if_pos hc]
          exact ih h
      · have hlength := congrArg List.length h
        simp only [List.length_cons, List.length_append] at hlength
        omega

/-- A numeral of one digit that is not hexadecimal, whatever stands behind it. -/
theorem Numeral.follows_digit {hex : Bool}
    (h : (Numeral.spanFrom (Numeral.isHex c u) c u).2 = u) (hb : Breaks u v) :
    Follows (fun d => !Numeral.continues hex c d) v := by
  have hu := Numeral.follows_of_spanFrom h
  have hhex : Numeral.isHex c u = false := by
    cases u with
    | nil => rfl
    | cons d u =>
        rw [← Bool.not_eq_true]
        intro hx
        simp only [Numeral.isHex, Bool.and_eq_true, Bool.or_eq_true, beq_iff_eq] at hx
        obtain ⟨rfl, rfl | rfl⟩ := hx <;> exact absurd hu (by simp [Numeral.continues])
  rw [hhex] at hu
  refine (hb.run _ (fun _ => Numeral.isSolid_of_continues) hu).mono fun d hd => ?_
  rw [Bool.not_eq_true'] at hd ⊢
  rw [Numeral.continues, Bool.or_eq_false_iff] at hd ⊢
  refine ⟨hd.1, ?_⟩
  rw [Bool.not_false, Bool.true_and] at hd
  rw [Bool.and_assoc, hd.2, Bool.and_false]

theorem Numeral.splitUnsigned_of_breaks (hb : Breaks u v)
    (h : (Numeral.splitUnsigned (w ++ u)).map (·.2) = some u) :
    (Numeral.splitUnsigned (w ++ v)).map (·.2) = some v := by
  obtain ⟨⟨run, behind⟩, hsplit, rfl⟩ := Option.map_eq_some_iff.mp h
  cases w with
  | nil => exact absurd (Numeral.further_splitUnsigned hsplit).length_lt (Nat.lt_irrefl _)
  | cons c w =>
      rw [List.cons_append, Numeral.splitUnsigned] at hsplit ⊢
      split at hsplit
      · next hdigit =>
          obtain ⟨-, hspan⟩ := Prod.mk.inj (Option.some.inj hsplit)
          rw [if_pos hdigit]
          refine congrArg some ?_
          cases w with
          | nil => exact Numeral.spanFrom_of_follows (Numeral.follows_digit hspan hb)
          | cons d w => exact Numeral.spanFrom_of_breaks hb hspan
      · cases hsplit

theorem Numeral.split_of_breaks (hb : Breaks u v)
    (h : (Numeral.split (w ++ u)).map (·.2) = some u) :
    (Numeral.split (w ++ v)).map (·.2) = some v := by
  cases w with
  | nil =>
      obtain ⟨⟨run, behind⟩, hsplit, rfl⟩ := Option.map_eq_some_iff.mp h
      exact absurd (Numeral.further_split hsplit).length_lt (Nat.lt_irrefl _)
  | cons c w =>
      by_cases hminus : c = '-'
      · subst hminus
        have hsign (cs : List Char) : (Numeral.split ('-' :: cs)).map (·.2) =
            (Numeral.splitUnsigned cs).map (·.2) := by
          rw [Numeral.split, Option.map_map]
          rfl
        rw [List.cons_append, hsign] at h ⊢
        exact Numeral.splitUnsigned_of_breaks hb h
      · rw [Numeral.split_of_ne_minus (by simpa using hminus)] at h ⊢
        exact Numeral.splitUnsigned_of_breaks (w := c :: w) hb h

/-! ### Strings -/

/-- What stands behind the closing quote is not looked at. -/
theorem Quoted.read_behind {text : List Char} (h : Quoted.read (w ++ u) = .ok (text, u))
    (v : List Char) : Quoted.read (w ++ v) = .ok (text, v) := by
  have hend : Quoted.read w = .ok (text, []) := by
    fun_induction Quoted.read w generalizing text with
    | case1 => exact absurd (Quoted.length_read h) (Nat.lt_irrefl _)
    | case2 r =>
        rw [List.cons_append, Quoted.read.eq_def] at h
        obtain ⟨rfl, hr⟩ := Prod.mk.inj (Except.ok.inj h)
        rw [List.append_left_eq_self.mp hr]
    | case3 hq =>
        -- The mark is the last character of the token, and what it marks would stand behind that.
        rw [List.cons_append, List.nil_append, Quoted.read.eq_def] at h
        simp only [hq, ↓reduceIte] at h
        cases u with
        | nil => cases h
        | cons d u =>
            dsimp only at h
            split at h
            · obtain ⟨⟨text', rest⟩, hr, heq⟩ := map_eq_ok.mp h
              cases heq
              have hlt := Quoted.length_read hr
              simp only [List.length_cons] at hlt
              omega
            · cases h
    | case4 c r hc hq ih =>
        rw [List.cons_append, List.cons_append, Quoted.read.eq_def] at h
        simp only [hq, hc, ↓reduceIte] at h
        obtain ⟨⟨text', rest⟩, hr, heq⟩ := map_eq_ok.mp h
        cases heq
        rw [ih hr]
        rfl
    | case5 c r hc hq =>
        rw [List.cons_append, List.cons_append, Quoted.read.eq_def] at h
        simp only [hq, hc, ↓reduceIte] at h
        cases h
    | case6 c r hq hb ih =>
        rw [List.cons_append, Quoted.read.eq_def] at h
        simp only [hq, hb, ↓reduceIte] at h
        obtain ⟨⟨text', rest⟩, hr, heq⟩ := map_eq_ok.mp h
        cases heq
        rw [ih hr]
        rfl
  rw [Quoted.read_append hend, List.nil_append]

theorem behindString?_congr (h : behindString? (w ++ u) = some u) :
    behindString? (w ++ v) = some v := by
  obtain ⟨text, hread⟩ := behindString?_eq_some.mp h
  exact behindString?_eq_some.mpr ⟨text, Quoted.read_behind hread v⟩

theorem behindReference?_of_breaks (hb : Breaks u v) (h : behindReference? (w ++ u) = some u) :
    behindReference? (w ++ v) = some v := by
  have hsolid : ∀ c, isReferenceChar c = true → isSolid c = true := fun _ hc =>
    isSolid_of_isNameChar (by rw [isNameChar, show (_ || _) = true from hc, Bool.true_or])
  obtain ⟨hne, hdrop⟩ := behindReference?_eq_some.mp h
  have hdrop' := dropWhile_of_breaks hsolid hb hdrop
  rw [takeWhile_of_dropWhile hdrop] at hne
  refine behindReference?_eq_some.mpr ⟨?_, hdrop'⟩
  rwa [takeWhile_of_dropWhile hdrop']

theorem behindSigil?_of_breaks (hb : Breaks u v) (h : behindSigil? c (w ++ u) = some u) :
    behindSigil? c (w ++ v) = some v := by
  have hrun := hb.run isNameChar fun _ => isSolid_of_isNameChar
  unfold behindSigil? at h ⊢
  split at h
  · exact behindString?_congr h
  · split at h
    · next hquote =>
        cases w with
        | nil =>
            have htail : u.tail.length ≤ u.length := (List.tail_sublist u).length_le
            have hlt := length_behindString? h
            rw [List.nil_append] at hlt
            omega
        | cons d w =>
            rw [if_pos (show (d :: w ++ v).head? = some '"' from hquote)]
            exact behindString?_congr h
    · cases h
  · obtain ⟨x, hconstant, htail⟩ := Option.map_eq_some_iff.mp h
    cases w with
    | nil =>
        rw [List.nil_append] at hconstant htail
        cases u with
        | nil => cases hconstant
        | cons d u =>
            have hlength := congrArg List.length htail
            simp only [List.tail_cons, List.length_cons] at hlength
            omega
    | cons d w =>
        obtain rfl := List.append_left_eq_self.mp htail
        exact Option.map_eq_some_iff.mpr ⟨x, hconstant, rfl⟩
  · exact behindName?_congr hrun h
  · exact behindCode?_dropBlanks_congr hrun h
  · exact behindKeyword?_congr h
  · exact behindReference?_of_breaks hb h
  · cases h

theorem IsLexeme.of_breaks (h : IsLexeme token u) (hb : Breaks u v) : IsLexeme token v := by
  obtain ⟨c, w, rfl⟩ := h.exists_cons
  rw [IsLexeme, List.cons_append, behindLexeme?] at h ⊢
  split at h
  · next hstart =>
      rw [if_pos hstart]
      exact congrArg some (spanPath_of_breaks (w := c :: w) hb (Option.some.inj h))
  next hstart =>
  rw [if_neg hstart]
  split at h
  · next hnumeral =>
      rw [if_pos hnumeral]
      exact Numeral.split_of_breaks (w := c :: w) hb h
  next hnumeral =>
  rw [if_neg hnumeral]
  split at h
  · next hmark =>
      rw [if_pos hmark]
      obtain rfl := List.append_left_eq_self.mp (Option.some.inj h)
      rfl
  next hmark =>
  rw [if_neg hmark]
  exact behindSigil?_of_breaks hb h

end Text

end WidgetShorthand
