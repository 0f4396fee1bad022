import WidgetShorthand.Proofs.Lexemes

/-!
# Texts with the same tokens

Two texts are alike when their tokens are the same, whatever layout there is. A reader that is blind
to layout answers the same on both and leaves rests that are alike. This has to be shown of runs
that succeed only, and what such a run passes consists of whole tokens and layout.

There is one place where a reader stops in the middle of a token. An identifier is read where a path
stands, up to its first dot. No reader goes on there, so nothing need be known about what follows,
but the relation between the texts has to allow for it.
-/

namespace WidgetShorthand

open Text Reader

namespace Text

/-- The same tokens in both texts, up to a dot in both of them. -/
inductive Alike : List Char → List Char → Prop where
  | same {u v : List Char} (h : dropBlanks u = dropBlanks v) : Alike u v
  | lexeme {u v token u' v' : List Char} (hu : dropBlanks u = token ++ u')
      (hv : dropBlanks v = token ++ v') (hu' : IsLexeme token u') (hv' : IsLexeme token v')
      (h : Alike u' v') : Alike u v
  | dot {u v u' v' : List Char} (hu : dropBlanks u = '.' :: u') (hv : dropBlanks v = '.' :: v') :
      Alike u v

/-- From the first text to its rest there are whole tokens and layout, or the rest is in front of a
dot. -/
inductive Passed : List Char → List Char → Prop where
  | refl (cs : List Char) : Passed cs cs
  | blank {blank : Char} {cs rest : List Char} (hblank : isBlank blank = true)
      (h : Passed cs rest) : Passed (blank :: cs) rest
  | lexeme {token cs rest : List Char} (htoken : IsLexeme token cs) (h : Passed cs rest) :
      Passed (token ++ cs) rest
  | dot {cs rest rest' : List Char} (h : dropBlanks rest = '.' :: rest') : Passed cs rest

variable {token cs rest rest' u v w u' v' : List Char} {c : Char}

/-! ## Alike -/

theorem IsLexeme.dropBlanks (h : IsLexeme token rest) :
    dropBlanks (token ++ rest) = token ++ rest := by
  obtain ⟨c, w, rfl⟩ := h.exists_cons
  exact dropBlanks_cons h.isSolid _

theorem Alike.congr (h : Alike u v) (hu : dropBlanks u' = dropBlanks u)
    (hv : dropBlanks v' = dropBlanks v) : Alike u' v' := by
  cases h with
  | same h => exact .same (hu.trans (h.trans hv.symm))
  | lexeme hu₁ hv₁ hu' hv' h => exact .lexeme (hu.trans hu₁) (hv.trans hv₁) hu' hv' h
  | dot hu₁ hv₁ => exact .dot (hu.trans hu₁) (hv.trans hv₁)

theorem Alike.dropBlanks (h : Alike u v) : Alike (dropBlanks u) (dropBlanks v) :=
  h.congr dropBlanks_dropBlanks dropBlanks_dropBlanks

theorem dropBlanks_blank (hblank : isBlank c = true) (cs : List Char) :
    dropBlanks (c :: cs) = dropBlanks cs :=
  List.dropWhile_cons_of_pos hblank

theorem Spread.alike (h : Spread u v) : Alike u v := by
  induction h with
  | rest cs => exact .same rfl
  | added hblank _ ih => exact ih.congr rfl (dropBlanks_blank hblank _)
  | blank hblank _ ih => exact ih.congr (dropBlanks_blank hblank _) (dropBlanks_blank hblank _)
  | lexeme htoken h ih =>
      have htoken' := htoken.of_breaks h.breaks
      exact .lexeme htoken.dropBlanks htoken'.dropBlanks htoken htoken' ih

/-- What comes next is the same. -/
theorem Alike.head? (h : Alike u v) : (Text.dropBlanks u).head? = (Text.dropBlanks v).head? := by
  cases h with
  | same h => rw [h]
  | lexeme hu hv hu' _ _ =>
      obtain ⟨c, w, rfl⟩ := hu'.exists_cons
      rw [hu, hv]
      rfl
  | dot hu hv => rw [hu, hv, List.head?_cons, List.head?_cons]

/-! ## Passed -/

theorem Passed.dropBlanks (cs : List Char) : Passed cs (dropBlanks cs) := by
  induction cs with
  | nil => exact .refl _
  | cons c cs ih =>
      by_cases hc : isBlank c = true
      · rw [dropBlanks_blank hc]
        exact .blank hc ih
      · rw [dropBlanks_cons (by simpa [isSolid] using hc)]
        exact .refl _

/-- A dot is not passed. -/
theorem Passed.dot_of_dot (h : Passed cs rest) (hdot : Text.dropBlanks cs = '.' :: u) :
    ∃ rest', Text.dropBlanks rest = '.' :: rest' := by
  induction h with
  | refl => exact ⟨_, hdot⟩
  | blank hblank _ ih => exact ih ((dropBlanks_blank hblank _).symm.trans hdot)
  | lexeme htoken _ _ =>
      rw [htoken.dropBlanks] at hdot
      rw [IsLexeme, hdot] at htoken
      cases htoken
  | dot h => exact ⟨_, h⟩

theorem Passed.trans (h : Passed cs rest) (h' : Passed rest rest') : Passed cs rest' := by
  induction h with
  | refl => exact h'
  | blank hblank _ ih => exact .blank hblank (ih h')
  | lexeme htoken _ ih => exact .lexeme htoken (ih h')
  | dot hdot =>
      obtain ⟨u, hu⟩ := h'.dot_of_dot hdot
      exact .dot hu

/-- What is passed to its end consists of whole tokens. -/
theorem Passed.tokenized (h : Passed cs rest) (hrest : rest = []) : Tokenized cs := by
  induction h with
  | refl =>
      subst hrest
      exact .nil
  | blank hblank _ ih => exact .blank hblank (ih hrest)
  | lexeme htoken _ ih => exact .lexeme htoken (ih hrest)
  | dot hdot =>
      subst hrest
      cases hdot

theorem Passed.of_lexeme (htoken : IsLexeme token rest) (h : Text.dropBlanks cs = token ++ rest) :
    Passed cs rest :=
  (Passed.dropBlanks cs).trans (h ▸ .lexeme htoken (.refl rest))

/-! ## Names -/

/-- A character of a path that is none of a name is a dot. -/
theorem mem_of_spanPath (h : (spanPath (w ++ u)).2 = u) (hc : c ∈ w) :
    isNameChar c = true ∨ c = '.' := by
  induction w with
  | nil => cases hc
  | cons d w ih =>
      rw [List.cons_append, spanPath] at h
      split at h
      · next hcond =>
          cases hc with
          | head =>
              rw [Bool.or_eq_true, Bool.and_eq_true, beq_iff_eq] at hcond
              exact hcond.imp_right (·.1)
          | tail _ hc => exact ih h hc
      · have hlength := congrArg List.length h
        simp only [List.length_cons, List.length_append] at hlength
        omega

theorem spanPath_run (hw : ∀ c ∈ w, isNameChar c = true) (u : List Char) :
    (spanPath (w ++ u)).2 = (spanPath u).2 := by
  induction w with
  | nil => rfl
  | cons c w ih =>
      rw [List.forall_mem_cons] at hw
      rw [List.cons_append, spanPath, hw.1, Bool.true_or, if_pos rfl]
      exact ih hw.2

/-- A path is a name that nothing goes on with, or a dot stands in it behind its first name. -/
theorem name_of_spanPath (h : (spanPath (token ++ u)).2 = u) :
    ((∀ c ∈ token, isNameChar c = true) ∧ Follows (fun c => !isNameChar c) u) ∨
      ∃ name more, token = name ++ '.' :: more ∧ ∀ c ∈ name, isNameChar c = true := by
  have htoken : token.takeWhile isNameChar ++ token.dropWhile isNameChar = token :=
    List.takeWhile_append_dropWhile
  cases hmore : token.dropWhile isNameChar with
  | nil =>
      have hall := List.dropWhile_eq_nil_iff.mp hmore
      rw [spanPath_run hall] at h
      exact .inl ⟨hall, follows_of_spanPath h⟩
  | cons c more =>
      rw [hmore] at htoken
      have hc : isNameChar c = false := eq_false_of_dropWhile hmore
      have hmem : c ∈ token := htoken ▸ List.mem_append_right _ (List.mem_cons_self ..)
      have hdot : c = '.' := (mem_of_spanPath h hmem).resolve_left (by rw [hc]; exact nofun)
      subst hdot
      exact .inr ⟨_, more, htoken.symm, fun d hd => List.mem_takeWhile_imp hd⟩

theorem IsLexeme.spanPath (h : IsLexeme token rest) (hname : startsName (token ++ rest) = true) :
    (Text.spanPath (token ++ rest)).2 = rest := by
  obtain ⟨c, w, rfl⟩ := h.exists_cons
  have hc : isNameStart c = true := hname
  rw [IsLexeme, List.cons_append, behindLexeme?, if_pos hc] at h
  exact Option.some.inj h

/-- The identifier in front is the same, and what follows it is alike. -/
theorem Alike.name (h : Alike u v) (hu : startsName (Text.dropBlanks u) = true) :
    startsName (Text.dropBlanks v) = true ∧
      (Text.dropBlanks v).takeWhile isNameChar = (Text.dropBlanks u).takeWhile isNameChar ∧
      Alike ((Text.dropBlanks u).dropWhile isNameChar)
        ((Text.dropBlanks v).dropWhile isNameChar) := by
  cases h with
  | same h =>
      rw [← h]
      exact ⟨hu, rfl, .same rfl⟩
  | dot hdot _ =>
      rw [hdot] at hu
      cases hu
  | @lexeme _ _ token u' v' hsplit hsplit' hu' hv' h =>
      rw [hsplit] at hu
      have hv : startsName (token ++ v') = true := by
        obtain ⟨c, w, rfl⟩ := hu'.exists_cons
        exact hu
      rw [hsplit, hsplit']
      rcases name_of_spanPath (hu'.spanPath hu) with ⟨hall, hends⟩ | ⟨name, more, rfl, hname⟩
      · have hends' : Follows (fun c => !isNameChar c) v' := by
          have hspan := hv'.spanPath hv
          rw [spanPath_run hall] at hspan
          exact follows_of_spanPath hspan
        rw [takeWhile_append_of_follows hall hends, takeWhile_append_of_follows hall hends',
          dropWhile_append_of_follows hall hends, dropWhile_append_of_follows hall hends']
        exact ⟨hv, rfl, h⟩
      · have hends (cs : List Char) : Follows (fun c => !isNameChar c) ('.' :: more ++ cs) := rfl
        rw [List.append_assoc] at hv
        rw [List.append_assoc, List.append_assoc]
        rw [takeWhile_append_of_follows hname (hends u'),
          takeWhile_append_of_follows hname (hends v'),
          dropWhile_append_of_follows hname (hends u'),
          dropWhile_append_of_follows hname (hends v')]
        exact ⟨hv, rfl, .dot rfl rfl⟩

theorem isLexeme_of_startsName (h : startsName cs = true) :
    IsLexeme (Text.spanPath cs).1 (Text.spanPath cs).2 := by
  rw [IsLexeme, Decoding.spanPath_concat]
  cases cs with
  | nil => cases h
  | cons c cs => exact if_pos h

theorem Passed.name (h : startsName (Text.dropBlanks cs) = true) :
    Passed cs ((Text.dropBlanks cs).dropWhile isNameChar) := by
  have htoken := isLexeme_of_startsName h
  have hconcat := Decoding.spanPath_concat (Text.dropBlanks cs)
  have hspan : (Text.spanPath ((Text.spanPath (Text.dropBlanks cs)).1 ++
      (Text.spanPath (Text.dropBlanks cs)).2)).2 = (Text.spanPath (Text.dropBlanks cs)).2 := by
    rw [hconcat]
  rcases name_of_spanPath hspan with ⟨hall, hends⟩ | ⟨name, more, hmore, hname⟩
  · rw [← hconcat, dropWhile_append_of_follows hall hends]
    exact .of_lexeme htoken hconcat.symm
  · have hends : Follows (fun c => !isNameChar c)
        ('.' :: more ++ (Text.spanPath (Text.dropBlanks cs)).2) := rfl
    rw [← hconcat, hmore, List.append_assoc, dropWhile_append_of_follows hname hends]
    exact .dot rfl

/-! ## Tokens of alike texts -/

theorem IsLexeme.unique {token' : List Char} (h : IsLexeme token rest) (h' : IsLexeme token' rest')
    (heq : token ++ rest = token' ++ rest') : token = token' ∧ rest = rest' := by
  have hrest : rest = rest' := by
    rw [IsLexeme, heq, h'] at h
    exact (Option.some.inj h).symm
  subst hrest
  exact ⟨List.append_cancel_right heq, rfl⟩

/-- The token in front is the same, and what follows it is alike. -/
theorem Alike.cut (h : Alike u v) (hu : Text.dropBlanks u = token ++ rest)
    (htoken : IsLexeme token rest) :
    ∃ rest', Text.dropBlanks v = token ++ rest' ∧ IsLexeme token rest' ∧ Alike rest rest' := by
  cases h with
  | same h => exact ⟨rest, h ▸ hu, htoken, .same rfl⟩
  | @lexeme _ _ token' u' v' hsplit hsplit' hu' hv' h =>
      obtain ⟨rfl, rfl⟩ := htoken.unique hu' (hu.symm.trans hsplit)
      exact ⟨v', hsplit', hv', h⟩
  | dot hdot _ =>
      rw [IsLexeme, ← hu, hdot] at htoken
      cases htoken

theorem isLexeme_of_isPunctuation (hc : isPunctuation c = true) (cs : List Char) :
    IsLexeme [c] cs := by
  have hplain : (!isNameStart c && !(c == '-' || c.isDigit)) = true :=
    of_among (p := fun c => !isNameStart c && !(c == '-' || c.isDigit)) (by decide) hc
  rw [Bool.and_eq_true, Bool.not_eq_true', Bool.not_eq_true'] at hplain
  show behindLexeme? (c :: cs) = some cs
  rw [behindLexeme?, hplain.1, hplain.2, hc]
  rfl

end Text

/-- What the readers make use of is alike: the texts that are left, and which brackets are open. -/
structure Cursor.Alike (s t : Cursor) : Prop where
  rest : Text.Alike s.rest t.rest
  brackets : s.brackets = t.brackets

namespace Reader

variable {α β : Type} {P Q : Cursor → Prop} {r r' : Reader α} {c : Char} {size size' : Nat}

/-- The second reader answers what the first one does, on texts with other layout. This is about the
cursors that satisfy a condition. -/
def Blind (P : Cursor → Prop) (r r' : Reader α) : Prop :=
  ∀ ⦃s x s'⦄, P s → r s = .ok (x, s') → Passed s.rest s'.rest ∧
    ∀ ⦃t⦄, P t → s.Alike t → ∃ t', r' t = .ok (x, t') ∧ s'.Alike t'

/-! ## Steps -/

theorem Blind.mono (h : Blind P r r') (hQ : ∀ s, Q s → P s) : Blind Q r r' := by
  intro s x s' hs hr
  obtain ⟨hpassed, hsame⟩ := h (hQ s hs) hr
  exact ⟨hpassed, fun t ht => hsame (hQ t ht)⟩

/-- What the readers do is all that matters. -/
theorem Blind.of_run {a a' : Reader α} (h : Blind P a a') (hr : ∀ s, P s → r s = a s)
    (hr' : ∀ t, P t → r' t = a' t) : Blind P r r' := by
  intro s x s' hs hx
  rw [hr s hs] at hx
  obtain ⟨hpassed, hsame⟩ := h hs hx
  refine ⟨hpassed, fun t ht hst => ?_⟩
  rw [hr' t ht]
  exact hsame ht hst

theorem Blind.at (h : Blind Anywhere r r') : Blind P r r' :=
  h.mono fun _ _ => trivial

theorem blind_pure (x : α) : Blind P (pure x) (pure x) := by
  intro s y s' _ hr
  cases hr
  exact ⟨.refl _, fun t _ h => ⟨t, rfl, h⟩⟩

theorem blind_of_fails (h : ∀ s q, r s ≠ .ok q) : Blind P r r' :=
  fun s _ _ _ hr => absurd hr (h s _)

theorem blind_unexpected {wanted : Wanted} :
    Blind P (unexpected (α := α) size wanted) (unexpected size' wanted) :=
  blind_of_fails unexpected_ne_ok

theorem Blind.then {f f' : α → Reader β} (h : Blind P r r')
    (hf : ∀ x, Blind Anywhere (f x) (f' x)) : Blind P (r >>= f) (r' >>= f') := by
  intro s y s' hs hr
  obtain ⟨x, s₁, hx, hy⟩ := run_bind_eq_ok.mp hr
  obtain ⟨hpassed, hsame⟩ := h hs hx
  obtain ⟨hpassed', hsame'⟩ := hf x trivial hy
  refine ⟨hpassed.trans hpassed', fun t ht hst => ?_⟩
  obtain ⟨t₁, hx', hst₁⟩ := hsame ht hst
  obtain ⟨t', hy', hst'⟩ := hsame' trivial hst₁
  exact ⟨t', (run_bind_of_ok hx').trans hy', hst'⟩

theorem Blind.ite {p : Prop} [Decidable p] {a a' b b' : Reader α} (ha : Blind P a a')
    (hb : Blind P b b') : Blind P (if p then a else b) (if p then a' else b') := by
  split
  · exact ha
  · exact hb

theorem blind_expectNow (e : Expectation) : Blind P (expectNow e) (expectNow e) := by
  intro s x s' _ hr
  cases hr
  exact ⟨.refl _, fun t _ h => ⟨_, rfl, h.rest, h.brackets⟩⟩

/-- Looking at the cursor. -/
theorem blind_get {f f' : Cursor → Reader α}
    (hf : ∀ ⦃s t : Cursor⦄, P s → P t → s.Alike t → Blind P (f s) (f' t)) :
    Blind P (get >>= f) (get >>= f') := by
  intro s x s' hs hr
  have hr : f s s = .ok (x, s') := hr
  have hself : s.Alike s := ⟨.same rfl, rfl⟩
  refine ⟨(hf hs hs hself hs hr).1, fun t ht hst => ?_⟩
  exact (hf hs ht hst hs hr).2 ht hst

/-! ## Looking ahead -/

/-- The next character is in front of the cursor, with no layout before it. -/
structure Facing (c : Option Char) (s : Cursor) : Prop where
  ahead : Ahead c s
  solid : Text.dropBlanks s.rest = s.rest

/-- The next character decides. -/
theorem blind_next_then {f f' : Option Char → Reader α}
    (hf : ∀ c, Blind (Facing c) (f c) (f' c)) : Blind P (next >>= f) (next >>= f') := by
  intro s x s' _ hr
  have hr : f (Text.dropBlanks s.rest).head? { s with rest := Text.dropBlanks s.rest } =
      .ok (x, s') := hr
  have hfacing : Facing (Text.dropBlanks s.rest).head?
      { s with rest := Text.dropBlanks s.rest } := ⟨rfl, dropBlanks_dropBlanks⟩
  obtain ⟨hpassed, hsame⟩ := hf _ hfacing hr
  refine ⟨(Passed.dropBlanks s.rest).trans hpassed, fun t _ hst => ?_⟩
  have hfacing' : Facing (Text.dropBlanks s.rest).head?
      { t with rest := Text.dropBlanks t.rest } := ⟨hst.rest.head?.symm, dropBlanks_dropBlanks⟩
  obtain ⟨t', hx, hst'⟩ := hsame hfacing' ⟨hst.rest.dropBlanks, hst.brackets⟩
  rw [hst.rest.head?] at hx
  exact ⟨t', hx, hst'⟩

theorem blind_next : Blind P next next := by
  have hnext : Blind P (next >>= pure) (next >>= pure) := blind_next_then fun c => blind_pure c
  rwa [bind_pure] at hnext

/-- The character that was seen before decides. -/
theorem blind_peek_then {f f' : Option Char → Reader α} {c : Option Char}
    (hf : Blind (Facing c) (f c) (f' c)) : Blind (Facing c) (peek >>= f) (peek >>= f') := by
  intro s x s' hs hr
  have hr : f s.rest.head? s = .ok (x, s') := hr
  rw [hs.ahead] at hr
  obtain ⟨hpassed, hsame⟩ := hf hs hr
  refine ⟨hpassed, fun t ht hst => ?_⟩
  obtain ⟨t', hx, hst'⟩ := hsame ht hst
  rw [← ht.ahead] at hx
  exact ⟨t', hx, hst'⟩

/-- A branch for a certain character. -/
theorem Blind.iteChar {a a' b b' : Reader α} {c : Option Char} {k : Char}
    (ha : Blind (Facing (some k)) a a') (hb : Blind (Facing c) b b') :
    Blind (Facing c) (if c = some k then a else b) (if c = some k then a' else b') := by
  split
  · next hc =>
      subst hc
      exact ha
  · exact hb

/-! ## Whole tokens -/

/-- A reader of a token takes all of it, and the same token wherever it stands. -/
theorem blind_of_token
    (h : ∀ ⦃s x s'⦄, P s → r s = .ok (x, s') → ∃ token,
      Text.dropBlanks s.rest = token ++ s'.rest ∧ IsLexeme token s'.rest ∧
        ∀ ⦃t rest⦄, P t → t.brackets = s.brackets → Text.dropBlanks t.rest = token ++ rest →
          IsLexeme token rest → ∃ t', r' t = .ok (x, t') ∧ t'.rest = rest ∧
            t'.brackets = s'.brackets) :
    Blind P r r' := by
  intro s x s' hs hr
  obtain ⟨token, hsplit, htoken, hsame⟩ := h hs hr
  refine ⟨.of_lexeme htoken hsplit, fun t ht hst => ?_⟩
  obtain ⟨rest, hsplit', htoken', halike⟩ := hst.rest.cut hsplit htoken
  obtain ⟨t', hx, rfl, hbrackets⟩ := hsame ht hst.brackets.symm hsplit' htoken'
  exact ⟨t', hx, halike, hbrackets.symm⟩

/-- The same for a reader at the first character of its token. -/
theorem blind_at_token {k : Char}
    (h : ∀ ⦃u s x s'⦄, s.rest = k :: u → r s = .ok (x, s') → s'.brackets = s.brackets ∧
      ∃ body, u = body ++ s'.rest ∧ IsLexeme (k :: body) s'.rest ∧
        ∀ ⦃t rest⦄, t.rest = k :: body ++ rest → IsLexeme (k :: body) rest →
          ∃ e, r' t = .ok (x, ⟨rest, t.opened, e⟩)) :
    Blind (Facing (some k)) r r' := by
  refine blind_of_token fun s x s' hs hr => ?_
  obtain ⟨u, hu⟩ := List.head?_eq_some_iff.mp hs.ahead
  obtain ⟨hbrackets, body, hbody, htoken, hsame⟩ := h hu hr
  refine ⟨k :: body, by rw [hs.solid, hu, hbody, List.cons_append], htoken, ?_⟩
  intro t rest ht hopen hsplit htoken'
  rw [ht.solid] at hsplit
  obtain ⟨e, hx⟩ := hsame hsplit htoken'
  exact ⟨_, hx, rfl, hopen.trans hbrackets.symm⟩

/-! ### Punctuation -/

theorem blind_eat (hc : isPunctuation c = true) : Blind P (eat c) (eat c) := by
  intro s x s' _ hr
  by_cases hhead : (Text.dropBlanks s.rest).head? = some c
  · obtain ⟨u, hu⟩ := List.head?_eq_some_iff.mp hhead
    rw [eat_of_cons hu] at hr
    cases hr
    have htoken := isLexeme_of_isPunctuation hc u
    refine ⟨.of_lexeme htoken hu, fun t _ hst => ?_⟩
    obtain ⟨v, hv, -, halike⟩ := hst.rest.cut hu htoken
    exact ⟨_, eat_of_cons hv, halike, hst.brackets⟩
  · rw [eat_of_ne hhead] at hr
    cases hr
    refine ⟨.dropBlanks _, fun t _ hst => ?_⟩
    have hhead' : (Text.dropBlanks t.rest).head? ≠ some c := hst.rest.head? ▸ hhead
    exact ⟨_, eat_of_ne hhead', hst.rest.dropBlanks, hst.brackets⟩

theorem blind_expect (hc : isPunctuation c = true) : Blind P (expect size c) (expect size' c) :=
  (blind_eat hc).then fun _ => (blind_pure ()).ite blind_unexpected

theorem blind_advance (hc : isPunctuation c = true) :
    Blind (Facing (some c)) advance advance := by
  refine blind_at_token fun u s x s' hs hr => ?_
  cases hr
  refine ⟨rfl, [], ?_, isLexeme_of_isPunctuation hc _, fun t rest ht _ => ⟨t.expecting, ?_⟩⟩
  · rw [hs]
    rfl
  · show Except.ok ((), { t with rest := t.rest.tail }) = _
    rw [ht]
    rfl

theorem blind_openBracket (hc : isPunctuation c = true) :
    Blind P (openBracket size c) (openBracket size' c) := by
  refine blind_of_token fun s x s' _ hr => ?_
  obtain ⟨u, hu⟩ := exists_cons_of_openBracket hr
  rw [openBracket_of_cons hu] at hr
  cases hr
  refine ⟨[c], hu, isLexeme_of_isPunctuation hc u, fun t rest _ hopen ht _ => ?_⟩
  exact ⟨_, openBracket_of_cons ht, rfl, congrArg (c :: ·) hopen⟩

theorem isPunctuation_closerOf (c : Char) : isPunctuation (closerOf c) = true :=
  of_among (by decide) (among_closerOf c)

/-- The brackets that are open are the same, so the same one is closed. -/
theorem blind_closeBracket : Blind P (closeBracket size) (closeBracket size') := by
  refine blind_of_token fun s x s' _ hr => ?_
  cases ho : s.opened with
  | nil =>
      have hfails : closeBracket size s = unexpected size .endOfInput s := by
        obtain ⟨rest, opened, expecting⟩ := s
        cases ho
        rfl
      rw [hfails] at hr
      exact absurd hr (unexpected_ne_ok _ _)
  | cons o os =>
      obtain ⟨u, hu⟩ := exists_cons_of_closeBracket ho hr
      rw [closeBracket_of_cons ho hu] at hr
      cases hr
      refine ⟨[closerOf o.bracket], hu, isLexeme_of_isPunctuation (isPunctuation_closerOf _) u, ?_⟩
      intro t rest _ hopen ht _
      have hbrackets : t.opened.map (·.bracket) = o.bracket :: os.map (·.bracket) := by
        rw [show t.opened.map (·.bracket) = _ from hopen, Cursor.brackets, ho, List.map_cons]
      obtain ⟨o', os', ho', hbracket, hbehind⟩ := List.map_eq_cons_iff.mp hbrackets
      rw [← hbracket] at ht
      exact ⟨_, closeBracket_of_cons ho' ht, rfl, hbehind⟩

/-- What stands between two brackets. -/
theorem blind_between {r r' : Reader α} {f f' : α → Reader β} (hc : isPunctuation c = true)
    (h : Blind Anywhere r r') (hf : ∀ x, Blind Anywhere (f x) (f' x)) :
    Blind P
      (do
        openBracket size c
        let x ← r
        closeBracket size
        f x)
      (do
        openBracket size' c
        let x ← r'
        closeBracket size'
        f' x) :=
  (blind_openBracket hc).then fun _ => h.then fun x => blind_closeBracket.then fun _ => hf x

/-! ### Lists -/

/-- The rounds of two loops are the same, so the loops are. -/
theorem Repeats.blind {round round' : Nat → Reader (List α × Bool)}
    (h : ∀ i, Blind Anywhere (round i) (round' i)) {i : Nat} {s s' : Cursor} {xs : List α}
    {result : Except ParseError (List α × Cursor)} (hrounds : Repeats round i s result)
    (hr : result = .ok (xs, s')) : Passed s.rest s'.rest ∧
      ∀ ⦃t result'⦄, s.Alike t → Repeats round' i t result' →
        ∃ t', result' = .ok (xs, t') ∧ s'.Alike t' := by
  induction hrounds generalizing xs s' with
  | failed => cases hr
  | last hround =>
      cases hr
      obtain ⟨hpassed, hsame⟩ := h _ trivial hround
      refine ⟨hpassed, fun t result' hst hrounds' => ?_⟩
      obtain ⟨t', hround', hst'⟩ := hsame trivial hst
      cases hrounds' with
      | failed h' =>
          rw [hround'] at h'
          cases h'
      | last h' =>
          rw [hround'] at h'
          cases h'
          exact ⟨_, rfl, hst'⟩
      | more h' =>
          rw [hround'] at h'
          cases h'
  | more hround _ _ ih =>
      obtain ⟨⟨ys, s₂⟩, rfl, heq⟩ := map_eq_ok.mp hr
      cases heq
      obtain ⟨hpassed, hsame⟩ := h _ trivial hround
      obtain ⟨hpassed', hsame'⟩ := ih rfl
      refine ⟨hpassed.trans hpassed', fun t result' hst hrounds' => ?_⟩
      obtain ⟨t₁, hround', hst₁⟩ := hsame trivial hst
      cases hrounds' with
      | failed h' =>
          rw [hround'] at h'
          cases h'
      | last h' =>
          rw [hround'] at h'
          cases h'
      | more h' _ hlater =>
          rw [hround'] at h'
          cases h'
          obtain ⟨t', rfl, hst'⟩ := hsame' hst₁ hlater
          exact ⟨t', rfl, hst'⟩

/-- Readers of the elements of a list: they are blind to layout, and none of them goes back. -/
structure BlindElement (r r' : Reader α) : Prop where
  blind : Blind Anywhere r r'
  passes : Passes 0 r
  passes' : Passes 0 r'

theorem blind_separated (hc : isPunctuation c = true) (h : BlindElement r r') :
    Blind P (separated c r) (separated c r') := by
  intro s xs s' _ hr
  have hround (_ : Nat) : Blind Anywhere (listRound c r) (listRound c r') :=
    h.blind.then fun _ => (blind_eat hc).then fun _ => blind_pure _
  obtain ⟨hpassed, hsame⟩ := (repeats_separated h.passes s).blind hround hr
  exact ⟨hpassed, fun t _ hst => hsame hst (repeats_separated h.passes' t)⟩

theorem blind_separatedUnless (stop : Option Char → Bool) (hc : isPunctuation c = true)
    (h : BlindElement r r') :
    Blind P (separatedUnless stop c r) (separatedUnless stop c r') :=
  blind_next_then fun _ => (blind_pure []).ite (blind_separated hc h)

/-! ### Names -/

theorem blind_identifier : Blind P (identifier size) (identifier size') := by
  suffices hnext : Blind P (next >>= fun _ => identifier size)
      (next >>= fun _ => identifier size') by
    rwa [next_identifier, next_identifier] at hnext
  refine blind_next_then fun c s x s' hs hr => ?_
  cases hname : startsName s.rest with
  | false =>
      rw [identifier_of_solid hs.solid hname] at hr
      exact absurd hr (unexpected_ne_ok _ _)
  | true =>
      rw [identifier_of_startsName hname] at hr
      cases hr
      have hpassed : Passed s.rest ((Text.dropBlanks s.rest).dropWhile isNameChar) :=
        .name (by rw [hs.solid, hname])
      rw [hs.solid] at hpassed
      refine ⟨hpassed, fun t ht hst => ?_⟩
      obtain ⟨hname', htake, halike⟩ := hst.rest.name (by rw [hs.solid, hname])
      rw [hs.solid, ht.solid] at htake halike
      rw [ht.solid] at hname'
      refine ⟨{ t with rest := t.rest.dropWhile isNameChar }, ?_, halike, hst.brackets⟩
      rw [identifier_of_startsName hname', htake]

end Reader

end WidgetShorthand
