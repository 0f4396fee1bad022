import WidgetShorthand.Proofs.Progress

/-!
# Scalars in front of more text

A reader is given a scalar as a text of its own, and later the same text with more behind it. It
takes the same characters both times, provided that what was added ends every token: a name, a path
or a numeral would go on otherwise. `ReadsOn` says this of two readers, because those of a later
level of depth, and those of a longer document, are not the same ones.

The statement goes from a run to a run. Nothing is assumed about how the text looks, so it holds
with layout in it, and for strings that mark fewer characters than the writer would.
-/

namespace WidgetShorthand

open Text Reader

theorem Text.Quoted.read_append {cs s rest : List Char} (h : Quoted.read cs = .ok (s, rest))
    (tail : List Char) : Quoted.read (cs ++ tail) = .ok (s, rest ++ tail) := by
  fun_induction Quoted.read cs generalizing s rest with
  | case1 => cases h
  | case2 r =>
      cases h
      rw [List.cons_append, Quoted.read.eq_def]
      simp
  | case3 => cases h
  | case4 c r hc hq ih =>
      obtain ⟨⟨s', rest'⟩, hr, heq⟩ := map_eq_ok.mp h
      cases heq
      rw [List.cons_append, List.cons_append, Quoted.read.eq_def]
      simp [hq, hc, ih hr, Except.map]
  | case5 => cases h
  | case6 c r hq hb ih =>
      obtain ⟨⟨s', rest'⟩, hr, heq⟩ := map_eq_ok.mp h
      cases heq
      rw [List.cons_append, Quoted.read.eq_def]
      simp [hq, hb, ih hr, Except.map]

namespace Reader

variable {α β : Type} {r r' : Reader α} {x : α} {y : β} {size size' : Nat}

/-- Where the first reader answers on a text of its own, the second one gives the same answer with
more behind the text, and leaves as much of it. -/
def ReadsOn (r r' : Reader α) (x : α) : Prop :=
  ∀ ⦃s s'⦄, r s = .ok (x, s') → ∀ ⦃tail o⦄, endsValue tail →
    Runs r' ⟨s.rest ++ tail, o⟩ x ⟨s'.rest ++ tail, o⟩

/-! ## Steps -/

theorem ReadsOn.bind {f f' : α → Reader β} (h : ∀ x, ReadsOn r r' x)
    (hf : ∀ x, ReadsOn (f x) (f' x) y) : ReadsOn (r >>= f) (r' >>= f') y := by
  intro s s' hr tail o htail
  obtain ⟨x, s₁, hx, hy⟩ := run_bind_eq_ok.mp hr
  exact (h x hx htail).bind (hf x hy htail)

theorem readsOn_pure {x' : α} : ReadsOn (pure x') (pure x') x := by
  intro s s' hr tail o _
  cases hr
  exact runs_pure

/-- A reader that fails has nothing to show. -/
theorem readsOn_of_fails (h : ∀ s q, r s ≠ .ok q) : ReadsOn r r' x :=
  fun s _ hr => absurd hr (h s _)

theorem ReadsOn.ite {c : Prop} [Decidable c] {a a' b b' : Reader α} (ha : ReadsOn a a' x)
    (hb : ReadsOn b b' x) : ReadsOn (if c then a else b) (if c then a' else b') x := by
  split
  · exact ha
  · exact hb

theorem unexpected_ne_ok {wanted : Wanted} (s : Cursor) (q : α × Cursor) :
    unexpected size wanted s ≠ .ok q :=
  nofun

theorem readsOn_unexpected {wanted : Wanted} :
    ReadsOn (unexpected size wanted) (unexpected size' wanted) x :=
  readsOn_of_fails unexpected_ne_ok

/-- A reader that looks at a character sees the same one, unless the text is over; then it sees what
stands behind the text. -/
theorem readsOn_next
    {f f' : Option Char → Reader α} (hf : ∀ c, ReadsOn (f (some c)) (f' (some c)) x)
    (hend : ∀ tail, endsValue tail → ReadsOn (f none) (f' tail.head?) x) :
    ReadsOn (next >>= f) (next >>= f') x := by
  intro s s' hr tail o htail
  obtain ⟨c, s₁, hc, hr⟩ := run_bind_eq_ok.mp hr
  cases hc
  have hb : dropBlanks (s.rest ++ tail) = dropBlanks s.rest ++ tail :=
    dropBlanks_append (htail.widen (by decide)) s.rest
  cases hrest : dropBlanks s.rest with
  | nil =>
      rw [hrest] at hr hb
      exact (runs_next hb).bind (hend tail htail hr htail)
  | cons c cs =>
      rw [hrest] at hr hb
      exact (runs_next hb).bind (hf c hr htail)

theorem readsOn_get {f f' : Cursor → Reader α}
    (h : ∀ s s', f s s = .ok (x, s') → ∀ tail o, endsValue tail → ∀ e,
      Runs (f' ⟨s.rest ++ tail, o, e⟩) ⟨s.rest ++ tail, o⟩ x ⟨s'.rest ++ tail, o⟩) :
    ReadsOn (get >>= f) (get >>= f') x :=
  fun s s' hr tail o htail => runs_get (h s s' hr tail o htail)

/-- A reader that must find something has found nothing in an empty text. -/
theorem Passes.rest_ne_nil (h : Passes 1 r) {s s' : Cursor} (hr : r s = .ok (x, s')) :
    s.rest ≠ [] := by
  intro hnil
  have hbytes := (h hr).bytes
  rw [hnil, byteLength_nil] at hbytes
  omega

theorem readsOn_skipBlanks : ReadsOn skipBlanks skipBlanks () := by
  intro s s' hr tail o htail
  cases hr
  exact runs_skipBlanks (dropBlanks_append (htail.widen (by decide)) s.rest)

/-- Passing a character, when something has to come behind it. -/
theorem readsOn_advance {f f' : Unit → Reader α} (hp : Passes 1 (f ()))
    (hf : ReadsOn (f ()) (f' ()) x) : ReadsOn (advance >>= f) (advance >>= f') x := by
  intro s s' hr tail o htail
  obtain ⟨_, s₁, h, hr⟩ := run_bind_eq_ok.mp hr
  cases h
  have hrest := hp.rest_ne_nil hr
  have hrun := hf hr htail (o := o)
  cases hs : s.rest with
  | nil => exact absurd (by rw [hs]; rfl) hrest
  | cons c cs =>
      dsimp only at hrun
      rw [hs] at hrun
      exact runs_advance.bind hrun

/-- Looking at the character in front, which is not missing. -/
theorem readsOn_peek
    {f f' : Option Char → Reader α} (hf : ∀ c, ReadsOn (f (some c)) (f' (some c)) x)
    (hnone : ∀ s q, f none s ≠ .ok q) : ReadsOn (peek >>= f) (peek >>= f') x := by
  intro s s' hr tail o htail
  obtain ⟨c, s₁, hc, hr⟩ := run_bind_eq_ok.mp hr
  cases hc
  cases hs : s.rest with
  | nil =>
      rw [hs] at hr
      exact absurd hr (hnone _ _)
  | cons c cs =>
      have hrun := hf c (by rwa [hs] at hr) htail (o := o)
      rw [hs] at hrun
      exact runs_peek.bind hrun

theorem expect_eq_ok {c : Char} {s s' : Cursor} (h : expect size c s = .ok ((), s')) :
    dropBlanks s.rest = c :: s'.rest := by
  obtain ⟨found, s₁, hfound, h⟩ := run_bind_eq_ok.mp h
  rw [eat_eq] at hfound
  split at hfound
  · next hhead =>
      cases hfound
      cases h
      obtain ⟨cs, hcs⟩ := List.head?_eq_some_iff.mp hhead
      show dropBlanks s.rest = c :: (dropBlanks s.rest).tail
      rw [hcs, List.tail_cons]
  · cases hfound
    exact absurd h (unexpected_ne_ok _ _)

theorem readsOn_expect (c : Char) : ReadsOn (expect size c) (expect size' c) () := by
  intro s s' hr tail o htail
  refine runs_expect ?_
  rw [dropBlanks_append (htail.widen (by decide)), expect_eq_ok hr, List.cons_append]

/-! ## Names -/

theorem readsOn_identifier (name : String) :
    ReadsOn (identifier size) (identifier size') name := by
  refine ReadsOn.bind (fun _ => readsOn_skipBlanks) fun _ =>
    readsOn_get fun s s' hr tail o htail e => ?_
  have hends : Follows endsName tail := htail.widen (by decide)
  dsimp only at hr ⊢
  rw [startsName_append (htail.widen (by decide)), takeWhile_append hends, dropWhile_append hends]
  split at hr
  · next hname =>
      cases hr
      rw [if_pos hname]
      exact runs_moveTo.bind runs_pure
  · exact absurd hr (unexpected_ne_ok _ _)

theorem readsOn_path (name : String) : ReadsOn (path size) (path size') name := by
  refine ReadsOn.bind (fun _ => readsOn_skipBlanks) fun _ =>
    readsOn_get fun s s' hr tail o htail e => ?_
  have hends : Follows endsPath tail := htail.widen (by decide)
  dsimp only at hr ⊢
  rw [startsName_append hends, spanPath_append hends]
  split at hr
  · next hname =>
      cases hr
      rw [if_pos hname]
      exact runs_moveTo.bind runs_pure
  · exact absurd hr (unexpected_ne_ok _ _)

theorem readsOn_markedName {wanted : Wanted} (name : String) :
    ReadsOn (markedName size wanted) (markedName size' wanted) name := by
  refine readsOn_advance (passes_look fun _ => passes_identifier.ite passes_unexpected) ?_
  refine readsOn_get fun s s' hr tail o htail e => ?_
  dsimp only at hr ⊢
  rw [startsName_append (htail.widen (by decide))]
  exact (readsOn_identifier name).ite readsOn_unexpected hr htail

end Reader

namespace Decoding

variable {d d' : Decoding} {readList readList' : Reader (List Value)}
  {readWidget readWidget' : Reader Widget}

/-! ## Tokens -/

theorem readsOn_code (table : Table) (name : String) :
    ReadsOn (d.code table) (d'.code table) name := by
  refine ReadsOn.bind (fun _ => readsOn_skipBlanks) fun _ =>
    readsOn_get fun s s' hr tail o htail e => ?_
  dsimp only at hr ⊢
  split at hr
  · next hmark =>
      obtain ⟨cs, hcs⟩ := List.head?_eq_some_iff.mp hmark
      rw [if_pos (by rw [hcs]; rfl)]
      exact readsOn_markedName name hr htail
  · next hmark =>
      obtain ⟨short, s₁, hshort, hlong⟩ := run_bind_eq_ok.mp hr
      -- A code is not empty, so its first character is not that of the tail.
      obtain ⟨c, cs, hcs⟩ := List.exists_cons_of_ne_nil (passes_identifier.rest_ne_nil hshort)
      rw [hcs] at hmark
      rw [if_neg (by rw [hcs]; exact hmark)]
      refine (readsOn_identifier short hshort htail).bind ?_
      cases hfound : table.longFor? short with
      | none =>
          rw [hfound] at hlong
          cases hlong
      | some long =>
          rw [hfound] at hlong
          cases hlong
          exact runs_pure

theorem readsOn_string (text : String) : ReadsOn d.string d'.string text := by
  refine ReadsOn.bind (fun _ => readsOn_expect '"') fun _ =>
    readsOn_get fun s s' hr tail o htail e => ?_
  obtain ⟨_, s₁, hnow, hr⟩ := run_bind_eq_ok.mp hr
  cases hnow
  refine (runs_expectNow _).bind (runs_get fun e' => ?_)
  obtain ⟨s₂, s₃, hget, hr⟩ := run_bind_eq_ok.mp hr
  cases hget
  dsimp only at hr ⊢
  cases hread : Quoted.read s.rest with
  | error fault =>
      rw [hread] at hr
      cases hr
  | ok found =>
      rw [hread] at hr
      cases hr
      rw [Quoted.read_append hread]
      exact runs_moveTo.bind ((runs_expectNow _).bind runs_pure)

theorem readsOn_number (x : Scalar) : ReadsOn d.number d'.number x := by
  refine readsOn_get fun s s' hr tail o htail e => ?_
  dsimp only at hr ⊢
  cases hsplit : Numeral.split s.rest with
  | none =>
      rw [hsplit] at hr
      exact absurd hr (unexpected_ne_ok _ _)
  | some found =>
      rw [hsplit] at hr
      cases hr
      rw [Numeral.split_append (htail.widen (by decide)) hsplit]
      exact runs_moveTo.bind runs_pure

theorem readsOn_constant (x : Scalar) : ReadsOn d.constant d'.constant x := by
  refine readsOn_get fun s s' hr tail o htail e => ?_
  dsimp only at hr ⊢
  cases hconstant : constant? s.rest.tail.head? with
  | none =>
      rw [hconstant] at hr
      cases hr
  | some found =>
      rw [hconstant] at hr
      cases hr
      obtain ⟨mark, c, cs, hcs⟩ : ∃ mark c cs, s.rest = mark :: c :: cs := by
        match hs : s.rest with
        | [] => rw [hs] at hconstant; cases hconstant
        | [_] => rw [hs] at hconstant; cases hconstant
        | mark :: c :: cs => exact ⟨mark, c, cs, rfl⟩
      rw [hcs] at hconstant ⊢
      rw [show constant? ((mark :: c :: cs ++ tail).tail.head?) = some _ from hconstant]
      exact runs_moveTo.bind runs_pure

theorem readsOn_foldedLiteral (hs : d'.symbols = d.symbols) (s : Scalar) :
    ReadsOn d.foldedLiteral d'.foldedLiteral s := by
  refine readsOn_advance ((passes_code _).then fun _ => passes_pure _) ?_
  rw [hs]
  exact ReadsOn.bind (readsOn_code _) fun _ => readsOn_pure

theorem readsOn_expression (s : Scalar) : ReadsOn d.expression d'.expression s := by
  refine readsOn_advance ?_ (readsOn_peek (fun c => ?_) fun _ _ => nofun)
  · exact passes_peek.after fun _ =>
      (passes_string.then fun _ => passes_pure _).ite passes_unexpected
  · exact ReadsOn.ite (ReadsOn.bind readsOn_string fun _ => readsOn_pure) readsOn_unexpected

/-! ## Values -/

theorem list_ne_ok_scalar (t t' : Cursor) (s : Scalar) :
    (readList >>= fun vs => pure (Value.list vs)) t ≠ .ok (.scalar s, t') := by
  intro hr
  obtain ⟨vs, t₁, _, hx⟩ := run_bind_eq_ok.mp hr
  cases hx

theorem widget_ne_ok_scalar (t t' : Cursor) (s : Scalar) :
    (readWidget >>= fun w => pure (Value.widget w)) t ≠ .ok (.scalar s, t') := by
  intro hr
  obtain ⟨w, t₁, _, hx⟩ := run_bind_eq_ok.mp hr
  cases hx

theorem readsOn_nameOrWidget (s : Scalar) :
    ReadsOn (d.nameOrWidget readWidget) (d'.nameOrWidget readWidget') (.scalar s) := by
  refine readsOn_get fun s₀ s' hr tail o htail e => ?_
  obtain ⟨name, s₁, hname, hr⟩ := run_bind_eq_ok.mp hr
  refine (readsOn_path name hname htail).bind
    (readsOn_next (fun c => ?_) (fun rest hrest => ?_) hr htail)
  · have hwidget {r' : Reader Value} : ReadsOn (do
        moveTo s₀.rest
        let w ← readWidget
        return Value.widget w) r' (.scalar s) := by
      intro t t' ht
      obtain ⟨_, t₁, _, ht⟩ := run_bind_eq_ok.mp ht
      exact absurd ht (widget_ne_ok_scalar t₁ t' s)
    split
    · exact hwidget
    · exact hwidget
    · exact readsOn_pure
  · show ReadsOn (pure (Value.scalar (.ident name))) _ _
    split
    · next heq => exact absurd heq (ne_head_of_follows hrest (by decide))
    · next heq => exact absurd heq (ne_head_of_follows hrest (by decide))
    · exact readsOn_pure

theorem readsOn_valueWith (hs : d'.symbols = d.symbols) (s : Scalar) :
    ReadsOn (d.valueWith readList readWidget) (d'.valueWith readList' readWidget') (.scalar s) := by
  refine readsOn_next (fun c => ?_) fun _ _ => readsOn_of_fails fun _ _ => nofun
  split
  · exact ReadsOn.bind readsOn_string fun _ => readsOn_pure
  · exact ReadsOn.bind readsOn_constant fun _ => readsOn_pure
  · exact ReadsOn.bind (readsOn_foldedLiteral hs) fun _ => readsOn_pure
  · exact ReadsOn.bind readsOn_expression fun _ => readsOn_pure
  · exact fun t t' hr => absurd hr (list_ne_ok_scalar t t' s)
  · exact fun t t' hr => absurd hr (widget_ne_ok_scalar t t' s)
  · exact fun t t' hr => absurd hr (widget_ne_ok_scalar t t' s)
  · exact ReadsOn.ite (ReadsOn.bind readsOn_number fun _ => readsOn_pure)
      (ReadsOn.ite (readsOn_nameOrWidget s) readsOn_unexpected)
  · exact readsOn_unexpected

end Decoding

end WidgetShorthand
