import Mathlib.Order.Bounds.Basic
import WidgetShorthand.Proofs.CutTokens
import WidgetShorthand.Proofs.TextPositions

/-!
# How far strings and numerals go

Two kinds of tokens whose end is not a matter of the next blank. A string ends at its closing quote,
and since every other quote in it is marked, nothing behind the string has a say in where that is.
So what follows can be split off in one way only, and the written strings are a prefix code.

A numeral has no closing mark and goes on as long as it can. The grammar is given here by what may
stand next to what (`Unsigned`, `Spelled`), without a scan. `prefix_spanFrom` is the lemma that
makes the scan greedy: any numeral that the text begins with is a part of the run that is split off.
A shorter prefix could differ in being hexadecimal only if it is a single digit, and then it has no
sign in it.

Both are then said in bytes of the text, where the scan may be started anywhere, also inside a
character.
-/

namespace WidgetShorthand

open Text Reader

/-! ## Strings -/

/-- A written string and what stands behind it can be told apart. -/
theorem Text.Quoted.quote_append_inj {a b u v : List Char} :
    quote a ++ u = quote b ++ v ↔ a = b ∧ u = v := by
  constructor
  · intro h
    have hbody : escape a ++ '"' :: u = escape b ++ '"' :: v := by simpa [quote] using h
    have hread := congrArg read hbody
    rw [read_escape, read_escape] at hread
    exact Prod.mk.inj (Except.ok.inj hread)
  · rintro ⟨rfl, rfl⟩
    rfl

/-- The reader of strings takes the whole written string, and nothing of what stands behind it. -/
theorem Decoding.string_quote (d : Decoding) (raw : String) (rest : List Char)
    (opened : List OpenBracket) (expecting : Expectation) :
    d.string ⟨Quoted.quote raw.toList ++ rest, opened, expecting⟩ =
      .ok (raw, ⟨rest, opened, expecting⟩) := by
  have hquote : Quoted.quote raw.toList ++ rest = '"' ::
    (Quoted.escape raw.toList ++ '"' :: rest) := by
    simp [Quoted.quote]
  rw [Decoding.string_of_quote hquote, Quoted.read_escape]
  dsimp only
  rw [String.ofList_toList]

/-- A written string is read back exactly, whatever stands behind it. So different strings are
written differently, and none is written as a part of another up to some place in it. -/
theorem Decoding.strings_read_back :
    (∀ (d : Decoding) (raw : String) (rest : List Char) (opened : List OpenBracket)
      (expecting : Expectation), d.string ⟨Quoted.quote raw.toList ++ rest, opened, expecting⟩ =
        .ok (raw, ⟨rest, opened, expecting⟩)) ∧
    Function.Injective (fun raw : String => Quoted.quote raw.toList) ∧
    ∀ a b : String, Quoted.quote a.toList <+: Quoted.quote b.toList ↔ a = b := by
  have hequal (a b : String) (h : Quoted.quote a.toList <+: Quoted.quote b.toList) : a = b := by
    obtain ⟨rest, hrest⟩ := h
    rw [← List.append_nil (Quoted.quote b.toList)] at hrest
    exact String.toList_inj.mp (Quoted.quote_append_inj.mp hrest).1
  refine ⟨Decoding.string_quote, ?_, fun a b => ⟨hequal a b, ?_⟩⟩
  · intro a b h
    have hsame : Quoted.quote a.toList = Quoted.quote b.toList := h
    exact hequal a b (hsame ▸ List.prefix_refl _)
  · rintro rfl
    exact List.prefix_refl _

/-! ## The grammar of numerals -/

namespace Text.Numeral

variable {c last : Char} {cs r run left other : List Char} {hex : Bool}

/-- Whether a character may stand behind another one in a numeral: signs only behind an exponent
mark, and not in hexadecimal numerals. -/
def MayFollow (hex : Prop) (last c : Char) : Prop :=
  c.isAlphanum = true ∨ c = '_' ∨ c = '.' ∨ (c = '+' ∨ c = '-') ∧ (last = 'e' ∨ last = 'E') ∧ ¬ hex

/-- The mark that hexadecimal numerals begin with. -/
def HexMarked (digits : List Char) : Prop :=
  ['0', 'x'] <+: digits ∨ ['0', 'X'] <+: digits

/-- A numeral behind its sign. -/
structure Unsigned (digits : List Char) : Prop where
  first : ∃ c r, digits = c :: r ∧ c.isDigit = true
  behind : digits.IsChain (MayFollow (HexMarked digits))

/-- The numerals of the notation. -/
inductive Spelled : List Char → Prop where
  | bare {digits : List Char} (h : Unsigned digits) : Spelled digits
  | minus {digits : List Char} (h : Unsigned digits) : Spelled ('-' :: digits)

theorem continues_iff : continues hex last c = true ↔ MayFollow (hex = true) last c := by
  cases hex <;> simp [continues, MayFollow, isSign, isExponentMark, or_assoc]

theorem isHex_iff : isHex c r = true ↔ HexMarked (c :: r) := by
  cases r with
  | nil => simp [isHex, HexMarked]
  | cons d r =>
      simp only [isHex, HexMarked, List.cons_prefix_cons, List.nil_prefix, and_true,
        Bool.and_eq_true, Bool.or_eq_true, beq_iff_eq, ← and_or_left]
      simp only [eq_comm]

theorem spanFrom_eq_nil_iff :
    (spanFrom hex last r).2 = [] ↔ (last :: r).IsChain (MayFollow (hex = true)) := by
  induction r generalizing last with
  | nil => simp [spanFrom]
  | cons c r ih =>
      rw [List.isChain_cons_cons, ← continues_iff, ← ih, spanFrom]
      by_cases h : continues hex last c = true <;> simp [h]

theorem unsigned_cons_iff :
    Unsigned (c :: r) ↔ c.isDigit = true ∧ (spanFrom (isHex c r) c r).2 = [] := by
  rw [spanFrom_eq_nil_iff, isHex_iff]
  constructor
  · rintro ⟨⟨d, u, heq, hd⟩, hbehind⟩
    obtain ⟨rfl, rfl⟩ := List.cons.inj heq
    exact ⟨hd, hbehind⟩
  · rintro ⟨hc, hbehind⟩
    exact ⟨⟨c, r, rfl, hc⟩, hbehind⟩

/-- A run that can be gone on with to its end is a part of the longest one. -/
theorem prefix_spanFrom (h : (spanFrom hex last other).2 = []) (hr : other <+: r) :
    other <+: (spanFrom hex last r).1 := by
  induction other generalizing last r with
  | nil => exact List.nil_prefix
  | cons c other ih =>
      obtain ⟨v, rfl⟩ := hr
      rw [spanFrom] at h
      rw [List.cons_append, spanFrom]
      split at h
      · next hc =>
          rw [if_pos hc]
          exact List.cons_prefix_cons.mpr ⟨rfl, ih h (List.prefix_append other v)⟩
      · cases h

theorem Unsigned.prefix_run (h : Unsigned other) (hcs : other <+: cs) :
    ∃ run left, splitUnsigned cs = some (run, left) ∧ other <+: run := by
  obtain ⟨v, rfl⟩ := hcs
  obtain ⟨c, r, rfl, hc⟩ := h.first
  refine ⟨_, _, by rw [List.cons_append, splitUnsigned, if_pos hc], ?_⟩
  refine List.cons_prefix_cons.mpr ⟨rfl, ?_⟩
  cases r with
  | nil =>
      -- The digit alone is not hexadecimal, and the numeral that it begins may be.
      exact List.nil_prefix
  | cons d r => exact prefix_spanFrom (unsigned_cons_iff.mp h).2 (List.prefix_append (d :: r) v)

theorem Unsigned.head_ne_minus (h : Unsigned cs) (v : List Char) : (cs ++ v).head? ≠ some '-' := by
  obtain ⟨c, r, rfl, hc⟩ := h.first
  intro hminus
  obtain rfl : c = '-' := by simpa using hminus
  exact absurd hc (by decide)

/-- Whatever numeral a text begins with, it is a part of the one that is split off. -/
theorem Spelled.prefix_run (h : Spelled other) (hcs : other <+: cs) :
    ∃ run left, split cs = some (run, left) ∧ other <+: run := by
  cases h with
  | bare h =>
      have hrun := h.prefix_run hcs
      obtain ⟨v, rfl⟩ := hcs
      rwa [split_of_ne_minus (h.head_ne_minus v)]
  | @minus digits h =>
      obtain ⟨v, rfl⟩ := hcs
      obtain ⟨run, left, hsplit, hpart⟩ := h.prefix_run (List.prefix_append digits v)
      refine ⟨'-' :: run, left, ?_, List.cons_prefix_cons.mpr ⟨rfl, hpart⟩⟩
      rw [List.cons_append, split, hsplit, Option.map_some]

theorem unsigned_of_split (h : splitUnsigned cs = some (cs, [])) : Unsigned cs := by
  cases cs with
  | nil => cases h
  | cons c r =>
      rw [splitUnsigned] at h
      split at h
      · next hc => exact unsigned_cons_iff.mpr ⟨hc, (Prod.mk.inj (Option.some.inj h)).2⟩
      · cases h

/-- What is split off is a numeral. -/
theorem spelled_of_split (h : split cs = some (run, left)) : Spelled run := by
  have hrun := split_of_isNumeral (isNumeral_of_split h)
  by_cases hminus : run.head? = some '-'
  · obtain ⟨digits, rfl⟩ := List.head?_eq_some_iff.mp hminus
    obtain ⟨⟨digits', left'⟩, hdigits, heq⟩ := Option.map_eq_some_iff.mp hrun
    cases heq
    exact .minus (unsigned_of_split hdigits)
  · rw [split_of_ne_minus hminus] at hrun
    exact .bare (unsigned_of_split hrun)

end Text.Numeral

/-! ## Numerals in a text -/

namespace Text.Numeral

/-- A numeral stands in a text from one byte up to another. -/
def StandsAt (text : String) (start stop : Nat) : Prop :=
  ∃ before token after, text.toList = before ++ (token ++ after) ∧ Spelled token ∧
    byteLength before = start ∧ stop = start + byteLength token

variable {text : String} {start stop : Nat}

theorem endFrom?_eq_some : endFrom? text start = some stop ↔ ∃ cs run left,
    dropBytes start text.toList = some cs ∧ split cs = some (run, left) ∧
      stop = start + byteLength run := by
  simp only [endFrom?, Option.bind_eq_bind, Option.bind_eq_some_iff, Option.pure_def,
    Option.some.injEq, Prod.exists, eq_comm (a := stop)]
  constructor
  · rintro ⟨cs, hcs, run, left, hsplit, hstop⟩
    exact ⟨cs, run, left, hcs, hsplit, hstop⟩
  · rintro ⟨cs, run, left, hcs, hsplit, hstop⟩
    exact ⟨cs, hcs, run, left, hsplit, hstop⟩

/-- Where a numeral stands the scan finds one, and goes at least as far. -/
theorem StandsAt.exists_end (h : StandsAt text start stop) :
    ∃ last, endFrom? text start = some last ∧ stop ≤ last := by
  obtain ⟨before, token, after, htext, htoken, hstart, rfl⟩ := h
  obtain ⟨run, left, hsplit, hpart⟩ := htoken.prefix_run (List.prefix_append token after)
  have hdrop := dropBytes_eq_some.mpr ⟨before, htext, hstart⟩
  refine ⟨_, endFrom?_eq_some.mpr ⟨_, run, left, hdrop, hsplit, rfl⟩, ?_⟩
  obtain ⟨more, rfl⟩ := hpart
  rw [byteLength_append]
  omega

theorem standsAt_of_endFrom? (h : endFrom? text start = some stop) : StandsAt text start stop := by
  obtain ⟨cs, run, left, hdrop, hsplit, rfl⟩ := endFrom?_eq_some.mp h
  obtain ⟨before, htext, hstart⟩ := dropBytes_eq_some.mp hdrop
  rw [← split_concat hsplit] at htext
  exact ⟨before, run, left, htext, spelled_of_split hsplit, hstart, rfl⟩

theorem isGreatest_of_endFrom? (h : endFrom? text start = some stop) :
    IsGreatest {stop | StandsAt text start stop} stop := by
  refine ⟨standsAt_of_endFrom? h, ?_⟩
  intro other hother
  obtain ⟨last, hlast, hle⟩ := StandsAt.exists_end hother
  obtain rfl : last = stop := Option.some.inj (hlast.symm.trans h)
  exact hle

theorem endFrom?_eq_some_iff_isGreatest :
    endFrom? text start = some stop ↔ IsGreatest {stop | StandsAt text start stop} stop := by
  constructor
  · exact isGreatest_of_endFrom?
  · intro h
    obtain ⟨last, hlast, -⟩ := StandsAt.exists_end h.1
    rw [hlast, (isGreatest_of_endFrom? hlast).unique h]

theorem endFrom?_eq_none_iff :
    endFrom? text start = none ↔ ∀ stop, ¬ StandsAt text start stop := by
  rw [Option.eq_none_iff_forall_ne_some]
  constructor
  · intro h stop hstands
    obtain ⟨last, hlast, -⟩ := hstands.exists_end
    exact h last hlast
  · intro h stop hstop
    exact h stop (standsAt_of_endFrom? hstop)

/-- A text is a numeral if the scan of it from its start goes to its end. -/
theorem isNumeral_iff_endFrom? (raw : String) :
    isNumeral raw.toList = true ↔ endFrom? raw 0 = some raw.utf8ByteSize := by
  have hdrop : dropBytes 0 raw.toList = some raw.toList := by
    simp [dropBytes]
  rw [utf8ByteSize_eq, endFrom?_eq_some]
  constructor
  · intro h
    exact ⟨_, _, _, hdrop, split_of_isNumeral h, (Nat.zero_add _).symm⟩
  · rintro ⟨cs, run, left, hcs, hsplit, hbytes⟩
    obtain rfl : raw.toList = cs := Option.some.inj (hdrop.symm.trans hcs)
    have hconcat := split_concat hsplit
    have hleft : left = [] := by
      cases left with
      | nil => rfl
      | cons c left =>
          have hc := c.utf8Size_pos
          rw [← hconcat, byteLength_append, byteLength_cons] at hbytes
          omega
    rw [hleft, List.append_nil] at hconcat
    rw [← hconcat]
    exact isNumeral_of_split hsplit

/-! ### What may stand behind a numeral -/

/-- What stands behind values in a document, and white space of any kind. -/
def separates (c : Char) : Bool :=
  among [',', '}', ']', ')', ';', '|'] c || isWhite c

theorem ends_of_isWhite {c : Char} (h : isWhite c = true) : ends c = true := by
  have hcode : c.toNat ≤ 32 ∨ 133 ≤ c.toNat := by
    simp only [isWhite, inRanges, whiteRanges, List.any_cons, List.any_nil, Bool.or_false,
      Bool.or_eq_true, Bool.and_eq_true, decide_eq_true_eq] at h
    omega
  have hplain (d : Char) (hd : 32 < d.toNat ∧ d.toNat < 133) : c ≠ d := by
    rintro rfl
    omega
  have hletter : c.isAlphanum = false := by
    unfold Char.isAlphanum Char.isAlpha Char.isUpper Char.isLower Char.isDigit
    have hvalue : c.val.toNat = c.toNat := rfl
    simp only [Char.reduceVal, UInt32.reduceToNat, UInt32.le_iff_toNat_le, ge_iff_le, hvalue,
      Bool.decide_and, Bool.or_eq_false_iff, Bool.and_eq_false_imp, decide_eq_true_eq,
      decide_eq_false_iff_not, not_le]
    omega
  simp [ends, isSign, hletter, hplain]

theorem ends_of_separates {c : Char} (h : separates c = true) : ends c = true := by
  rcases Bool.or_eq_true_iff.mp h with hmark | hwhite
  · exact of_among (by decide) hmark
  · exact ends_of_isWhite hwhite

/-- Numerals are scanned by the grammar, as far as it allows: wherever the scan of a text is
started, it finds the end of the longest numeral that stands there, if there is one. A numeral that
is one by itself is therefore found as such in any text, if what stands behind it separates it from
the rest. -/
theorem scan_extends_to_longest :
    (∀ (text : String) (start : Nat),
      (∀ stop,
        endFrom? text start = some stop ↔ IsGreatest {stop | StandsAt text start stop} stop) ∧
      (endFrom? text start = none ↔ ∀ stop, ¬ StandsAt text start stop)) ∧
    ∀ raw : String, (isNumeral raw.toList = true ↔ endFrom? raw 0 = some raw.utf8ByteSize) ∧
      (isNumeral raw.toList = true → ∀ before after : List Char, Follows separates after →
        endFrom? (String.ofList (before ++ raw.toList ++ after)) (byteLength before) =
          some (byteLength (before ++ raw.toList)) ∧
        ∀ (d : Decoding) (opened : List OpenBracket) (expecting : Expectation),
          d.number ⟨raw.toList ++ after, opened, expecting⟩ =
            .ok (.number raw, ⟨after, opened, expecting⟩)) := by
  refine ⟨fun text start => ⟨fun stop => endFrom?_eq_some_iff_isGreatest, endFrom?_eq_none_iff⟩, ?_⟩
  intro raw
  refine ⟨isNumeral_iff_endFrom? raw, ?_⟩
  intro hraw before after hafter
  have hsplit : split (raw.toList ++ after) = some (raw.toList, after) :=
    split_append (hafter.mono fun _ => ends_of_separates) (split_of_isNumeral hraw)
  have hdrop : dropBytes (byteLength before)
    (String.ofList (before ++ raw.toList ++ after)).toList =
      some (raw.toList ++ after) := by
    rw [String.toList_ofList, List.append_assoc, dropBytes_append]
  constructor
  · rw [byteLength_append]
    exact endFrom?_eq_some.mpr ⟨_, _, _, hdrop, hsplit, rfl⟩
  · intro d opened expecting
    rw [Decoding.number_of_split hsplit, String.ofList_toList]

/-- The sign belongs to the numeral in front of it only behind the exponent mark. -/
theorem scan_extends_to_longest_exponent :
    isNumeral "1e-5".toList = true ∧ Follows separates [',', '+'] ∧
      endFrom? "é:1e-5,+" 3 = some 7 := by
  have hraw : isNumeral "1e-5".toList = true := by decide
  have hafter : Follows separates [',', '+'] := (follows_cons _ _ _).mpr (by decide)
  have hscan := ((scan_extends_to_longest.2 "1e-5").2 hraw "é:".toList [',', '+'] hafter).1
  exact ⟨hraw, hafter, hscan⟩

/-- Nothing stands inside a character, and a hexadecimal numeral has no sign in it. -/
example : endFrom? "é1" 1 = none ∧ endFrom? "é0x1e-2" 2 = some 6 := by
  decide +kernel

end Text.Numeral

end WidgetShorthand
