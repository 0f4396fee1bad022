import WidgetShorthand.Proofs.SameTokens
import WidgetShorthand.Proofs.SigilLayout

/-!
# Tokens and the layout around them

Each reader of a token takes a whole token, so it is blind to the layout around it. Most of them see
from the first character which token it is. A name or a code may turn out to be the beginning of a
path, so these two are compared as far as they go. Layout between the mark of a keyword or of a
folded literal and its code belongs to the token, and is the same in both texts.
-/

namespace WidgetShorthand

open Text Reader

namespace Reader

variable {size size' : Nat} {t : Cursor} {u : List Char} {wanted : Wanted}

/-! ## Names behind a mark -/

theorem markedName_eq (ht : t.rest = '!' :: u) : markedName size wanted t =
    (if startsName u then identifier size else unexpected size wanted) { t with rest := u } := by
  have hrun : markedName size wanted t =
      (if startsName t.rest.tail then identifier size else unexpected size wanted)
        { t with rest := t.rest.tail } := rfl
  rw [hrun, ht, List.tail_cons]

theorem markedName_of_startsName (ht : t.rest = '!' :: u) (hname : startsName u = true) :
    markedName size wanted t =
      .ok (String.ofList (u.takeWhile isNameChar), { t with rest := u.dropWhile isNameChar }) := by
  rw [markedName_eq ht, if_pos hname, identifier_of_startsName hname]

theorem startsName_of_markedName (ht : t.rest = '!' :: u) {q : String × Cursor}
    (h : markedName size wanted t = .ok q) : startsName u = true := by
  rw [markedName_eq ht] at h
  split at h
  · assumption
  · exact absurd h (unexpected_ne_ok _ _)

theorem startsName_of_identifier {q : String × Cursor} (h : identifier size t = .ok q) :
    startsName (dropBlanks t.rest) = true := by
  have hrun : identifier size t = identifier size { t with rest := dropBlanks t.rest } :=
    (congrFun next_identifier t).symm
  rw [← Bool.not_eq_false]
  intro hname
  rw [hrun, identifier_of_solid dropBlanks_dropBlanks hname] at h
  exact absurd h (unexpected_ne_ok _ _)

theorem blind_markedName :
    Blind (Facing (some '!')) (markedName size wanted) (markedName size' wanted) := by
  refine blind_at_token fun u s x s' hs hr => ?_
  have hname := startsName_of_markedName hs hr
  have hsplit : u.takeWhile isNameChar ++ u.dropWhile isNameChar = u :=
    List.takeWhile_append_dropWhile
  rw [markedName_of_startsName hs hname] at hr
  cases hr
  refine ⟨rfl, u.takeWhile isNameChar, hsplit.symm, ?_, fun t rest ht htoken => ?_⟩
  · show behindName? (u.takeWhile isNameChar ++ u.dropWhile isNameChar) = _
    rw [hsplit]
    exact behindName?_eq_some.mpr ⟨hname, rfl⟩
  · have hbehind : behindName? (u.takeWhile isNameChar ++ rest) = some rest := htoken
    obtain ⟨hname', hdrop⟩ := behindName?_eq_some.mp hbehind
    refine ⟨t.expecting, ?_⟩
    rw [markedName_of_startsName (List.cons_append ▸ ht) hname', hdrop,
      takeWhile_of_dropWhile hdrop]

end Reader

namespace Decoding

variable {d : Decoding} {size : Nat} {P : Cursor → Prop} {table : Table} {x : String}
  {t s' : Cursor} {c : Char} {short rest : List Char}

/-! ## Codes -/

theorem blind_expand (start start' : List Char) (short : String) :
    Blind P (d.expand table start short) ((d.resized size).expand table start' short) := by
  unfold expand
  cases table.longFor? short with
  | some long => exact blind_pure long
  | none => exact blind_of_fails fun _ _ => nofun

theorem blind_code : Blind P (d.code table) ((d.resized size).code table) := by
  have hread (d : Decoding) {c : Option Char} {s : Cursor} (hs : Facing c s) : d.code table s =
      (do
        if (← peek) = some '!' then markedName d.size .nameAfterMark
        else
          let start := (← get).rest
          identifier d.size >>= d.expand table start : Reader String) s := by
    rw [code_of_solid hs.solid]
    show _ = (if s.rest.head? = some '!' then _ else _ : Reader String) s
    split <;> rfl
  have hnext : Blind P (next >>= fun _ => d.code table)
      (next >>= fun _ => (d.resized size).code table) := by
    refine blind_next_then fun c => Blind.of_run ?_ (fun s => hread d) fun t => hread _
    refine blind_peek_then (blind_markedName.iteChar ?_)
    exact blind_get fun _ _ _ _ _ => blind_identifier.then fun short => blind_expand _ _ short
  rwa [next_code, next_code] at hnext

/-- What a code stands for. -/
def meaning? (table : Table) : List Char → Option String
  | '!' :: name => some (String.ofList name)
  | short => table.longFor? (String.ofList short)

theorem meaning?_of_ne (h : short.head? ≠ some '!') :
    meaning? table short = table.longFor? (String.ofList short) := by
  unfold meaning?
  split
  · exact absurd rfl h
  · rfl

/-- A code that is read, with the layout in front of it. -/
theorem exists_code (h : d.code table t = .ok (x, s')) : ∃ short,
    dropBlanks t.rest = short ++ s'.rest ∧ behindCode? (short ++ s'.rest) = some s'.rest ∧
      meaning? table short = some x ∧ s' = { t with rest := s'.rest } := by
  have hsolid : dropBlanks (dropBlanks t.rest) = dropBlanks t.rest := dropBlanks_dropBlanks
  rw [code_dropBlanks, code_of_solid hsolid] at h
  generalize dropBlanks t.rest = cs at h hsolid
  split at h
  · next hmark =>
      obtain ⟨u, rfl⟩ := List.head?_eq_some_iff.mp hmark
      have hname := startsName_of_markedName (t := { t with rest := '!' :: u }) rfl h
      rw [markedName_of_startsName rfl hname] at h
      cases h
      have hsplit : u.takeWhile isNameChar ++ u.dropWhile isNameChar = u :=
        List.takeWhile_append_dropWhile
      refine ⟨'!' :: u.takeWhile isNameChar, ?_, ?_, rfl, rfl⟩
      · rw [List.cons_append, hsplit]
      · rw [List.cons_append, hsplit]
        exact behindName?_eq_some.mpr ⟨hname, rfl⟩
  · next hmark =>
      obtain ⟨name, s₁, hread, hexpand⟩ := run_bind_eq_ok.mp h
      obtain ⟨hlong, rfl⟩ := expand_eq_ok hexpand
      have hname := startsName_of_identifier hread
      rw [show dropBlanks (Cursor.rest { t with rest := cs }) = cs from hsolid] at hname
      rw [identifier_of_startsName (t := { t with rest := cs }) hname] at hread
      cases hread
      have hsplit : cs.takeWhile isNameChar ++ cs.dropWhile isNameChar = cs :=
        List.takeWhile_append_dropWhile
      refine ⟨cs.takeWhile isNameChar, hsplit.symm, ?_, ?_, rfl⟩
      · rw [hsplit, behindCode?_of_ne hmark]
        exact behindName?_eq_some.mpr ⟨hname, rfl⟩
      · refine (meaning?_of_ne fun hhead => ?_).trans hlong
        have hchar : isNameChar '!' = true := List.mem_takeWhile_imp (List.mem_of_mem_head? hhead)
        exact absurd hchar (by decide)

/-- A code is read in the same way in front of any rest that does not go on with it. -/
theorem code_of_behindCode? (ht : dropBlanks t.rest = short ++ rest)
    (hbehind : behindCode? (short ++ rest) = some rest) (hx : meaning? table short = some x) :
    d.code table t = .ok (x, { t with rest := rest }) := by
  rw [code_dropBlanks, ht]
  cases short with
  | nil => exact absurd (length_behindCode? hbehind) (Nat.lt_irrefl _)
  | cons c w =>
      by_cases hc : c = '!'
      · subst hc
        have hbehind' : behindName? (w ++ rest) = some rest := hbehind
        obtain ⟨hname, hdrop⟩ := behindName?_eq_some.mp hbehind'
        have hsolid : dropBlanks ('!' :: w ++ rest) = '!' :: w ++ rest := dropBlanks_cons rfl _
        have hmark : ('!' :: w ++ rest).head? = some '!' := rfl
        rw [code_of_solid hsolid]
        refine (if_pos hmark).trans ?_
        rw [markedName_of_startsName rfl hname, hdrop, takeWhile_of_dropWhile hdrop]
        cases hx
        rfl
      · have hne : (c :: w).head? ≠ some '!' := by simpa using hc
        have hne' : (c :: w ++ rest).head? ≠ some '!' := by simpa using hc
        rw [behindCode?_of_ne hne'] at hbehind
        rw [meaning?_of_ne hne] at hx
        obtain ⟨hname, hdrop⟩ := behindName?_eq_some.mp hbehind
        rw [code_of_solid (dropBlanks_of_startsName hname), if_neg hne',
          run_bind_of_ok (identifier_of_startsName hname)]
        dsimp only
        rw [hdrop, takeWhile_of_dropWhile hdrop, expand, hx]
        rfl

theorem blind_propertyKey : Blind P d.propertyKey (d.resized size).propertyKey := by
  refine blind_next_then fun c => ?_
  cases c with
  | none => exact blind_unexpected
  | some c =>
      by_cases hmark : c = '!'
      · subst hmark
        exact blind_markedName
      · have hkey : Blind (Facing (some c))
            (identifier d.size >>= fun key => pure ((d.symbols.properties.longFor? key).getD key))
            (identifier size >>= fun key => pure ((d.symbols.properties.longFor? key).getD key)) :=
          blind_identifier.then fun _ => blind_pure _
        show Blind (Facing (some c)) (if c = '!' then _ else _) (if c = '!' then _ else _)
        rw [if_neg hmark, if_neg hmark]
        exact hkey.ite blind_unexpected

/-! ### Codes behind a mark -/

theorem exists_cons_of_behindCode? (h : behindCode? (short ++ rest) = some rest) :
    ∃ c w, short = c :: w ∧ isSolid c = true := by
  cases short with
  | nil => exact absurd (length_behindCode? h) (Nat.lt_irrefl _)
  | cons c w =>
      refine ⟨c, w, rfl, ?_⟩
      by_cases hc : c = '!'
      · subst hc
        rfl
      · rw [behindCode?_of_ne (by simpa using hc)] at h
        have hstart : isNameStart c = true := (behindName?_eq_some.mp h).1
        exact isSolid_of_isNameChar (isNameChar_of_isNameStart hstart)

/-- The layout between a mark and its code belongs to the token. -/
theorem exists_code_behind {u : List Char}
    (h : d.code table { t with rest := dropBlanks u } = .ok (x, s')) : ∃ layout short,
      u = layout ++ short ++ s'.rest ∧
        (∀ rest, dropBlanks (layout ++ short ++ rest) = short ++ rest) ∧
        behindCode? (short ++ s'.rest) = some s'.rest ∧ meaning? table short = some x ∧
        s'.brackets = t.brackets := by
  obtain ⟨short, hshort, hbehind, hmeaning, heq⟩ := exists_code h
  have hshort : dropBlanks u = short ++ s'.rest := dropBlanks_dropBlanks.symm.trans hshort
  have hlayout : ∀ c ∈ u.takeWhile isBlank, isBlank c = true := fun _ => List.mem_takeWhile_imp
  refine ⟨u.takeWhile isBlank, short, ?_, fun rest => ?_, hbehind, hmeaning, by rw [heq]; rfl⟩
  · rw [List.append_assoc, ← hshort]
    exact List.takeWhile_append_dropWhile.symm
  · obtain ⟨c, w, rfl, hc⟩ := exists_cons_of_behindCode? hbehind
    rw [List.append_assoc, dropBlanks_append_of_all hlayout]
    exact dropBlanks_cons hc (w ++ rest)

theorem blind_foldedLiteral :
    Blind (Facing (some '#')) d.foldedLiteral (d.resized size).foldedLiteral := by
  refine blind_at_token fun u s x s' hs hr => ?_
  rw [foldedLiteral_eq hs] at hr
  obtain ⟨long, s₁, hlong, hr⟩ := run_bind_eq_ok.mp hr
  cases hr
  obtain ⟨layout, short, hu, hblanks, hbehind, hmeaning, hbrackets⟩ := exists_code_behind hlong
  refine ⟨hbrackets, layout ++ short, hu, ?_, fun t rest ht htoken => ?_⟩
  · show behindCode? (dropBlanks (layout ++ short ++ s'.rest)) = some s'.rest
    rw [hblanks, hbehind]
  · have hbehind' : behindCode? (dropBlanks (layout ++ short ++ rest)) = some rest := htoken
    rw [hblanks] at hbehind'
    rw [foldedLiteral_eq (u := layout ++ short ++ rest) ht, hblanks]
    have hcode := code_of_behindCode? (d := d.resized size) (t := { t with rest := short ++ rest })
      (by rw [← hblanks, dropBlanks_dropBlanks]) hbehind' hmeaning
    exact ⟨_, run_bind_of_ok hcode⟩

/-- The dot stands behind the code at once. -/
theorem blind_modifier : Blind (Facing (some '%')) d.modifier (d.resized size).modifier := by
  refine blind_at_token fun u s x s' hs hr => ?_
  rw [modifier_eq hs] at hr
  obtain ⟨word, s₁, hword, hr⟩ := run_bind_eq_ok.mp hr
  by_cases hdot : s₁.rest.head? = some '.'
  · obtain ⟨v, hv⟩ := List.head?_eq_some_iff.mp hdot
    rw [dotBehind_of_dot hv] at hr
    cases hr
    obtain ⟨layout, short, hu, hblanks, hbehind, hmeaning, hbrackets⟩ := exists_code_behind hword
    rw [hv] at hu hbehind
    have hrun (rest : List Char) : Follows (fun c => !isNameChar c) ('.' :: v) →
        Follows (fun c => !isNameChar c) ('.' :: rest) := fun hu => hu
    have hbehind' (rest : List Char) :
        behindCode? (short ++ '.' :: rest) = some ('.' :: rest) :=
      behindCode?_congr (hrun rest) hbehind
    refine ⟨hbrackets, layout ++ short ++ ['.'], by simpa using hu, ?_, fun t rest ht _ => ?_⟩
    · show (behindCode? (dropBlanks (layout ++ short ++ ['.'] ++ v))).bind behindDot? = some v
      rw [List.append_assoc (layout ++ short), List.singleton_append, hblanks, hbehind']
      rfl
    · have ht : t.rest = '%' :: (layout ++ short ++ '.' :: rest) := by simpa using ht
      rw [modifier_eq ht, hblanks]
      have hcode := code_of_behindCode? (d := d.resized size)
        (t := { t with rest := short ++ '.' :: rest })
        (by rw [← hblanks, dropBlanks_dropBlanks]) (hbehind' rest) hmeaning
      exact ⟨_, (run_bind_of_ok hcode).trans (dotBehind_of_dot rfl)⟩
  · rw [dotBehind_of_ne hdot] at hr
    exact absurd hr (unexpected_ne_ok _ _)

/-! ## Strings -/

/-- A string is read in the same way whatever stands behind its closing quote. -/
theorem exists_body_of_string {u : List Char} (ht : t.rest = '"' :: u)
    (h : d.string t = .ok (x, s')) : ∃ body, u = body ++ s'.rest ∧
      behindString? (body ++ s'.rest) = some s'.rest ∧ s'.brackets = t.brackets ∧
        ∀ ⦃t' rest⦄, t'.rest = '"' :: (body ++ rest) →
          (d.resized size).string t' = .ok (x, { t' with rest := rest }) := by
  rw [string_of_quote ht] at h
  cases hread : Quoted.read u with
  | error fault =>
      rw [hread] at h
      cases h
  | ok q =>
      obtain ⟨text, behind⟩ := q
      rw [hread] at h
      cases h
      obtain ⟨body, rfl⟩ := Quoted.suffix_read hread
      refine ⟨body, rfl, behindString?_eq_some.mpr ⟨text, hread⟩, rfl, fun t' rest ht' => ?_⟩
      rw [string_of_quote ht', Quoted.read_behind hread rest]

theorem blind_string : Blind (Facing (some '"')) d.string (d.resized size).string := by
  refine blind_at_token fun u s x s' hs hr => ?_
  obtain ⟨body, hu, hbehind, hbrackets, hsame⟩ := exists_body_of_string hs hr
  exact ⟨hbrackets, body, hu, hbehind, fun t rest ht _ => ⟨t.expecting, hsame ht⟩⟩

theorem expression_eq {u : List Char} (ht : t.rest = '&' :: u) : d.expression t =
    (if u.head? = some '"' then d.string >>= fun text => pure (.expr text)
      else unexpected d.size .quoteAfterMark) { t with rest := u } := by
  have hrun : d.expression t =
      (if t.rest.tail.head? = some '"' then d.string >>= fun text => pure (.expr text)
        else unexpected d.size .quoteAfterMark) { t with rest := t.rest.tail } := rfl
  rw [hrun, ht, List.tail_cons]

theorem blind_expression :
    Blind (Facing (some '&')) d.expression (d.resized size).expression := by
  refine blind_at_token fun u s x s' hs hr => ?_
  rw [expression_eq hs] at hr
  split at hr
  · next hquote =>
      obtain ⟨v, rfl⟩ := List.head?_eq_some_iff.mp hquote
      obtain ⟨text, s₁, htext, hr⟩ := run_bind_eq_ok.mp hr
      cases hr
      obtain ⟨body, rfl, hbehind, hbrackets, hsame⟩ := exists_body_of_string rfl htext
      refine ⟨hbrackets, '"' :: body, rfl, hbehind, fun t rest ht _ => ⟨t.expecting, ?_⟩⟩
      have hquote' : ('"' :: body ++ rest).head? = some '"' := rfl
      have hstring : (d.resized size).string { t with rest := '"' :: body ++ rest } = _ := hsame rfl
      rw [expression_eq (List.cons_append ▸ ht), if_pos hquote', run_bind_of_ok hstring]
      rfl
  · exact absurd hr (unexpected_ne_ok _ _)

/-! ## Numbers, constants and paths -/

theorem isLexeme_numeral_iff (hc : (c == '-' || c.isDigit) = true) {w : List Char} :
    IsLexeme (c :: w) rest ↔ (Numeral.split (c :: w ++ rest)).map (·.2) = some rest := by
  have hstart : isNameStart c = false := by
    rw [Bool.or_eq_true, beq_iff_eq] at hc
    rcases hc with rfl | hdigit
    · rfl
    · exact isNameStart_of_isDigit hdigit
  rw [IsLexeme, List.cons_append, behindLexeme?, hstart, if_neg Bool.false_ne_true, if_pos hc]

theorem blind_number (hc : (c == '-' || c.isDigit) = true) :
    Blind (Facing (some c)) d.number (d.resized size).number := by
  refine blind_at_token fun u s x s' hs hr => ?_
  cases hsplit : Numeral.split s.rest with
  | none =>
      rw [number_of_none hsplit] at hr
      exact absurd hr (unexpected_ne_ok _ _)
  | some q =>
      obtain ⟨spelling, rest⟩ := q
      rw [number_of_split hsplit] at hr
      cases hr
      have hconcat := Numeral.split_concat hsplit
      have hlt := (Numeral.further_split hsplit).length_lt
      rw [hs] at hconcat hsplit hlt
      cases spelling with
      | nil =>
          rw [show rest = c :: u from hconcat] at hlt
          exact absurd hlt (Nat.lt_irrefl _)
      | cons c' body =>
          obtain ⟨rfl, rfl⟩ := List.cons.inj hconcat
          refine ⟨rfl, body, rfl, (isLexeme_numeral_iff hc).mpr ?_, fun t rest' ht htoken => ?_⟩
          · exact congrArg (Option.map (·.2)) hsplit
          · obtain ⟨⟨spelling, _⟩, hsplit', rfl⟩ :=
              Option.map_eq_some_iff.mp ((isLexeme_numeral_iff hc).mp htoken)
            have hsame : spelling = c' :: body :=
              List.append_cancel_right (Numeral.split_concat hsplit')
            subst hsame
            rw [← ht] at hsplit'
            exact ⟨t.expecting, number_of_split hsplit'⟩

theorem blind_constant : Blind (Facing (some '~')) d.constant (d.resized size).constant := by
  refine blind_at_token fun u s x s' hs hr => ?_
  cases hconstant : constant? s.rest.tail.head? with
  | none =>
      rw [constant_of_none hconstant] at hr
      cases hr
  | some y =>
      rw [constant_of_some hconstant] at hr
      cases hr
      rw [hs, List.tail_cons] at hconstant
      cases u with
      | nil => cases hconstant
      | cons k v =>
          refine ⟨rfl, [k], ?_, ?_, fun t rest ht _ => ⟨t.expecting, ?_⟩⟩
          · rw [hs]
            rfl
          · show IsLexeme ['~', k] s.rest.tail.tail
            rw [hs]
            show (constant? (some k)).map (fun _ => v) = some v
            rw [show constant? (some k) = some x from hconstant]
            rfl
          · rw [constant_of_some (by rw [ht]; exact hconstant), ht]
            rfl

theorem blind_path (hc : isNameStart c = true) :
    Blind (Facing (some c)) (path d.size) (path size) := by
  refine blind_at_token fun u s x s' hs hr => ?_
  have hname : startsName s.rest = true := by
    rw [hs]
    exact hc
  rw [path_of_startsName hname] at hr
  cases hr
  have htoken := isLexeme_of_startsName hname
  have hconcat := spanPath_concat s.rest
  have hcons : (spanPath s.rest).1 = c :: (spanPath u).1 := by
    rw [hs, spanPath, isNameChar_of_isNameStart hc, Bool.true_or, if_pos rfl]
  rw [hcons] at htoken hconcat
  refine ⟨rfl, (spanPath u).1, (List.cons.inj (hconcat.trans hs)).2.symm, htoken, ?_⟩
  intro t rest ht htoken'
  have hname' : startsName t.rest = true := by
    rw [ht]
    exact hc
  have hbehind : (spanPath t.rest).2 = rest := by
    rw [ht]
    exact htoken'.spanPath hc
  have happend : (spanPath t.rest).1 ++ rest = c :: (spanPath u).1 ++ rest := by
    rw [← ht, ← hbehind, spanPath_concat]
  have hsame : (spanPath t.rest).1 = c :: (spanPath u).1 := List.append_cancel_right happend
  refine ⟨t.expecting, ?_⟩
  rw [path_of_startsName hname', hsame, hbehind, hcons]

end Decoding

end WidgetShorthand
