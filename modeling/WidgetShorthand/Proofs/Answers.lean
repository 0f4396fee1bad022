import WidgetShorthand.Document.Cursor
import WidgetShorthand.Proofs.Success
import WidgetShorthand.Proofs.TokenEnds

/-!
# What a reader can answer

The other direction from following a reader through a known text: the text is arbitrary, and all
that is known is that the reader succeeded. `Yields` says that whatever it answers then has a
property. No place is mentioned, since what an answer looks like does not depend on where it was
found; so a reader that only looks or moves has nothing to show, and a reader that fails yields
whatever is asked for.
-/

namespace WidgetShorthand.Reader

open Text

variable {α β : Type} {P P' : α → Prop} {Q : β → Prop} {size : Nat}

/-- Whatever the reader answers has the property. -/
def Yields (r : Reader α) (P : α → Prop) : Prop :=
  ∀ ⦃s x s'⦄, r s = .ok (x, s') → P x

/-! ## Steps -/

theorem Yields.mono {r : Reader α} (h : Yields r P) (hP : ∀ x, P x → P' x) : Yields r P' :=
  fun _ _ _ hr => hP _ (h hr)

theorem Yields.bind {r : Reader α} {f : α → Reader β} (h : Yields r P)
    (hf : ∀ x, P x → Yields (f x) Q) : Yields (r >>= f) Q := by
  intro s y s' hr
  obtain ⟨⟨x, s₁⟩, hx, hy⟩ := bind_eq_ok.mp hr
  exact hf x (h hx) hy

/-- Nothing need be known of what came before. -/
theorem yields_bind {r : Reader α} {f : α → Reader β} (hf : ∀ x, Yields (f x) Q) :
    Yields (r >>= f) Q :=
  Yields.bind (P := fun _ => True) (fun _ _ _ _ => trivial) fun x _ => hf x

theorem yields_pure {x : α} (h : P x) : Yields (pure x) P := by
  intro s y s' hr
  cases hr
  exact h

theorem Yields.ite {c : Prop} [Decidable c] {a b : Reader α} (ha : Yields a P) (hb : Yields b P) :
    Yields (if c then a else b) P := by
  split
  · exact ha
  · exact hb

theorem yields_failAt {place : List Char} {fault : Fault} : Yields (failAt size place fault) P :=
  nofun

theorem yields_fail {fault : Fault} : Yields (fail size fault) P :=
  yields_bind fun _ => yields_failAt

theorem yields_unexpected {wanted : Wanted} : Yields (unexpected size wanted) P :=
  yields_bind fun _ => yields_fail

/-! ## Lists -/

theorem yields_separatedLoop {r : Reader α} (separator : Char) (h : Yields r P) (fuel : Nat) :
    Yields (separatedLoop separator r fuel) fun xs => ∀ x ∈ xs, P x := by
  induction fuel with
  | zero => exact h.bind fun x hx => yields_pure (by simpa using hx)
  | succ fuel ih =>
      refine h.bind fun x hx => yields_bind fun more => Yields.ite ?_ ?_
      · refine ih.bind fun xs hxs => yields_pure ?_
        rw [List.forall_mem_cons]
        exact ⟨hx, hxs⟩
      · exact yields_pure (by simpa using hx)

theorem yields_separated {r : Reader α} (separator : Char) (h : Yields r P) :
    Yields (separated separator r) fun xs => ∀ x ∈ xs, P x :=
  yields_bind fun _ => yields_separatedLoop separator h _

theorem yields_separatedUnless {r : Reader α} (stop : Option Char → Bool) (separator : Char)
    (h : Yields r P) : Yields (separatedUnless stop separator r) fun xs => ∀ x ∈ xs, P x :=
  yields_bind fun _ => Yields.ite (yields_pure nofun) (yields_separated separator h)

/-! ## Names -/

theorem isIdentifier_takeWhile {cs : List Char} (h : startsName cs = true) :
    isIdentifier (String.ofList (cs.takeWhile isNameChar)) = true := by
  cases cs with
  | nil => cases h
  | cons c r =>
      have hc : isNameStart c = true := h
      rw [isIdentifier, String.toList_ofList,
        List.takeWhile_cons_of_pos (isNameChar_of_isNameStart hc),
        startsName, hc, List.tail_cons, List.all_takeWhile]
      rfl

theorem yields_identifier : Yields (identifier size) fun name => isIdentifier name = true := by
  refine yields_bind fun _ => yields_bind fun s => ?_
  dsimp only
  split
  · next h => exact yields_bind fun _ => yields_pure (isIdentifier_takeWhile h)
  · exact yields_unexpected

theorem yields_markedName {wanted : Wanted} :
    Yields (markedName size wanted) fun name => isIdentifier name = true :=
  yields_bind fun _ => yields_bind fun _ => Yields.ite yields_identifier yields_unexpected

/-- What is split off in front of a text is a path, or the rest of one. -/
theorem isPathFrom_spanPath (cs : List Char) :
    isPathFrom false (spanPath cs).1 = true ∧
      (startsName cs = true → isPathFrom true (spanPath cs).1 = true) := by
  induction cs with
  | nil => exact ⟨rfl, nofun⟩
  | cons c r ih =>
      have hstart : isNameStart c = true → isPathFrom true (spanPath (c :: r)).1 = true := by
        intro hc
        simp [spanPath, isPathFrom, isNameChar_of_isNameStart hc, hc, ih.1]
      refine ⟨?_, hstart⟩
      rw [spanPath]
      split
      · next hgo =>
          by_cases hdot : c = '.'
          · subst hdot
            have hname : startsName r = true := by simpa [isNameChar] using hgo
            simp [isPathFrom, ih.2 hname]
          · have hchar : isNameChar c = true := by simpa [hdot] using hgo
            simp [isPathFrom, hdot, hchar, ih.1]
      · rfl

theorem yields_path : Yields (path size) fun name => isPath name = true := by
  refine yields_bind fun _ => yields_bind fun s => ?_
  dsimp only
  split
  · next h =>
      refine yields_bind fun _ => yields_pure ?_
      rw [isPath, String.toList_ofList]
      exact (isPathFrom_spanPath s.rest).2 h
  · exact yields_unexpected

end WidgetShorthand.Reader
