import Mathlib.Data.List.Forall2

/-!
# Computations that succeed

Writing and loading stop at the first thing that is wrong. The statements here mostly go the other
way: from a whole that succeeded to its parts, which all succeeded too. `Succeeds` goes from the
parts to the whole.
-/

namespace WidgetShorthand

variable {ε α β : Type}

theorem bind_eq_ok {x : Except ε α} {f : α → Except ε β} {b : β} :
    x >>= f = .ok b ↔ ∃ a, x = .ok a ∧ f a = .ok b := by
  cases x with
  | error e => exact ⟨nofun, fun ⟨_, h, _⟩ => nomatch h⟩
  | ok a => exact ⟨fun h => ⟨a, rfl, h⟩, fun ⟨_, h, hf⟩ => by cases h; exact hf⟩

theorem map_eq_ok {x : Except ε α} {f : α → β} {b : β} :
    x.map f = .ok b ↔ ∃ a, x = .ok a ∧ f a = b := by
  cases x with
  | error e => exact ⟨nofun, fun ⟨_, h, _⟩ => nomatch h⟩
  | ok a =>
      exact ⟨fun h => ⟨a, rfl, Except.ok.inj h⟩, fun ⟨_, h, hf⟩ => by cases h; exact congrArg _ hf⟩

theorem map_eq_error {x : Except ε α} {f : α → β} {e : ε} : x.map f = .error e ↔ x = .error e := by
  cases x with
  | error e' => simp [Except.map]
  | ok a => exact ⟨nofun, nofun⟩

theorem bind_of_ok {x : Except ε α} {f : α → Except ε β} {a : α} (h : x = .ok a) :
    x >>= f = f a := by
  rw [h]
  rfl

theorem bind_of_error {x : Except ε α} {f : α → Except ε β} {e : ε} (h : x = .error e) :
    x >>= f = .error e := by
  rw [h]
  rfl

theorem map_of_ok {x : Except ε α} {f : α → β} {a : α} (h : x = .ok a) :
    x.map f = .ok (f a) := by
  rw [h]
  rfl

theorem map_of_error {x : Except ε α} {f : α → β} {e : ε} (h : x = .error e) :
    x.map f = .error e := by
  rw [h]
  rfl

theorem ok_of_toOption {x : Except ε α} {a : α} (h : x.toOption = some a) : x = .ok a := by
  cases x with
  | error e => cases h
  | ok b => exact congrArg Except.ok (Option.some.inj h)

/-- A list is processed as a whole when each element is. -/
theorem forall₂_of_mapM {f : α → Except ε β} {xs : List α} {ys : List β}
    (h : xs.mapM f = .ok ys) : List.Forall₂ (fun x y => f x = .ok y) xs ys := by
  induction xs generalizing ys with
  | nil => cases h; exact .nil
  | cons x xs ih =>
      rw [List.mapM_cons, bind_eq_ok] at h
      obtain ⟨y, hy, h⟩ := h
      obtain ⟨ys', hys, h⟩ := bind_eq_ok.mp h
      cases h
      exact .cons hy (ih hys)

theorem forM_eq_ok {f : α → Except ε Unit} {xs : List α} :
    xs.forM f = .ok () ↔ ∀ x ∈ xs, f x = .ok () := by
  induction xs with
  | nil => exact ⟨fun _ _ => nofun, fun _ => rfl⟩
  | cons x xs ih =>
      rw [List.forM, List.forall_mem_cons, bind_eq_ok, ← ih]
      exact ⟨fun ⟨_, hx, hxs⟩ => ⟨hx, hxs⟩, fun ⟨hx, hxs⟩ => ⟨(), hx, hxs⟩⟩

/-- The computation has a result. -/
def Succeeds (x : Except ε α) : Prop :=
  ∃ a, x = .ok a

theorem succeeds_ok (a : α) : Succeeds (.ok a : Except ε α) :=
  ⟨a, rfl⟩

theorem Succeeds.map {x : Except ε α} (h : Succeeds x) (f : α → β) : Succeeds (x.map f) := by
  obtain ⟨a, rfl⟩ := h
  exact succeeds_ok (f a)

theorem Succeeds.bind {x : Except ε α} {f : α → Except ε β} (h : Succeeds x)
    (hf : ∀ a, Succeeds (f a)) : Succeeds (x >>= f) := by
  obtain ⟨a, rfl⟩ := h
  exact hf a

theorem succeeds_mapM {f : α → Except ε β} {xs : List α} (h : ∀ x ∈ xs, Succeeds (f x)) :
    Succeeds (xs.mapM f) := by
  induction xs with
  | nil => exact succeeds_ok []
  | cons x xs ih =>
      rw [List.forall_mem_cons] at h
      rw [List.mapM_cons]
      exact h.1.bind fun _ => (ih h.2).bind fun _ => succeeds_ok _

/-- What every step keeps is kept by a fold that succeeds. -/
theorem foldlM_induction {f : β → α → Except ε β} {P : β → Prop} {xs : List α}
    (hstep : ∀ b x b', P b → f b x = .ok b' → P b') :
    ∀ {b b' : β}, P b → xs.foldlM f b = .ok b' → P b' := by
  induction xs with
  | nil => intro b b' hb h; cases h; exact hb
  | cons x xs ih =>
      intro b b' hb h
      rw [List.foldlM_cons, bind_eq_ok] at h
      obtain ⟨b₁, h₁, h⟩ := h
      exact ih (hstep b x b₁ hb h₁) h

/-- A fold fails where it meets the first step that fails; what comes behind it is not looked at. -/
theorem foldlM_eq_error {f : β → α → Except ε β} {xs : List α} {b : β} {e : ε} :
    xs.foldlM f b = .error e ↔ ∃ before x after b', xs = before ++ x :: after ∧
      before.foldlM f b = .ok b' ∧ f b' x = .error e := by
  induction xs generalizing b with
  | nil =>
      refine ⟨nofun, ?_⟩
      rintro ⟨before, x, after, _, hsplit, _⟩
      cases before <;> cases hsplit
  | cons y ys ih =>
      rw [List.foldlM_cons]
      simp only [List.cons_eq_append_iff]
      cases hy : f b y with
      | error e' =>
          constructor
          · intro h
            cases h
            exact ⟨[], y, ys, b, .inl ⟨rfl, rfl⟩, rfl, hy⟩
          · rintro ⟨before, x, after, b', ⟨rfl, hsplit⟩ | ⟨tail, rfl, _⟩, hb, hx⟩
            · cases hsplit
              cases hb
              exact hy.symm.trans hx
            · rw [List.foldlM_cons, hy] at hb
              cases hb
      | ok b₁ =>
          refine (show _ ↔ ys.foldlM f b₁ = .error e from Iff.rfl).trans (ih.trans ⟨?_, ?_⟩)
          · rintro ⟨before, x, after, b', rfl, hb, hx⟩
            refine ⟨y :: before, x, after, b', .inr ⟨before, rfl, rfl⟩, ?_, hx⟩
            rw [List.foldlM_cons, bind_of_ok hy]
            exact hb
          · rintro ⟨before, x, after, b', ⟨rfl, hsplit⟩ | ⟨tail, rfl, rfl⟩, hb, hx⟩
            · cases hsplit
              cases hb
              rw [hy] at hx
              cases hx
            · rw [List.foldlM_cons, bind_of_ok hy] at hb
              exact ⟨tail, x, after, b', rfl, hb, hx⟩

end WidgetShorthand
