import WidgetShorthand.Proofs.BufferCommits
import WidgetShorthand.Proofs.RegistryRuns

/-!
# Mining finds the repeated shapes

Mining goes through the widgets of a tree once, counts each fingerprint and keeps its first widget.
What it should find can be said without the tables that it builds: a fingerprint is mined when at
least two of the widgets that are large enough bear it and no pattern does. Each goes with the first
widget that bears it, and these widgets stand in the order of the tree.

A tree is mined to exhaustion by one commit. The buffer holds every shape that is worth a pattern, a
committed shape is known from then on, and a known shape is not mined again, whatever was registered
in between or is registered later.
-/

namespace WidgetShorthand

/-- The widget has the fingerprint, and its shape is no shorter than mining asks for. -/
def Widget.bears (minTokens : Nat) (fingerprint : String) (w : Widget) : Bool :=
  minTokens ≤ w.shape.length && w.fingerprint == fingerprint

/-- Where the first widget of a tree stands that bears a fingerprint. -/
def Node.firstBearing (tree : Node) (minTokens : Nat) (fingerprint : String) : Nat :=
  tree.widgets.findIdx (Widget.bears minTokens fingerprint)

/-- A widget with its fingerprint. -/
def Widget.pending (w : Widget) : Pending :=
  ⟨w.fingerprint, w⟩

variable {minTokens : Nat} {f g : String} {p : Pending} {ps : List Pending} {w : Widget}
  {ws : List Widget}

/-! ## The first one of each fingerprint -/

theorem find?_of_mem_firstOfEach (h : p ∈ firstOfEach ps) :
    ps.find? (·.fingerprint == p.fingerprint) = some p := by
  induction ps with
  | nil => cases h
  | cons q ps ih =>
      rw [firstOfEach, List.mem_cons, List.mem_filter] at h
      rcases h with rfl | ⟨h, hne⟩
      · exact List.find?_cons_of_pos (beq_self_eq_true _)
      · have hother : (q.fingerprint == p.fingerprint) = false :=
          beq_false_of_ne (bne_iff_ne.mp hne).symm
        rw [List.find?_cons, hother]
        exact ih h

theorem mem_fingerprints_firstOfEach :
    f ∈ (firstOfEach ps).map (·.fingerprint) ↔ f ∈ ps.map (·.fingerprint) := by
  induction ps with
  | nil => rfl
  | cons q ps ih =>
      by_cases hf : f = q.fingerprint
      · simp [firstOfEach, hf]
      · have hfilter : f ∈ ((firstOfEach ps).filter (·.fingerprint != q.fingerprint)).map
            (·.fingerprint) ↔ f ∈ (firstOfEach ps).map (·.fingerprint) := by
          simp only [List.mem_map, List.mem_filter, bne_iff_ne]
          constructor
          · rintro ⟨p, ⟨hp, _⟩, rfl⟩
            exact ⟨p, hp, rfl⟩
          · rintro ⟨p, hp, rfl⟩
            exact ⟨p, ⟨hp, hf⟩, rfl⟩
        rw [firstOfEach, List.map_cons, List.map_cons, List.mem_cons, List.mem_cons, hfilter, ih]

/-! ## Widgets that are large enough -/

theorem candidates_eq (tree : Node) (minTokens : Nat) :
    candidates tree minTokens =
      (tree.widgets.filter (minTokens ≤ ·.shape.length)).map Widget.pending := by
  rw [candidates, ← List.filterMap_eq_map, List.filterMap_filter]
  refine List.filterMap_congr fun w _ => ?_
  by_cases h : w.shape.length < minTokens
  · simp [h]
  · have hle : minTokens ≤ w.shape.length := by omega
    simp only [h, hle, if_false, decide_true, if_true]
    rfl

theorem countP_candidates (tree : Node) (minTokens : Nat) (f : String) :
    (candidates tree minTokens).countP (·.fingerprint == f) =
      tree.widgets.countP (Widget.bears minTokens f) := by
  rw [candidates_eq, List.countP_map, List.countP_filter]
  refine List.countP_congr fun w _ => ?_
  simp [Widget.bears, Widget.pending, and_comm]

theorem find?_candidates (tree : Node) (minTokens : Nat) (f : String) :
    (candidates tree minTokens).find? (·.fingerprint == f) =
      (tree.widgets.find? (Widget.bears minTokens f)).map Widget.pending := by
  rw [candidates_eq, List.find?_map, List.find?_filter]
  congr 2
  funext w
  by_cases hf : w.fingerprint = f <;> simp [Widget.bears, Widget.pending, hf]

/-- The first widgets of two fingerprints stand in the order in which they are kept. -/
theorem pairwise_firstOfEach (minTokens : Nat) (ws : List Widget) :
    (firstOfEach ((ws.filter (minTokens ≤ ·.shape.length)).map Widget.pending)).Pairwise fun p q =>
      ws.findIdx (Widget.bears minTokens p.fingerprint) <
        ws.findIdx (Widget.bears minTokens q.fingerprint) := by
  induction ws with
  | nil => exact .nil
  | cons w ws ih =>
      -- A widget that does not bear a fingerprint moves the first one that does by one place.
      have hmoved : ∀ f, Widget.bears minTokens f w = false →
          (w :: ws).findIdx (Widget.bears minTokens f) =
            ws.findIdx (Widget.bears minTokens f) + 1 := by
        intro f hf
        rw [List.findIdx_cons, hf, cond_false]
      by_cases hlong : minTokens ≤ w.shape.length
      · rw [List.filter_cons_of_pos (by simpa using hlong), List.map_cons, firstOfEach,
          List.pairwise_cons]
        have hother : ∀ q : Pending, (q.fingerprint != w.fingerprint) = true →
            Widget.bears minTokens q.fingerprint w = false := by
          intro q hq
          rw [Widget.bears, beq_false_of_ne (bne_iff_ne.mp hq).symm, Bool.and_false]
        constructor
        · intro q hq
          have hself : Widget.bears minTokens w.fingerprint w = true := by
            simp [Widget.bears, hlong]
          rw [hmoved _ (hother q (List.mem_filter.mp hq).2), Widget.pending, List.findIdx_cons,
            hself, cond_true]
          omega
        · refine (ih.filter _).imp_of_mem fun {p q} hp hq hpq => ?_
          rw [hmoved _ (hother p (List.mem_filter.mp hp).2),
            hmoved _ (hother q (List.mem_filter.mp hq).2)]
          omega
      · rw [List.filter_cons_of_neg (by simpa using hlong)]
        refine ih.imp fun {p q} hpq => ?_
        have hsmall : ∀ f, Widget.bears minTokens f w = false := by
          intro f
          rw [Widget.bears, decide_eq_false hlong, Bool.false_and]
        rw [hmoved _ (hsmall _), hmoved _ (hsmall _)]
        omega

namespace Registry

variable {r r' : Registry}

/-! ## Known shapes stay known -/

theorem Grows.knows (h : Grows r r') (hknown : (r.lookup? f).isSome) : (r'.lookup? f).isSome := by
  obtain ⟨added, hadded⟩ := h.entries
  rw [lookup?, ← hadded, List.find?_append]
  rw [lookup?] at hknown
  rw [Option.isSome_or, hknown, Bool.true_or]

theorem knows_register {id : String} (h : r.register w = some (id, r')) :
    (r'.lookup? w.fingerprint).isSome := by
  rcases register_eq_some.mp h with ⟨_, hfound, _, rfl⟩ | ⟨_, _, rfl⟩
  · rw [hfound, Option.isSome_some]
  · rw [Option.isSome_iff_ne_none, ne_eq, lookup?_push_eq_none]
    exact fun hne => hne.1 rfl

theorem knows_registerAll (h : (r.registerAll ws).1.isSome = true) (hw : w ∈ ws) :
    ((r.registerAll ws).2.lookup? w.fingerprint).isSome := by
  induction ws generalizing r with
  | nil => cases hw
  | cons v ws ih =>
      rw [registerAll] at h ⊢
      cases hv : r.register v with
      | none => rw [hv] at h; cases h
      | some found =>
          rw [hv] at h
          rcases List.mem_cons.mp hw with rfl | hw
          · exact (grows_registerAll found.2 ws).knows (knows_register hv)
          · exact ih (by rwa [Option.isSome_map] at h) hw

theorem knows_commit {b : Buffer} {ids : List String} (h : r.commit b = some (ids, r'))
    (hw : w ∈ b.widgets) : (r'.lookup? w.fingerprint).isSome := by
  rw [commit_eq_registerAll] at h
  obtain ⟨_, hall, heq⟩ := Option.map_eq_some_iff.mp h
  cases heq
  exact knows_registerAll (by rw [hall, Option.isSome_some]) hw

/-! ## What is mined -/

theorem mem_pending_mine {tree : Node} : p ∈ (r.mine tree minTokens).pending ↔
    p ∈ firstOfEach (candidates tree minTokens) ∧
      2 ≤ tree.widgets.countP (Widget.bears minTokens p.fingerprint) ∧
      r.lookup? p.fingerprint = none := by
  simp only [mine, List.mem_filter, countP_candidates, Bool.and_eq_true, decide_eq_true_eq,
    Option.isNone_iff_eq_none]

theorem mem_fingerprints_mine {tree : Node} : f ∈ (r.mine tree minTokens).fingerprints ↔
    2 ≤ tree.widgets.countP (Widget.bears minTokens f) ∧ r.lookup? f = none := by
  constructor
  · intro h
    obtain ⟨p, hp, rfl⟩ := List.mem_map.mp h
    exact (mem_pending_mine.mp hp).2
  · rintro ⟨hcount, hnew⟩
    -- A fingerprint that is counted is one of the candidates'.
    have hmem : f ∈ (candidates tree minTokens).map (·.fingerprint) := by
      have hpos : 0 < (candidates tree minTokens).countP (·.fingerprint == f) := by
        rw [countP_candidates]
        omega
      obtain ⟨p, hp, hf⟩ := List.countP_pos_iff.mp hpos
      exact List.mem_map.mpr ⟨p, hp, beq_iff_eq.mp hf⟩
    obtain ⟨p, hp, rfl⟩ := List.mem_map.mp (mem_fingerprints_firstOfEach.mpr hmem)
    exact List.mem_map.mpr ⟨p, mem_pending_mine.mpr ⟨hp, hcount, hnew⟩, rfl⟩

theorem find?_of_mem_mine {tree : Node} (h : p ∈ (r.mine tree minTokens).pending) :
    tree.widgets.find? (Widget.bears minTokens p.fingerprint) = some p.widget := by
  have hfirst := find?_of_mem_firstOfEach (mem_pending_mine.mp h).1
  rw [find?_candidates] at hfirst
  obtain ⟨w, hw, rfl⟩ := Option.map_eq_some_iff.mp hfirst
  exact hw

theorem pairwise_mine (r : Registry) (tree : Node) (minTokens : Nat) :
    (r.mine tree minTokens).fingerprints.Pairwise fun f g =>
      tree.firstBearing minTokens f < tree.firstBearing minTokens g := by
  refine List.pairwise_map.mpr ((?_ : List.Pairwise _ (firstOfEach _)).filter _)
  rw [candidates_eq]
  exact pairwise_firstOfEach minTokens tree.widgets

/-- Once what was mined is committed, there is nothing left to mine. -/
theorem mine_of_knows {tree : Node} (hgrows : Grows r r')
    (h : ∀ f ∈ (r.mine tree minTokens).fingerprints, (r'.lookup? f).isSome) :
    r'.mine tree minTokens = .empty := by
  have hnone : ∀ p, p ∉ (r'.mine tree minTokens).pending := by
    intro p hp
    obtain ⟨_, hcount, hunknown⟩ := mem_pending_mine.mp hp
    have hnew : r.lookup? p.fingerprint = none := by
      cases hfound : r.lookup? p.fingerprint with
      | none => rfl
      | some entry =>
          have hknown := hgrows.knows (f := p.fingerprint) (by rw [hfound, Option.isSome_some])
          rw [hunknown] at hknown
          cases hknown
    have hknown := h _ (mem_fingerprints_mine.mpr ⟨hcount, hnew⟩)
    rw [hunknown] at hknown
    cases hknown
  exact congrArg Buffer.mk (List.eq_nil_iff_forall_not_mem.mpr hnone)

/-- Mining finds exactly the fingerprints that at least two large enough widgets bear and no pattern
does, each once, in the order of their first widgets and with these. When they are committed, the
same tree has nothing more to mine. -/
theorem mine_exact (r : Registry) (tree : Node) (minTokens : Nat) :
    let mined := r.mine tree minTokens
    mined.fingerprints.Nodup ∧
    (∀ f, f ∈ mined.fingerprints ↔
      2 ≤ tree.widgets.countP (Widget.bears minTokens f) ∧ r.lookup? f = none) ∧
    (mined.fingerprints.Pairwise fun f g =>
      tree.firstBearing minTokens f < tree.firstBearing minTokens g) ∧
    (∀ p ∈ mined.pending,
      tree.widgets.find? (Widget.bears minTokens p.fingerprint) = some p.widget) ∧
    ∀ before ids r' after, (r.run before).commit mined = some (ids, r') →
      (r'.run after).mine tree minTokens = .empty := by
  intro mined
  have hordered := pairwise_mine r tree minTokens
  refine ⟨hordered.imp fun {f g} hlt heq => ?_, fun f => mem_fingerprints_mine, hordered,
    fun p => find?_of_mem_mine, fun before ids r' after hcommit => ?_⟩
  · rw [heq] at hlt
    omega
  · have hgrows := grows_run r' after
    refine mine_of_knows (((grows_run r before).trans (grows_commit hcommit)).trans hgrows) ?_
    intro f hf
    obtain ⟨p, hp, rfl⟩ := List.mem_map.mp hf
    -- The widget bears the fingerprint that waits with it.
    have hwidget : p.fingerprint = p.widget.fingerprint := by
      have hbears := List.find?_some (find?_of_mem_mine hp)
      rw [Widget.bears, Bool.and_eq_true, beq_iff_eq] at hbears
      exact hbears.2.symm
    rw [hwidget]
    exact hgrows.knows (knows_commit hcommit (List.mem_map_of_mem hp))

/-- Two texts of one shape in a row; another pattern is registered before the commit, and one behind
it. -/
theorem mine_exact_texts :
    let text (s : String) : Widget := ⟨"Text", [⟨"data", .scalar (.ident s)⟩], []⟩
    let tree : Node := .widget ⟨"Row", [], [text "a", text "b"]⟩
    let mined := Registry.empty.mine tree 1
    let before := Registry.empty.run [.register (Stock.leaf "Spacer" [])]
    mined.widgets = [text "a"] ∧ ∃ r', before.commit mined = some (["w2"], r') ∧
      (r'.run [.register (Stock.leaf "Divider" [])]).mine tree 1 = .empty := by
  intro text tree mined before
  have hmined : mined.widgets = [text "a"] := by decide +kernel
  have hids : (before.commit mined).map (·.1) = some ["w2"] := by decide +kernel
  obtain ⟨⟨ids, r'⟩, hcommit, rfl⟩ := Option.map_eq_some_iff.mp hids
  obtain ⟨_, _, _, _, hempty⟩ := mine_exact .empty tree 1
  exact ⟨hmined, r', hcommit, hempty _ _ r' _ hcommit⟩

end Registry

end WidgetShorthand
