import WidgetShorthand.Proofs.RegistryRuns
import WidgetShorthand.Strategy.Selection

/-!
# Metrics and the selected strategy

Widgets are listed, nodes counted and nesting measured by separate recursions over a tree. They see
the same widgets: no part of a tree is deeper than it has widgets, none has more widgets than nodes,
and where the nesting is zero there are no widgets at all. `Measured` says this of one part, and the
parts of a tree are put together by its lemmas.

The metrics of a tree agree with one another for that reason, against every registry. A strategy is
selected by two questions, whether enough widgets are registered and whether the tree is large, and
each decides one of the two choices that strategies differ in.
-/

namespace WidgetShorthand

/-! ## Measures of the parts of a tree -/

/-- What holds between the depth, the widgets and the nodes of a part of a tree. -/
structure Measured (depth : Nat) (widgets : List Widget) (nodes : Nat) : Prop where
  deep : depth ≤ widgets.length
  many : widgets.length ≤ nodes
  flat : depth = 0 → widgets = []

namespace Measured

variable {depth depth' nodes nodes' k : Nat} {widgets widgets' : List Widget}

theorem none : Measured 0 [] k :=
  ⟨Nat.le_refl 0, Nat.zero_le k, fun _ => rfl⟩

theorem append (h : Measured depth widgets nodes) (h' : Measured depth' widgets' nodes') :
    Measured (max depth depth') (widgets ++ widgets') (nodes + nodes') where
  deep := by
    have hdeep := h.deep
    have hdeep' := h'.deep
    rw [List.length_append]
    omega
  many := by
    rw [List.length_append]
    exact Nat.add_le_add h.many h'.many
  flat hzero := by
    rw [h.flat (by omega), h'.flat (by omega)]
    rfl

/-- Nodes that are no widgets. -/
theorem more_nodes (h : Measured depth widgets nodes) : Measured depth widgets (k + nodes) :=
  ⟨h.deep, Nat.le_trans h.many (Nat.le_add_left nodes k), h.flat⟩

/-- A widget around what it holds. -/
theorem widget (w : Widget) (h : Measured depth widgets nodes) :
    Measured (1 + depth) (w :: widgets) (1 + nodes) where
  deep := by
    have hdeep := h.deep
    rw [List.length_cons]
    omega
  many := by
    have hmany := h.many
    rw [List.length_cons]
    omega
  flat hzero := by omega

/-- Several parts next to one another. -/
theorem flatMap {α : Type} {xs : List α} {d : α → Nat} {ws : α → List Widget} {n : α → Nat}
    (h : ∀ x ∈ xs, Measured (d x) (ws x) (n x)) :
    Measured (deepest (xs.map d)) (xs.flatMap ws) (total (xs.map n)) := by
  induction xs with
  | nil => exact none
  | cons x xs ih =>
      rw [List.forall_mem_cons] at h
      rw [List.flatMap_cons]
      exact h.1.append (ih h.2)

end Measured

/-! ## Measures of a tree -/

mutual

theorem measured_widget : (w : Widget) → Measured w.depth w.subtrees w.nodeCount
  | ⟨t, ps, cs⟩ => by
      rw [Widget.depth, Widget.subtrees, Widget.nodeCount, Nat.add_assoc]
      exact ((measured_properties ps).append (measured_children cs)).widget _

theorem measured_properties : (ps : List Property) →
    Measured (propertyDepth ps) (propertySubtrees ps) (propertyNodeCount ps)
  | [] => .none
  | ⟨key, v⟩ :: ps => by
      rw [propertyDepth, propertySubtrees, propertyNodeCount]
      exact (measured_value v).more_nodes.append (measured_properties ps)

theorem measured_children : (cs : List Widget) →
    Measured (childDepth cs) (childSubtrees cs) (childNodeCount cs)
  | [] => .none
  | c :: cs => by
      rw [childDepth, childSubtrees, childNodeCount]
      exact (measured_widget c).append (measured_children cs)

theorem measured_value : (v : Value) → Measured v.depth v.subtrees v.nodeCount
  | .scalar s => .none
  | .widget w => by
      rw [Value.depth, Value.subtrees, Value.nodeCount]
      exact measured_widget w
  | .list items => by
      rw [Value.depth, Value.subtrees, Value.nodeCount]
      exact (measured_items items).more_nodes

theorem measured_items : (items : List Value) →
    Measured (itemDepth items) (itemSubtrees items) (itemNodeCount items)
  | [] => .none
  | v :: vs => by
      rw [itemDepth, itemSubtrees, itemNodeCount]
      exact (measured_value v).append (measured_items vs)

end

theorem measured_option (v : Option Value) :
    Measured (optionDepth v) (optionSubtrees v) (optionNodeCount v) := by
  cases v with
  | none => exact .none
  | some v => exact measured_value v

theorem measured_methodBody (b : MethodBody) : Measured b.depth b.subtrees b.nodeCount := by
  cases b with
  | widget w => exact measured_widget w
  | statements block => exact .flatMap fun s _ => (measured_option s.value).more_nodes

theorem measured_method (m : Method) : Measured m.body.depth m.body.subtrees m.nodeCount :=
  (measured_methodBody m.body).more_nodes

theorem measured_classDecl (c : ClassDecl) : Measured c.depth c.subtrees c.nodeCount := by
  rw [ClassDecl.nodeCount, Nat.add_assoc]
  refine Measured.more_nodes (.append ?fields ?methods)
  case fields => exact .flatMap fun f _ => (measured_option f.initializer).more_nodes
  case methods => exact .flatMap fun m _ => measured_method m

mutual

theorem measured_node : (n : Node) → Measured n.depth n.widgets n.nodeCount
  | .classDecl c => by
      rw [Node.depth, Node.widgets, Node.nodeCount]
      exact measured_classDecl c
  | .method m => by
      rw [Node.depth, Node.widgets, Node.nodeCount]
      exact measured_method m
  | .widget w => by
      rw [Node.depth, Node.widgets, Node.nodeCount]
      exact measured_widget w
  | .literal l => .none
  | .unit items => by
      rw [Node.depth, Node.widgets, Node.nodeCount]
      exact measured_nodes items

theorem measured_nodes : (ns : List Node) →
    Measured (nodeListDepth ns) (nodeWidgets ns) (nodeListCount ns)
  | [] => .none
  | n :: ns => by
      rw [nodeListDepth, nodeWidgets, nodeListCount]
      exact (measured_node n).append (measured_nodes ns)

end

/-! ## Metrics -/

namespace Metrics

/-- Where counts are added up, the ones above one count at least twice. -/
theorem two_mul_countP_le {α : Type} (f : α → Nat) (xs : List α) :
    2 * xs.countP (fun x => 1 < f x) ≤ total (xs.map f) := by
  induction xs with
  | nil => exact Nat.le_refl 0
  | cons x xs ih =>
      show _ ≤ f x + total (xs.map f)
      rw [List.countP_cons]
      by_cases hx : 1 < f x
      · simp only [hx, decide_true, if_true]
        omega
      · simp only [hx, decide_false, Bool.false_eq_true, if_false]
        omega

theorem countRepeated_eq (names : List String) :
    countRepeated names = (Text.tally names).countP fun entry => 1 < entry.2 := by
  rw [Text.tally, List.countP_map, (List.mergeSort_perm _ _).countP_eq]
  rfl

/-- Each name that occurs more than once occurs at least twice. -/
theorem two_mul_countRepeated_le (names : List String) :
    2 * countRepeated names ≤ names.length := by
  rw [countRepeated_eq, ← Text.total_tally names]
  exact two_mul_countP_le _ _

/-- What holds between the measurements of one tree. -/
structure Consistent (m : Metrics) : Prop where
  hits : m.registryHits ≤ m.subtreeCount
  frequencies : total (m.widgetFrequency.map (·.2)) = m.subtreeCount
  repeated : 2 * m.repeatedSubtrees ≤ m.subtreeCount
  depth_le : m.maxDepth ≤ m.subtreeCount
  subtrees_le : m.subtreeCount ≤ m.nodeCount
  depth_eq_zero : m.maxDepth = 0 ↔ m.subtreeCount = 0

theorem consistent_ofTree (tree : Node) (r : Registry) : (ofTree tree r).Consistent where
  hits := by
    show List.countP _ (tree.widgets.map Widget.fingerprint) ≤ tree.widgets.length
    rw [← List.length_map (f := Widget.fingerprint)]
    exact List.countP_le_length
  frequencies := by
    show total ((Text.tally (tree.widgets.map (·.typeName))).map (·.2)) = tree.widgets.length
    rw [Text.total_tally, List.length_map]
  repeated := by
    show 2 * countRepeated (tree.widgets.map Widget.fingerprint) ≤ tree.widgets.length
    rw [← List.length_map (f := Widget.fingerprint)]
    exact two_mul_countRepeated_le _
  depth_le := (measured_node tree).deep
  subtrees_le := (measured_node tree).many
  depth_eq_zero := by
    have hmeasured := measured_node tree
    show tree.depth = 0 ↔ tree.widgets.length = 0
    constructor
    · intro hzero
      rw [hmeasured.flat hzero]
      rfl
    · intro hzero
      have hdeep := hmeasured.deep
      omega

end Metrics

/-! ## Selection -/

namespace Thresholds

variable (t : Thresholds) (m : Metrics)

theorem usesPatterns_decide : (t.decide m).1.usesPatterns = true ↔
    0 < m.subtreeCount ∧ t.patternHitRatio ≤ m.hitRatio := by
  unfold decide
  by_cases hnone : m.subtreeCount = 0
  · simp [hnone, Strategy.usesPatterns]
  · have hpos : 0 < m.subtreeCount := Nat.pos_of_ne_zero hnone
    rw [if_neg hnone]
    by_cases hhits : t.patternHitRatio ≤ m.hitRatio
    · cases t.isLarge m <;> simp [hhits, hpos, Strategy.usesPatterns]
    · cases t.isLargeByNodes m <;> cases t.isLargeByDepth m <;>
        simp [hhits, Strategy.usesPatterns]

theorem elidesLayout_decide : (t.decide m).1.elidesLayout = true ↔
    0 < m.subtreeCount ∧
      (t.aggressiveMinNodes ≤ m.nodeCount ∨ t.deepTreeDepth ≤ m.maxDepth) := by
  have hlarge : (t.aggressiveMinNodes ≤ m.nodeCount ∨ t.deepTreeDepth ≤ m.maxDepth) ↔
      (t.isLargeByNodes m || t.isLargeByDepth m) = true := by
    simp [isLargeByNodes, isLargeByDepth]
  rw [hlarge]
  unfold decide isLarge
  by_cases hnone : m.subtreeCount = 0
  · simp [hnone, Strategy.elidesLayout]
  · have hpos : 0 < m.subtreeCount := Nat.pos_of_ne_zero hnone
    rw [if_neg hnone]
    by_cases hhits : t.patternHitRatio ≤ m.hitRatio
    · cases t.isLargeByNodes m <;> cases t.isLargeByDepth m <;>
        simp [hhits, hpos, Strategy.elidesLayout]
    · cases t.isLargeByNodes m <;> cases t.isLargeByDepth m <;>
        simp [hhits, hpos, Strategy.elidesLayout]

/-- The metrics of a tree agree with one another. The strategy that is selected by them refers to
patterns exactly if there are widgets and enough of them are registered, and leaves layout out
exactly if there are widgets and the tree is large, by its nodes or by its depth. -/
theorem select_by_metrics (tree : Node) (r : Registry) :
    let m := Metrics.ofTree tree r
    let strategy := (t.select tree r).strategy
    m.Consistent ∧
      (strategy.usesPatterns = true ↔
        0 < m.subtreeCount ∧ t.patternHitRatio ≤ m.hitRatio) ∧
      (strategy.elidesLayout = true ↔
        0 < m.subtreeCount ∧
          (t.aggressiveMinNodes ≤ m.nodeCount ∨ t.deepTreeDepth ≤ m.maxDepth)) := by
  intro m strategy
  exact ⟨Metrics.consistent_ofTree tree r, t.usesPatterns_decide m, t.elidesLayout_decide m⟩

end Thresholds

end WidgetShorthand
