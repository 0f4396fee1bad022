import WidgetShorthand.Proofs.RoundTrip
import WidgetShorthand.Validation.RoundTrip

/-!
# Written documents can be read

Also where references lose something, a document that was written is read as some tree: the
arguments of a reference are never more than the pattern has slots, they are scalars, and every slot
resolves while the sample is filled. Which tree is read is the echo of `Proofs/Echo`; here it only
matters that there is one, whatever the threshold and however different a widget is from its
pattern.

So a validation always comes down to comparing two trees. Comparing finds differences of many kinds,
one to each kind of node, but it never finds that a document cannot be read.
-/

namespace WidgetShorthand

/-! ## What comparing finds -/

namespace Diff

/-- The difference is one between two trees. -/
def Compares (d : Diff) : Prop :=
  ∀ message, d.difference ≠ .undecodable message

theorem compares_single {path : String} {difference : Difference}
    (h : ∀ message, difference ≠ .undecodable message) :
    ∀ d ∈ [(⟨path, difference⟩ : Diff)], d.Compares := by
  rw [List.forall_mem_singleton]
  exact h

theorem compares_unlessSame {same : Bool} {path : String} {difference : Difference}
    (h : ∀ message, difference ≠ .undecodable message) :
    ∀ d ∈ unlessSame same path difference, d.Compares := by
  unfold unlessSame
  split
  · exact nofun
  · exact compares_single h

theorem compares_lists {α : Type} {path : String} {expected actual : List α} {elements : List Diff}
    (h : ∀ d ∈ elements, d.Compares) : ∀ d ∈ lists path expected actual elements, d.Compares := by
  unfold lists
  split
  · exact h
  · exact compares_single nofun

theorem compares_scalars (path : String) (s t : Scalar) : ∀ d ∈ scalars path s t, d.Compares := by
  unfold scalars
  split
  · exact compares_unlessSame nofun
  · exact compares_unlessSame nofun
  · exact compares_unlessSame nofun
  · exact compares_single nofun

mutual

theorem compares_widgets : (w w' : Widget) → (path : String) →
    ∀ d ∈ widgets path w w', d.Compares
  | ⟨t, ps, cs⟩, ⟨t', ps', cs'⟩, path => by
      rw [widgets]
      split
      · rw [List.forall_mem_append]
        exact ⟨compares_lists (compares_properties ps ps' _ 0),
          compares_lists (compares_children cs cs' _ 0)⟩
      · exact compares_single nofun

theorem compares_properties : (ps ps' : List Property) → (path : String) → (index : Nat) →
    ∀ d ∈ properties path index ps ps', d.Compares
  | [], _, _, _ => by simp [properties]
  | _ :: _, [], _, _ => by simp [properties]
  | ⟨k, v⟩ :: ps, ⟨k', v'⟩ :: ps', path, index => by
      rw [properties, List.forall_mem_append]
      refine ⟨?_, compares_properties ps ps' path (index + 1)⟩
      split
      · exact compares_values v v' _
      · exact compares_single nofun

theorem compares_children : (cs cs' : List Widget) → (path : String) → (index : Nat) →
    ∀ d ∈ children path index cs cs', d.Compares
  | [], _, _, _ => by simp [children]
  | _ :: _, [], _, _ => by simp [children]
  | c :: cs, c' :: cs', path, index => by
      rw [children, List.forall_mem_append]
      exact ⟨compares_widgets c c' _, compares_children cs cs' path (index + 1)⟩

theorem compares_values : (v v' : Value) → (path : String) → ∀ d ∈ values path v v', d.Compares
  | .scalar s, .scalar t, path => by
      rw [values]
      exact compares_scalars path s t
  | .widget w, .widget w', path => by
      rw [values]
      exact compares_widgets w w' path
  | .list vs, .list vs', path => by
      rw [values]
      exact compares_lists (compares_items vs vs' path 0)
  | .scalar _, .widget _, _ | .scalar _, .list _, _ | .widget _, .scalar _, _
  | .widget _, .list _, _ | .list _, .scalar _, _ | .list _, .widget _, _ => by
      simp only [values]
      exact compares_single nofun

theorem compares_items : (vs vs' : List Value) → (path : String) → (index : Nat) →
    ∀ d ∈ items path index vs vs', d.Compares
  | [], _, _, _ => by simp [items]
  | _ :: _, [], _, _ => by simp [items]
  | v :: vs, v' :: vs', path, index => by
      rw [items, List.forall_mem_append]
      exact ⟨compares_values v v' _, compares_items vs vs' path (index + 1)⟩

end

theorem compares_elements {α : Type} {compare : String → α → α → List Diff}
    (h : ∀ path x y, ∀ d ∈ compare path x y, d.Compares) (path : String) :
    ∀ (xs ys : List α) (index : Nat), ∀ d ∈ elements compare path index xs ys, d.Compares := by
  intro xs
  induction xs with
  | nil => intro ys index; simp [elements]
  | cons x xs ih =>
      intro ys index
      cases ys with
      | nil => simp [elements]
      | cons y ys =>
          rw [elements, List.forall_mem_append]
          exact ⟨h _ x y, ih ys (index + 1)⟩

theorem compares_listsWith {α : Type} {compare : String → α → α → List Diff}
    (h : ∀ path x y, ∀ d ∈ compare path x y, d.Compares) (path : String) (xs ys : List α) :
    ∀ d ∈ listsWith compare path xs ys, d.Compares :=
  compares_lists (compares_elements h path xs ys 0)

theorem compares_options (path : String) (v v' : Option Value) :
    ∀ d ∈ options path v v', d.Compares := by
  unfold options
  split
  · exact compares_values _ _ path
  · exact nofun
  · exact compares_single nofun
  · exact compares_single nofun

theorem compares_fields (path : String) (a b : Field) : ∀ d ∈ fields path a b, d.Compares := by
  simp only [fields, List.forall_mem_append]
  exact ⟨⟨⟨compares_unlessSame nofun, compares_unlessSame nofun⟩, compares_unlessSame nofun⟩,
    compares_options _ _ _⟩

theorem compares_params (path : String) (a b : Param) : ∀ d ∈ params path a b, d.Compares := by
  rw [params, List.forall_mem_append]
  exact ⟨compares_unlessSame nofun, compares_unlessSame nofun⟩

theorem compares_statements (path : String) (a b : Statement) :
    ∀ d ∈ statements path a b, d.Compares := by
  rw [statements, List.forall_mem_append]
  exact ⟨compares_unlessSame nofun, compares_options _ _ _⟩

theorem compares_methodBodies (path : String) (a b : MethodBody) :
    ∀ d ∈ methodBodies path a b, d.Compares := by
  unfold methodBodies
  split
  · exact compares_widgets _ _ path
  · exact compares_listsWith compares_statements path _ _
  · exact compares_single nofun

theorem compares_methods (path : String) (a b : Method) : ∀ d ∈ methods path a b, d.Compares := by
  simp only [methods, List.forall_mem_append]
  exact ⟨⟨⟨⟨compares_unlessSame nofun, compares_unlessSame nofun⟩,
    compares_listsWith compares_params _ _ _⟩, compares_unlessSame nofun⟩,
    compares_methodBodies _ _ _⟩

theorem compares_classDecls (path : String) (a b : ClassDecl) :
    ∀ d ∈ classDecls path a b, d.Compares := by
  simp only [classDecls, List.forall_mem_append]
  exact ⟨⟨⟨compares_unlessSame nofun, compares_unlessSame nofun⟩,
    compares_listsWith compares_fields _ _ _⟩, compares_listsWith compares_methods _ _ _⟩

mutual

theorem compares_nodes : (n n' : Node) → (path : String) → ∀ d ∈ nodes path n n', d.Compares
  | .classDecl c, n', path => by
      cases n' with
      | classDecl c' => exact compares_classDecls path c c'
      | _ => exact compares_single nofun
  | .method m, n', path => by
      cases n' with
      | method m' => exact compares_methods path m m'
      | _ => exact compares_single nofun
  | .widget w, n', path => by
      cases n' with
      | widget w' => exact compares_widgets w w' path
      | _ => exact compares_single nofun
  | .literal l, n', path => by
      cases n' with
      | literal l' => exact compares_scalars path (.literal l) (.literal l')
      | _ => exact compares_single nofun
  | .unit ns, n', path => by
      cases n' with
      | unit ns' => exact compares_lists (compares_nodeItems ns ns' path 0)
      | _ => exact compares_single nofun

theorem compares_nodeItems : (ns ns' : List Node) → (path : String) → (index : Nat) →
    ∀ d ∈ nodeItems path index ns ns', d.Compares
  | [], _, _, _ => by simp [nodeItems]
  | _ :: _, [], _, _ => by simp [nodeItems]
  | n :: ns, n' :: ns', path, index => by
      rw [nodeItems, List.forall_mem_append]
      exact ⟨compares_nodes n n' _, compares_nodeItems ns ns' path (index + 1)⟩

end

end Diff

/-! ## Reading what was written -/

/-- Every document that was written is read, and so no validation finds one that cannot be. -/
theorem decode_encode_total {symbols : List Symbol} {tables : Symbols} {registry : Registry}
    (ht : Symbols.ofList symbols = .ok tables) (hr : registry.Reachable) (options : EncodeOptions)
    (tree : Node) :
    (∀ strategy enc, (⟨tables, registry, strategy, options⟩ : Encoder).encode tree = .ok enc →
      ∃ back, (⟨tables, registry, options.maxDepth⟩ : Decoder).decode enc.document = .ok back) ∧
    ∀ strategy thresholds result,
      (⟨tables, registry, strategy, thresholds, options⟩ : Validator).validate tree = .ok result →
        ∀ d ∈ result.diffs, ∀ message, d.difference ≠ .undecodable message := by
  have hread (strategy : Strategy) (options : EncodeOptions) {enc : Encoded}
      (h : (⟨tables, registry, strategy, options⟩ : Encoder).encode tree = .ok enc) :
      ∃ back, (⟨tables, registry, options.maxDepth⟩ : Decoder).decode enc.document = .ok back := by
    have hu := understands_own (e := ⟨tables, registry, strategy, options⟩)
      (Symbols.sound_of_ofList ht) hr.sound
    exact ⟨_, decode_encode hu h⟩
  refine ⟨fun strategy enc h => hread strategy options h, fun strategy thresholds result h => ?_⟩
  obtain ⟨enc, henc, h⟩ := bind_eq_ok.mp h
  obtain ⟨back, hback⟩ := hread _ _ henc
  have hdecode : (⟨tables, registry, strategy, thresholds, options⟩ : Validator).decoder.decode
      enc.document = .ok back := hback
  rw [hdecode] at h
  cases h
  exact Diff.compares_nodes tree back "root"

/-- The arguments of a row with one item, for a pattern with two. -/
theorem decode_encode_row :
    ∃ registry tree enc back result, registry.Reachable ∧
      (⟨.empty, registry, .patternReference, { EncodeOptions.default with
        similarityThreshold := 0.5 }⟩ : Encoder).encode tree = .ok enc ∧
      enc.document = "@w1(2,c)" ∧
      (⟨.empty, registry, EncodeOptions.default.maxDepth⟩ : Decoder).decode enc.document =
        .ok back ∧
      (⟨.empty, registry, some .patternReference, .default, { EncodeOptions.default with
        similarityThreshold := 0.5 }⟩ : Validator).validate tree = .ok result ∧
      result.diffs = [⟨"root.properties.items", .count 1 2⟩] ∧
      ∀ d ∈ result.diffs, ∀ message, d.difference ≠ .undecodable message := by
  let row (gap : String) (items : List Value) : Widget :=
    ⟨"Row", [⟨"gap", .scalar (.number gap)⟩, ⟨"items", .list items⟩], []⟩
  let a : Value := .scalar (.ident "a")
  let registry : Registry := Registry.empty.perform (.register (row "1" [a, a]))
  let tree : Node := .widget (row "2" [.scalar (.ident "c")])
  let options : EncodeOptions := { EncodeOptions.default with similarityThreshold := 0.5 }
  have hr : registry.Reachable := .next _ .empty
  have ht : Symbols.ofList [] = .ok .empty := ok_of_toOption (by decide +kernel)
  have hdocument : ((⟨.empty, registry, .patternReference, options⟩ : Encoder).encode tree).map
      (·.document) = .ok "@w1(2,c)" := ok_of_toOption (by decide +kernel)
  have hdiffs : ((⟨.empty, registry, some .patternReference, .default, options⟩ :
      Validator).validate tree).map (·.diffs) = .ok [⟨"root.properties.items", .count 1 2⟩] :=
    ok_of_toOption (by decide +kernel)
  clear_value registry tree
  obtain ⟨enc, henc, hdocument⟩ := map_eq_ok.mp hdocument
  obtain ⟨result, hresult, hdiffs⟩ := map_eq_ok.mp hdiffs
  obtain ⟨hread, hvalid⟩ := decode_encode_total ht hr options tree
  obtain ⟨back, hback⟩ := hread _ _ henc
  exact ⟨registry, tree, enc, back, result, hr, henc, hdocument, hback, hresult, hdiffs,
    hvalid _ _ _ hresult⟩

end WidgetShorthand
