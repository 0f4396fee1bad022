import WidgetShorthand.Codec
import WidgetShorthand.Proofs.RoundTrip

/-!
# Codecs that are shared

Several clients may use one codec at a time. Registering is one step for all of them, but
compressing takes two: a tree is written with the registry as it is, and later the patterns that
were found are committed to the registry as it is by then. Anything may happen in between, the
registration of the same shapes and of the ids that were to be minted included. A commit that lacks
a number for an id ends its compression without an answer.

What makes documents readable for ever is said by `Written`: a document was written with a registry
that the present one has grown from. Growing keeps this, and reading needs no more.
-/

namespace WidgetShorthand

/-- The widgets that a call offers for registration. -/
def Registration.widgets : Registration → List Widget
  | .register w => [w]
  | .registerAs _ w _ => [w]
  | .commit b => b.widgets

/-- A compression between its two halves. -/
structure Started where
  tree : Node
  encoded : Encoded

/-- A compression that is over. -/
structure Answered where
  tree : Node
  answer : Except EncodeError Compression

/-- A codec with the compressions that are under way, and all the answers so far. -/
structure Session where
  codec : Codec
  started : List Started
  answered : List Answered

/-- What a client can do next. -/
inductive Action where
  | register (call : Registration)
  /-- The first half of compressing a tree. -/
  | start (tree : Node)
  /-- The second half, for any one of the compressions that are under way. -/
  | finish (i : Nat)

/-- The widgets that an action brings in. -/
def Action.widgets : Action → List Widget
  | .register call => call.widgets
  | .start tree => tree.widgets
  | .finish _ => []

namespace Session

/-- A codec that nobody has used yet. -/
def new (c : Codec) : Session :=
  ⟨c, [], []⟩

def step (s : Session) : Action → Session
  | .register call =>
    { s with codec := { s.codec with registry := s.codec.registry.perform call } }
  | .start tree =>
    match s.codec.write tree with
    | .ok encoded => { s with started := s.started ++ [⟨tree, encoded⟩] }
    | .error e => { s with answered := s.answered ++ [⟨tree, .error e⟩] }
  | .finish i =>
    match s.started[i]? with
    | some call =>
      let left := { s with started := s.started.eraseIdx i }
      match s.codec.finish call.tree call.encoded with
      | some (compression, codec) =>
        { left with codec, answered := s.answered ++ [⟨call.tree, .ok compression⟩] }
      | none => left
    | none => s

def run (s : Session) (actions : List Action) : Session :=
  actions.foldl step s

theorem run_append (s : Session) (before after : List Action) :
    s.run (before ++ after) = (s.run before).run after :=
  List.foldl_append

/-- A compression whose halves follow each other at once is `Codec.compress`. -/
theorem run_start_finish {s : Session} {tree : Node} {compression : Compression} {c : Codec}
    (h : s.codec.compress tree = .ok (some (compression, c))) :
    s.run [.start tree, .finish s.started.length] =
      ⟨c, s.started, s.answered ++ [⟨tree, .ok compression⟩]⟩ := by
  obtain ⟨encoded, hencoded, hfinish⟩ := map_eq_ok.mp h
  have hstart : s.step (.start tree) = { s with started := s.started ++ [⟨tree, encoded⟩] } := by
    rw [step, hencoded]
  have hget : (s.started ++ [⟨tree, encoded⟩])[s.started.length]? = some ⟨tree, encoded⟩ :=
    List.getElem?_concat_length
  have herase (call : Started) : (s.started ++ [call]).eraseIdx s.started.length = s.started := by
    rw [List.eraseIdx_append_of_length_le (Nat.le_refl _), Nat.sub_self, List.eraseIdx_cons_zero,
      List.append_nil]
  rw [run, List.foldl_cons, List.foldl_cons, List.foldl_nil, hstart, step]
  simp only [hget, herase, hfinish]

end Session

/-! ## Samples come from the clients -/

namespace Registry

variable {r r' : Registry} {sample : Widget}

theorem samples_push (r : Registry) (entry : Entry) :
    (r.push entry).samples = r.samples ++ [entry.sample] := by
  rw [samples, entries_push, List.map_append, List.map_singleton, samples]

theorem samples_of_grows (h : r.Grows r') : r.samples <+: r'.samples :=
  h.entries.map _

theorem mem_samples_register {w : Widget} {id : String} (h : r.register w = some (id, r'))
    (hsample : sample ∈ r'.samples) : sample ∈ r.samples ∨ sample = w := by
  rcases register_eq_some.mp h with ⟨_, _, _, rfl⟩ | ⟨_, _, rfl⟩
  · exact .inl hsample
  · rw [samples_push] at hsample
    exact List.mem_append.mp hsample |>.imp_right List.mem_singleton.mp

theorem mem_samples_registerAs {w : Widget} {id : String} {about : Description}
    (h : r.registerAs id w about = .ok r') (hsample : sample ∈ r'.samples) :
    sample ∈ r.samples ∨ sample = w := by
  unfold registerAs at h
  split at h
  · cases h
  · split at h
    · cases h
    · split at h <;> cases h
      rw [samples_push] at hsample
      exact List.mem_append.mp hsample |>.imp_right List.mem_singleton.mp

theorem mem_samples_commit {b : Buffer} {ids : List String} (h : r.commit b = some (ids, r')) :
    sample ∈ r'.samples → sample ∈ r.samples ∨ sample ∈ b.widgets := by
  refine commit_induction (P := fun r' => sample ∈ r'.samples → _) ?_ h .inl
  intro w hw r₁ id r₂ hbefore hregister hsample
  rcases mem_samples_register hregister hsample with hold | rfl
  · exact hbefore hold
  · exact .inr hw

theorem mem_samples_perform {call : Registration} (h : sample ∈ (r.perform call).samples) :
    sample ∈ r.samples ∨ sample ∈ call.widgets := by
  rcases r.perform_cases call with hkept | ⟨w, id, rfl, hw⟩ | ⟨id, w, about, rfl, hw⟩ |
    ⟨b, ids, rfl, hb⟩
  · exact .inl (hkept ▸ h)
  · exact (mem_samples_register hw h).imp_right List.mem_singleton.mpr
  · exact (mem_samples_registerAs hw h).imp_right List.mem_singleton.mpr
  · exact mem_samples_commit hb h

theorem mem_of_mem_firstOfEach {ps : List Pending} {p : Pending} (h : p ∈ firstOfEach ps) :
    p ∈ ps := by
  induction ps with
  | nil => cases h
  | cons q ps ih =>
      rw [firstOfEach, List.mem_cons] at h
      rcases h with rfl | h
      · exact List.mem_cons_self
      · exact List.mem_cons_of_mem q (ih (List.mem_filter.mp h).1)

/-- Mining finds widgets of the tree. -/
theorem mem_widgets_of_mem_mine {tree : Node} {minTokens : Nat} {w : Widget}
    (h : w ∈ (r.mine tree minTokens).widgets) : w ∈ tree.widgets := by
  obtain ⟨p, hp, rfl⟩ := List.mem_map.mp h
  have hfound := mem_of_mem_firstOfEach (List.mem_filter.mp hp).1
  obtain ⟨w, hw, heq⟩ := List.mem_filterMap.mp hfound
  dsimp only at heq
  split at heq
  · cases heq
  · cases heq
    exact hw

end Registry

/-! ## Documents that stay readable -/

namespace Codec

/-- A tree was written with a registry that has grown into the present one. -/
def Written (c : Codec) (tree : Node) (encoded : Encoded) : Prop :=
  ∃ registry strategy, registry.Sound ∧ registry.Grows c.registry ∧
    (⟨c.symbols, registry, strategy, c.config.encodeOptions⟩ : Encoder).encode tree = .ok encoded

variable {c : Codec} {tree : Node} {encoded : Encoded} {ws : List Widget}

theorem written_of_write (hr : c.registry.Sound) (h : c.write tree = .ok encoded) :
    c.Written tree encoded :=
  ⟨c.registry, (c.selectStrategy tree).strategy, hr, .refl _, h⟩

theorem Written.grow {r : Registry} (h : c.Written tree encoded) (hg : c.registry.Grows r) :
    ({ c with registry := r } : Codec).Written tree encoded := by
  obtain ⟨registry, strategy, hr, hgrows, hencode⟩ := h
  exact ⟨registry, strategy, hr, hgrows.trans hg, hencode⟩

theorem Written.minted (h : c.Written tree encoded) :
    ∀ w ∈ encoded.minted.widgets, w ∈ tree.widgets := by
  obtain ⟨registry, strategy, _, _, hencode⟩ := h
  obtain ⟨f, _, rfl⟩ := map_eq_ok.mp hencode
  dsimp only
  split
  · exact fun w => Registry.mem_widgets_of_mem_mine
  · nofun

/-- The arguments fill the pattern that the writer meant, whatever was registered since. -/
theorem Written.decompress (h : c.Written tree encoded) (ht : c.symbols.Sound)
    (hthreshold : 1.0 ≤ c.config.similarityThreshold) (hws : Discernible ws)
    (htree : ∀ w ∈ tree.widgets, w ∈ ws) (hsamples : ∀ w ∈ c.registry.samples, w ∈ ws) :
    c.decompress encoded.document = .ok tree := by
  obtain ⟨registry, strategy, hr, hgrows, hencode⟩ := h
  have hu : Understands c.decoder ⟨c.symbols, registry, strategy, c.config.encodeOptions⟩
      Entry.filled := understands_later rfl ht rfl hr hgrows
  -- Which pattern matched was decided by the older registry, so its samples count.
  have hsubset := (Registry.samples_of_grows hgrows).subset
  refine (decode_encode hu hencode).trans (congrArg Except.ok (Encoder.echo_eq_self fun w hw => ?_))
  exact keeps_of_exact hr hthreshold hws (htree w hw) fun sample h => hsamples sample (hsubset h)

end Codec

/-! ## Every step keeps them readable -/

namespace Session

/-- All that is ever known about a session in which only certain widgets occur. -/
structure Sound (ws : List Widget) (s : Session) : Prop where
  registry : s.codec.registry.Sound
  samples : ∀ w ∈ s.codec.registry.samples, w ∈ ws
  started : ∀ call ∈ s.started, s.codec.Written call.tree call.encoded ∧
    ∀ w ∈ call.tree.widgets, w ∈ ws
  answered : ∀ tree compression, ⟨tree, .ok compression⟩ ∈ s.answered →
    ∃ encoded, s.codec.Written tree encoded ∧ encoded.document = compression.output ∧
      ∀ w ∈ tree.widgets, w ∈ ws

variable {ws : List Widget} {s : Session}

theorem Sound.new {c : Codec} (hr : c.registry.Sound) (hws : ∀ w ∈ c.registry.samples, w ∈ ws) :
    (Session.new c).Sound ws :=
  ⟨hr, hws, nofun, nofun⟩

/-- A second half commits what the first one found, and answers; or it only takes the compression
from those that are under way; or there is none to finish. -/
theorem step_finish_cases (s : Session) (i : Nat) :
    (∃ call ids r compression, s.started[i]? = some call ∧
      s.codec.registry.commit call.encoded.minted = some (ids, r) ∧
      compression.output = call.encoded.document ∧
      s.step (.finish i) = ⟨{ s.codec with registry := r }, s.started.eraseIdx i,
        s.answered ++ [⟨call.tree, .ok compression⟩]⟩) ∨
    s.step (.finish i) = { s with started := s.started.eraseIdx i } ∨ s.step (.finish i) = s := by
  simp only [step]
  split
  · next call hget =>
      split
      · next compression c hfinish =>
          obtain ⟨⟨ids, r⟩, hcommit, heq⟩ := Option.map_eq_some_iff.mp hfinish
          cases heq
          exact .inl ⟨call, ids, r, _, hget, hcommit, rfl, rfl⟩
      · exact .inr (.inl rfl)
  · exact .inr (.inr rfl)

/-- Nothing but the registry of a codec ever changes, and it only grows. -/
theorem step_codec (s : Session) (next : Action) :
    ∃ r, s.codec.registry.Grows r ∧ (s.step next).codec = { s.codec with registry := r } := by
  cases next with
  | register call => exact ⟨_, Registry.grows_perform _ call, rfl⟩
  | start tree =>
      refine ⟨_, .refl _, ?_⟩
      simp only [step]
      split <;> rfl
  | finish i =>
      rcases s.step_finish_cases i with ⟨_, _, r, _, _, hcommit, _, heq⟩ | heq | heq
      · exact ⟨r, Registry.grows_commit hcommit, by rw [heq]⟩
      · exact ⟨_, .refl _, by rw [heq]⟩
      · exact ⟨_, .refl _, by rw [heq]⟩

/-- Patterns may be added as long as their samples are known. -/
theorem Sound.grow {r : Registry} (hs : s.Sound ws) (hg : s.codec.registry.Grows r)
    (hr : ∀ w ∈ r.samples, w ∈ ws) :
    ({ s with codec := { s.codec with registry := r } } : Session).Sound ws where
  registry := hg.sound hs.registry
  samples := hr
  started call h := ⟨(hs.started call h).1.grow hg, (hs.started call h).2⟩
  answered tree compression h := by
    obtain ⟨encoded, hwritten, hdocument⟩ := hs.answered tree compression h
    exact ⟨encoded, hwritten.grow hg, hdocument⟩

theorem Sound.start (hs : s.Sound ws) {tree : Node} (htree : ∀ w ∈ tree.widgets, w ∈ ws) :
    (s.step (.start tree)).Sound ws := by
  simp only [Session.step]
  split
  · next encoded hwrite =>
      refine { hs with started := fun call h => ?_ }
      rcases List.mem_append.mp h with h | h
      · exact hs.started call h
      · cases List.mem_singleton.mp h
        exact ⟨Codec.written_of_write hs.registry hwrite, htree⟩
  · refine { hs with answered := fun tree' compression h => ?_ }
    rcases List.mem_append.mp h with h | h
    · exact hs.answered tree' compression h
    · cases List.mem_singleton.mp h

theorem Sound.finish (hs : s.Sound ws) (i : Nat) : (s.step (.finish i)).Sound ws := by
  rcases s.step_finish_cases i with ⟨call, ids, r, compression, hget, hcommit, houtput, heq⟩ |
    heq | heq <;> rw [heq]
  · obtain ⟨hwritten, htree⟩ := hs.started call (List.mem_of_getElem? hget)
    have hgrows := Registry.grows_commit hcommit
    have hlater := hs.grow hgrows fun w hw =>
      (Registry.mem_samples_commit hcommit hw).elim (hs.samples w) fun hw =>
        htree w (hwritten.minted w hw)
    refine ⟨hlater.registry, hlater.samples, fun call' h => ?_, fun tree compression' h => ?_⟩
    · exact hlater.started call' (List.mem_of_mem_eraseIdx h)
    · rcases List.mem_append.mp h with h | h
      · exact hlater.answered tree compression' h
      · cases List.mem_singleton.mp h
        exact ⟨call.encoded, hwritten.grow hgrows, houtput.symm, htree⟩
  · exact { hs with started := fun call h => hs.started call (List.mem_of_mem_eraseIdx h) }
  · exact hs

theorem Sound.step (hs : s.Sound ws) {next : Action} (hnext : ∀ w ∈ next.widgets, w ∈ ws) :
    (s.step next).Sound ws := by
  cases next with
  | register call =>
      refine hs.grow (Registry.grows_perform _ call) fun w hw => ?_
      exact (Registry.mem_samples_perform hw).elim (hs.samples w) (hnext w)
  | start tree => exact hs.start hnext
  | finish i => exact hs.finish i

theorem Sound.run (hs : s.Sound ws) {actions : List Action}
    (h : ∀ next ∈ actions, ∀ w ∈ next.widgets, w ∈ ws) : (s.run actions).Sound ws := by
  induction actions generalizing s with
  | nil => exact hs
  | cons next actions ih =>
      rw [List.forall_mem_cons] at h
      exact ih (hs.step h.1) h.2

theorem run_codec (s : Session) (actions : List Action) :
    ∃ r, s.codec.registry.Grows r ∧ (s.run actions).codec = { s.codec with registry := r } := by
  induction actions generalizing s with
  | nil => exact ⟨_, .refl _, rfl⟩
  | cons next actions ih =>
      obtain ⟨r, hgrows, hcodec⟩ := s.step_codec next
      obtain ⟨r', hgrows', hcodec'⟩ := ih (s.step next)
      rw [hcodec] at hgrows' hcodec'
      exact ⟨r', hgrows.trans hgrows', hcodec'⟩

theorem answered_run {answer : Answered} (h : answer ∈ s.answered) (actions : List Action) :
    answer ∈ (s.run actions).answered := by
  induction actions generalizing s with
  | nil => exact h
  | cons next actions ih =>
      refine ih ?_
      cases next with
      | register call => exact h
      | start tree =>
          simp only [Session.step]
          split
          · exact h
          · exact List.mem_append_left _ h
      | finish i =>
          rcases s.step_finish_cases i with ⟨_, _, _, _, _, _, _, heq⟩ | heq | heq <;> rw [heq]
          · exact List.mem_append_left _ h
          · exact h
          · exact h

/-- An error is the answer of a first half, and nothing has happened by then. -/
theorem codec_of_answered_error {next : Action} {tree : Node} {e : EncodeError}
    (h : (s.step next).answered = s.answered ++ [⟨tree, .error e⟩]) :
    (s.step next).codec = s.codec := by
  have hnone : s.answered ≠ s.answered ++ [⟨tree, .error e⟩] := by simp
  cases next with
  | register call => exact absurd h hnone
  | start tree =>
      simp only [Session.step]
      split <;> rfl
  | finish i =>
      rcases s.step_finish_cases i with ⟨_, _, _, _, _, _, _, heq⟩ | heq | heq <;> rw [heq] at h
      · cases List.singleton_injective (List.append_cancel_left h)
      · exact absurd h hnone
      · exact absurd h hnone

end Session

/-- With a threshold of one, what was answered is read back as it was at any later time, and an
error leaves the codec as it is. -/
theorem decompress_answered {symbols : List Symbol} {c : Codec} {before after : List Action}
    (ht : Symbols.ofList symbols = .ok c.symbols) (hr : c.registry.Reachable)
    (hthreshold : c.config.similarityThreshold = 1.0)
    (hws : Discernible (c.registry.samples ++ (before ++ after).flatMap Action.widgets)) :
    (∀ tree compression, ⟨tree, .ok compression⟩ ∈ ((Session.new c).run before).answered →
      (((Session.new c).run before).run after).codec.decompress compression.output = .ok tree) ∧
    ∀ next tree e, (((Session.new c).run before).step next).answered =
        ((Session.new c).run before).answered ++ [⟨tree, .error e⟩] →
      (((Session.new c).run before).step next).codec = ((Session.new c).run before).codec := by
  refine ⟨fun tree compression h => ?_, fun next tree e h => Session.codec_of_answered_error h⟩
  have hnew : (Session.new c).Sound
    (c.registry.samples ++ (before ++ after).flatMap Action.widgets) :=
    .new hr.sound fun w hw => List.mem_append_left _ hw
  have hlater := hnew.run fun next hnext w hw =>
    List.mem_append_right _ (List.mem_flatMap.mpr ⟨next, hnext, hw⟩)
  obtain ⟨r, _, hcodec⟩ := (Session.new c).run_codec (before ++ after)
  rw [Session.run_append] at hlater hcodec
  obtain ⟨encoded, hwritten, hdocument, htree⟩ :=
    hlater.answered tree compression (Session.answered_run h after)
  rw [← hdocument]
  refine hwritten.decompress ?_ ?_ hws htree hlater.samples
  · rw [hcodec]
    exact Symbols.sound_of_ofList ht
  · rw [hcodec]
    show 1.0 ≤ c.config.similarityThreshold
    rw [hthreshold]
    decide +kernel

/-- Two clients find the same shape at the same time. -/
theorem decompress_answered_texts :
    ∃ c before after, c.registry.Reachable ∧
      Discernible (c.registry.samples ++ (before ++ after).flatMap Action.widgets) ∧
      ((Session.new c).run before).answered.map (·.answer.toOption.map (·.output)) =
        [some "u:!Text{data:a}|!Text{data:b}", some "@w1(c)"] ∧
      ∀ tree compression, ⟨tree, .ok compression⟩ ∈ ((Session.new c).run before).answered →
        (((Session.new c).run before).run after).codec.decompress compression.output =
          .ok tree := by
  let text (s : String) : Widget := ⟨"Text", [⟨"data", .scalar (.ident s)⟩], []⟩
  let c : Codec :=
    ⟨.empty, .empty, { Config.default with strategy := some .hybrid, registerPatterns := true }⟩
  let before : List Action :=
    [.start (.unit [.widget (text "a"), .widget (text "b")]), .register (.register (text "d")),
      .finish 0, .start (.widget (text "c")), .finish 0]
  let after : List Action := [.register (.registerAs "w9" (text "e") .default)]
  have hws : Discernible (c.registry.samples ++ (before ++ after).flatMap Action.widgets) := by
    have htext : ∀ w ∈ c.registry.samples ++ (before ++ after).flatMap Action.widgets,
        w.hashedText = (text "a").hashedText := by decide +kernel
    refine ⟨by decide +kernel, fun w hw w' hw' _ => ?_⟩
    rw [htext w hw, htext w' hw']
  have ht : Symbols.ofList [] = .ok c.symbols := ok_of_toOption (by decide +kernel)
  have houtputs : ((Session.new c).run before).answered.map (·.answer.toOption.map (·.output)) =
      [some "u:!Text{data:a}|!Text{data:b}", some "@w1(c)"] := by decide +kernel
  exact ⟨c, before, after, .empty, hws, houtputs, (decompress_answered ht .empty rfl hws).1⟩

end WidgetShorthand
