import MiniDiscord.Sfu.KeyframeGating

/-! # Subscriptions start on a layer

`handleOnTrack` puts a track into the publisher's map before it adds the first layer. A
subscriber created by calls that read the track in between has no layer to wait for, and no
codec; every other one waits for a layer and has the codec of one.
-/
namespace MiniDiscord.SfuForwarding
open SfuRoom SfuTrack Transition
variable {s s' : State} {e : Event} {u : UserID} {t : CallID}

/-- The first layer has been added when a subscription resolves its own. -/
def HasLayer (s : State) : Event → Prop
  | .newSubscriber _ _ _ _ => s.track.layers.keys.Nonempty
  | _ => True

instance (s : State) (e : Event) : Decidable (HasLayer s e) := by
  cases e <;> unfold HasLayer <;> infer_instance

/-- A codec that the publisher's `OnTrack` has delivered for this track. -/
def Delivered (es : List Event) (codec : String) : Prop := ∃ rid, Event.onTrack rid codec ∈ es

theorem Delivered.mono {es fs : List Event} {codec : String} (h : Delivered es codec) :
    Delivered (es ++ fs) codec := by
  obtain ⟨rid,hr⟩ := h
  exact ⟨rid,List.mem_append_left _ hr⟩

/-- What a subscription under way has read of the track. -/
def Read (es : List Event) (layers : Finset RID) : Call → Prop
  | .newSubscriber _ _ target => target ∈ layers
  | .insertSubscriber _ _ target codec => target ∈ layers ∧ Delivered es codec
  | _ => True

theorem Read.mono {es fs : List Event} {layers layers' : Finset RID} {c : Call}
    (h : Read es layers c) (hl : layers ⊆ layers') : Read (es ++ fs) layers' c := by
  cases c with
  | newSubscriber => exact hl h
  | insertSubscriber => exact ⟨hl h.1,h.2.mono⟩
  | _ => trivial

/-- What the events so far have brought, and what the calls have read of it. -/
structure Real (es : List Event) (s : State) : Prop where
  adding : ∀ rid codec, s.adding = some (rid,codec) → Delivered es codec
  layers : ∀ rid codec, s.track.layers.lookup rid = some codec → Delivered es codec
  calls : ∀ t, Read es s.track.layers.keys (s.calls t)

theorem Real.mono {es : List Event} (h : Real es s) : Real (es ++ [e]) s where
  adding rid codec ha := (h.adding rid codec ha).mono
  layers rid codec hl := (h.layers rid codec hl).mono
  calls t := (h.calls t).mono subset_rfl

/-- The calls but one are where they were. -/
theorem Real.setCall {es : List Event} {s₁ : State} {c : Call} (h : Real es s)
    (ha : s₁.adding = s.adding) (hcalls : s₁.calls = s.calls) (hl : s₁.track.layers = s.track.layers)
    (hc : Read es s.track.layers.keys c) : Real es (s₁.setCall t c) where
  adding rid codec h₁ := h.adding rid codec (ha ▸ h₁)
  layers rid codec h₁ := by
    rw [setCall_track,hl] at h₁
    exact h.layers rid codec h₁
  calls t' := by
    rw [setCall_calls,setCall_track,hl,hcalls]
    split
    · exact hc
    · exact h.calls t'

theorem Real.step {es : List Event} (h : Real es s) (hon : HasLayer s e) (he : step s e = some s') :
    Real (es ++ [e]) s' := by
  have hnow : Real (es ++ [e]) s := h.mono
  cases step_view he with
  | @onTrack rid codec hn ha =>
    refine ⟨fun r c h₁ => ?_,hnow.layers,hnow.calls⟩
    cases h₁
    exact ⟨rid,List.mem_append_right _ (List.mem_singleton.mpr rfl)⟩
  | @addLayer rid codec hc =>
    refine ⟨nofun,fun r c h₁ => ?_,fun t => ?_⟩
    · simp only [PublishedTrack.addLayer] at h₁
      rw [GoMap.lookup_insert_eq] at h₁
      split at h₁
      · cases h₁
        exact hnow.adding rid _ hc
      · exact hnow.layers r c h₁
    · refine (h.calls t).mono ?_
      simp only [PublishedTrack.addLayer, GoMap.keys_insert]
      exact Finset.subset_insert _ _
  | @newSubscriber t u q first hi hp hn hq hy =>
    exact hnow.setCall rfl rfl rfl (resolveRID_mem_of_nonempty hon hy)
  | @codecCapability t first u q target hc hy =>
    -- the layer that was resolved is still there, so there is one to read the codec of
    have htarget : target ∈ s.track.layers.keys := by
      have hr := h.calls t
      rwa [hc] at hr
    have hne : GoMap.isEmpty s.track.layers = false := by
      simpa [GoMap.isEmpty] using Finset.ne_empty_of_mem htarget
    have hf : first ∈ s.track.layers.keys := by
      simpa [PublishedTrack.yields, hne, Finmap.mem_keys] using hy
    obtain ⟨codec,hcodec⟩ := (GoMap.mem_keys_iff _ _).mp hf
    refine hnow.setCall rfl rfl rfl ⟨htarget,?_⟩
    rw [PublishedTrack.codecCapability,hcodec]
    exact hnow.layers first codec hcodec
  | unchanged => exact hnow
  | forward =>
    exact hnow.setCall (forward_adding ..) (forward_calls ..) (forward_layers ..) trivial
  | _ => exact hnow.setCall rfl rfl rfl trivial

variable {userID : UserID} {source : Source} {kind : RTPCodecType} {owner : SessionID}

theorem real_init : Real [] (init userID source kind owner) where
  adding _ _ h := by cases h
  layers _ _ h := by cases h
  calls _ := trivial

theorem real_run {es : List Event}
    (h : RunsWhen step HasLayer (init userID source kind owner) es s) : Real es s :=
  h.history real_init (fun _ hr hg he => hr.step hg he)

/-- As long as the track has a layer whenever a subscription resolves its own, every subscriber
is created to wait for a layer of the track, with a codec that the publisher's `OnTrack` has
delivered. -/
theorem subscribed_on_layer {es : List Event}
    (h : RunsWhen step HasLayer (init userID source kind owner) es s) (he : step s e = some s')
    (hn : s.sub u = none) {sub : TrackSubscriber} (hs : s'.sub u = some sub) :
    sub.pendingRID ∈ s.track.layers.keys ∧ Delivered es sub.codec := by
  rcases step_sub he u with hsame | ⟨sub',hs',hc⟩
  · rw [hsame,hn] at hs
    cases hs
  · cases hs.symm.trans hs'
    rw [hn] at hc
    cases hc with
    | @created t first q target codec hc =>
      have hr := (real_run h).calls t
      rwa [hc] at hr

/-- A camera's first layer, and user 7 who subscribes once it is there. -/
def subscribesLater : List Event :=
  [.onTrack RIDLow "VP8",.addLayer,.newSubscriber 0 7 .high RIDLow,.proceed 0 RIDLow]

theorem subscribed_on_layer_later :
    ∃ s s' sub, RunsWhen step HasLayer (init 1 "camera" .video "s1") subscribesLater s ∧
      step s (.proceed 0 "") = some s' ∧ s'.sub 7 = some sub ∧
      sub.pendingRID ∈ s.track.layers.keys ∧ Delivered subscribesLater sub.codec := by
  have h : RunsWhen step HasLayer (init 1 "camera" .video "s1") subscribesLater
      (after step (init 1 "camera" .video "s1") subscribesLater) := runsWhen_after (by decide +kernel)
  obtain ⟨s',hs'⟩ := Option.isSome_iff_exists.mp (show (step (after step
    (init 1 "camera" .video "s1") subscribesLater) (.proceed 0 "")).isSome = true by decide +kernel)
  have hsub : ∀ s' ∈ step (after step (init 1 "camera" .video "s1") subscribesLater) (.proceed 0 ""),
      (s'.sub 7).isSome = true := by decide +kernel
  obtain ⟨sub,hs⟩ := Option.isSome_iff_exists.mp (hsub s' hs')
  exact ⟨_,s',sub,h,hs',hs,subscribed_on_layer h hs' (by decide +kernel) hs⟩

/-- User 7 subscribes before the layer is there. -/
def subscribesInBetween : List Event :=
  [.onTrack RIDLow "VP8",.newSubscriber 0 7 .high "",.proceed 0 ""]

theorem subscribed_on_nothing : ¬ ∀ (es : List Event) (s s' : State) (e : Event) (u : UserID)
    (sub : TrackSubscriber), Runs step (init 1 "camera" .video "s1") es s → step s e = some s' →
      s.sub u = none → s'.sub u = some sub →
      sub.pendingRID ∈ s.track.layers.keys ∧ Delivered es sub.codec := by
  intro h
  have hr : Runs step (init 1 "camera" .video "s1") subscribesInBetween
      (after step (init 1 "camera" .video "s1") subscribesInBetween) := runs_after (by decide +kernel)
  obtain ⟨s',hs'⟩ := Option.isSome_iff_exists.mp (show (step (after step
    (init 1 "camera" .video "s1") subscribesInBetween) (.proceed 0 "")).isSome = true by decide +kernel)
  have hsub : ∀ s' ∈ step (after step (init 1 "camera" .video "s1") subscribesInBetween)
      (.proceed 0 ""), (s'.sub 7).isSome = true := by decide +kernel
  obtain ⟨sub,hs⟩ := Option.isSome_iff_exists.mp (hsub s' hs')
  have hlayers : (after step (init 1 "camera" .video "s1") subscribesInBetween).track.layers.keys = ∅ := by
    decide +kernel
  have hp := (h _ _ _ _ 7 sub hr hs' (by decide +kernel) hs).1
  rw [hlayers] at hp
  exact absurd hp (Finset.notMem_empty _)

end MiniDiscord.SfuForwarding
