import MiniDiscord.Sfu.ForwardingSteps
import MiniDiscord.Transition.Histories

/-! # The layer a subscriber is headed to

While a track's layers stay the same, the layer that a quality resolves to does not depend
on the order of the map. A subscriber is headed to the layer of its effective quality unless
a call that retargets it found it on its way away from the very layer it asks for, or
resolved its target before somebody else changed the quality.
-/
namespace MiniDiscord.SfuTrack

theorem resolveRID_congr {t t' : PublishedTrack} (h : t.layers = t'.layers) (q : Quality) (first : RID) :
    t.resolveRID q first = t'.resolveRID q first := by
  unfold PublishedTrack.resolveRID
  rw [h]

/-- Any order of the map resolves the quality to this layer. -/
def Resolves (t : PublishedTrack) (q : Quality) (rid : RID) : Prop :=
  ∀ first ∈ t.layers.keys, t.resolveRID q first = rid

instance (t : PublishedTrack) (q : Quality) (rid : RID) : Decidable (Resolves t q rid) := by
  unfold Resolves
  infer_instance

/-- The single layer without a RID, or some of the tagged ones. -/
def Usual (layers : GoMap RID String) : Prop :=
  layers.keys = {""} ∨ layers.keys.Nonempty ∧ layers.keys ⊆ {RIDLow,RIDMid,RIDHigh}

instance (layers : GoMap RID String) : Decidable (Usual layers) := by
  unfold Usual
  infer_instance

/-- Two qualities with the same layer. -/
def SameLayer (t : PublishedTrack) (q q' : Quality) : Prop :=
  ∀ rid ∈ t.layers.keys, Resolves t q rid → Resolves t q' rid

instance (t : PublishedTrack) (q q' : Quality) : Decidable (SameLayer t q q') := by
  unfold SameLayer
  infer_instance

theorem sameLayer_iff {t : PublishedTrack} {q q' : Quality} {rid : RID} (hmem : rid ∈ t.layers.keys)
    (h : Resolves t q rid) : SameLayer t q q' ↔ Resolves t q' rid := by
  constructor
  · intro hs
    exact hs rid hmem h
  · intro h' rid' hmem' hr
    rwa [← (hr rid hmem).symm.trans (h rid hmem)] at h'

theorem Usual.nonempty {layers : GoMap RID String} (h : Usual layers) : layers.keys.Nonempty := by
  rcases h with h | h
  · rw [h]
    exact Finset.singleton_nonempty _
  · exact h.1

/-- Either every layer is the unnamed one, or none is. -/
theorem Usual.unnamed {layers : GoMap RID String} (h : Usual layers) (h0 : "" ∈ layers.keys) :
    layers.keys = {""} := by
  rcases h with h | h
  · exact h
  · have hm := h.2 h0
    simp [RIDLow, RIDMid, RIDHigh] at hm

/-- The layers that a quality prefers are all there are. -/
theorem mem_preferredRIDOrder {q : Quality} (hq : q ≠ .off) {rid : RID}
    (h : rid ∈ ({RIDLow,RIDMid,RIDHigh} : Finset RID)) : rid ∈ preferredRIDOrder q := by
  simp only [Finset.mem_insert, Finset.mem_singleton] at h
  cases q with
  | off => exact absurd rfl hq
  | low => simpa [preferredRIDOrder] using h
  | high =>
    simp only [preferredRIDOrder, List.mem_cons, List.not_mem_nil, or_false]
    tauto

/-- The layer of a quality, whatever the order of the map. -/
theorem exists_resolves {t : PublishedTrack} (h : Usual t.layers) {q : Quality} (hq : q ≠ .off) :
    ∃ rid ∈ t.layers.keys, Resolves t q rid := by
  have hne : GoMap.isEmpty t.layers = false := by
    simpa [GoMap.isEmpty] using h.nonempty.ne_empty
  by_cases hc : t.layers.keys.card ≤ 1
  · obtain ⟨rid,hr⟩ := h.nonempty
    refine ⟨rid,hr,fun first hf => ?_⟩
    unfold PublishedTrack.resolveRID
    rw [hne,if_neg Bool.false_ne_true,if_pos hc]
    exact Finset.card_le_one.mp hc first hf rid hr
  · have htag : t.layers.keys ⊆ {RIDLow,RIDMid,RIDHigh} := by
      rcases h with h | h
      · rw [h] at hc
        simp at hc
      · exact h.2
    obtain ⟨rid,hr⟩ := h.nonempty
    have hsome : ((preferredRIDOrder q).find? (fun r => decide (r ∈ t.layers))).isSome := by
      rw [List.find?_isSome]
      exact ⟨rid,mem_preferredRIDOrder hq (htag hr),decide_eq_true (Finmap.mem_keys.mp hr)⟩
    obtain ⟨found,hf⟩ := Option.isSome_iff_exists.mp hsome
    have hmem := List.find?_some hf
    refine ⟨found,Finmap.mem_keys.mpr (of_decide_eq_true hmem),fun first _ => ?_⟩
    unfold PublishedTrack.resolveRID
    rw [hne,if_neg Bool.false_ne_true,if_neg hc,hf]
    rfl

namespace TrackSubscriber

/-- The pending layer if one is set, and the active one otherwise. -/
def destination (sub : TrackSubscriber) : RID :=
  if sub.pendingRID = "" then sub.activeRID else sub.pendingRID

/-- On this layer, with a switch to another one pending. -/
def Leaving (sub : TrackSubscriber) (rid : RID) : Prop :=
  sub.hasActive = true ∧ sub.activeRID = rid ∧ sub.pendingRID ≠ "" ∧ sub.pendingRID ≠ rid

instance (sub : TrackSubscriber) (rid : RID) : Decidable (sub.Leaving rid) := by
  unfold Leaving
  infer_instance

/-- On the layer of this quality, with a switch to another one pending. -/
def Leaves (sub : TrackSubscriber) (track : PublishedTrack) (q : Quality) : Prop :=
  ∃ rid ∈ track.layers.keys, Resolves track q rid ∧ sub.Leaving rid

instance (sub : TrackSubscriber) (track : PublishedTrack) (q : Quality) :
    Decidable (sub.Leaves track q) := by
  unfold Leaves
  infer_instance

variable {sub sub' : TrackSubscriber} {q : Quality} {target rid : RID}

theorem leaves_iff {track : PublishedTrack} (hmem : target ∈ track.layers.keys)
    (h : Resolves track q target) : sub.Leaves track q ↔ sub.Leaving target := by
  constructor
  · rintro ⟨rid,-,hres,hl⟩
    rwa [← h target hmem,hres target hmem]
  · intro hl
    exact ⟨target,hmem,h,hl⟩

/-- Where a retargeted subscriber goes: to the target, unless it is leaving it. -/
theorem destination_of_pending (ha : sub'.activeRID = sub.activeRID)
    (hp : sub'.pendingRID =
      if sub.hasActive = false ∨ sub.activeRID ≠ target then target else sub.pendingRID)
    (h : target = "" → sub.activeRID = "") :
    sub'.destination = if sub.Leaving target then sub.pendingRID else target := by
  unfold destination
  rw [hp,ha]
  by_cases hn : sub.hasActive = false ∨ sub.activeRID ≠ target
  · have hl : ¬ sub.Leaving target := by
      rintro ⟨h₁,h₂,-⟩
      rcases hn with hn | hn
      · rw [hn] at h₁
        cases h₁
      · exact hn h₂
    rw [if_pos hn,if_neg hl]
    split
    · rename_i ht
      rw [h ht,ht]
    · rfl
  · have hon : sub.hasActive = true ∧ sub.activeRID = target := by
      simpa only [not_or, Bool.not_eq_false, not_not, ne_eq] using hn
    rw [if_neg hn]
    by_cases hl : sub.Leaving target
    · rw [if_pos hl,if_neg hl.2.2.1]
    · rw [if_neg hl]
      split
      · exact hon.2
      · rename_i h0
        by_contra hpt
        exact hl ⟨hon.1,hon.2,h0,hpt⟩

theorem destination_setQuality (h : target = "" → sub.activeRID = "") :
    (sub.setQuality q target).destination =
      if sub.Leaving target then sub.pendingRID else target :=
  destination_of_pending rfl rfl h

theorem destination_retarget (h : target = "" → sub.activeRID = "") :
    (sub.retarget target).destination = if sub.Leaving target then sub.pendingRID else target := by
  refine destination_of_pending ?_ ?_ h
  · unfold retarget
    split <;> rfl
  · unfold retarget
    by_cases hn : sub.hasActive = false ∨ sub.activeRID ≠ target
    · rw [if_pos hn]
      split
      · rfl
      · rename_i hp
        by_contra hpt
        exact hp ⟨hpt,hn⟩
    · rw [if_neg hn,if_neg (fun hp => hn hp.2)]

/-- A switch takes the subscriber where it was headed. -/
theorem destination_accept {isKeyframe starts : Bool}
    (ha : sub.accept rid isKeyframe = some (sub',starts)) (h : rid = "" → sub.activeRID = "") :
    sub'.destination = sub.destination := by
  unfold accept at ha
  split at ha
  · cases ha
    rfl
  · split at ha <;> cases ha
    rename_i hp
    simp only [destination, if_true, hp.1]
    split
    · rw [h ‹_›,‹rid = ""›]
    · rfl

theorem effective_accept {isKeyframe starts : Bool}
    (ha : sub.accept rid isKeyframe = some (sub',starts)) : sub'.effective = sub.effective := by
  unfold accept at ha
  split at ha
  · cases ha
    rfl
  · split at ha <;> cases ha
    rfl

theorem effective_retarget : (sub.retarget target).effective = sub.effective := by
  unfold retarget
  split <;> rfl

theorem effective_setQuality : (sub.setQuality q target).effective = q := by
  simp [setQuality, effective, effectiveQuality]

theorem effective_ne_off (h : sub.requestedQuality ≠ .off) : sub.effective ≠ .off := by
  unfold effective effectiveQuality
  split
  · exact Quality.noConfusion
  · exact h

end TrackSubscriber
end MiniDiscord.SfuTrack

namespace MiniDiscord.SfuForwarding
open SfuRoom SfuTrack Transition
variable {s s' : State} {e : Event} {u : UserID} {t : CallID}

/-- The call an event belongs to. -/
def Event.call : Event → Option CallID
  | .onTrack _ _ => none
  | .addLayer => none
  | .newSubscriber t _ _ _ => some t
  | .setSubscriberQuality t _ _ _ => some t
  | .setDegraded t _ _ => some t
  | .forwardToSubscribers t _ _ _ _ => some t
  | .proceed t _ => some t

/-- A call is where it was while no event is its own. -/
theorem calls_frame {es : List Event} (h : Runs step s es s') (hes : ∀ e ∈ es, e.call ≠ some t) :
    s'.calls t = s.calls t := by
  refine h.frame (f := fun s => s.calls t) (fun {s s' e} hmem he => ?_)
  have hset : ∀ {s₁ : State} {t' : CallID} {c : Call}, e.call = some t' → s₁.calls = s.calls →
      (s₁.setCall t' c).calls t = s.calls t := by
    intro s₁ t' c hc hcalls
    rw [setCall_calls,if_neg,hcalls]
    rintro rfl
    exact hes e hmem hc
  cases step_view he with
  | onTrack => rfl
  | addLayer => rfl
  | unchanged => rfl
  | forward => exact hset rfl (forward_calls ..)
  | _ => exact hset rfl rfl

/-! ## What calls ask for -/

/-- What a call that retargets a subscriber asks for, and the track it looks at for it. -/
structure Asked where
  quality : Quality
  track : PublishedTrack

/-- `setDegraded` asks for the quality in effect once it has changed the flag, and looks at the
track afterwards. -/
def note (s : State) (asked : CallID → Asked) : Event → CallID → Asked
  | .setSubscriberQuality t _ quality _ => Function.update asked t ⟨quality,s.track⟩
  | .setDegraded t u degraded =>
    match s.sub u with
    | none => asked
    | some sub =>
      if sub.degraded = degraded then asked
      else Function.update asked t ⟨effectiveQuality sub.requestedQuality degraded,s.track⟩
  | .proceed t _ =>
    match s.calls t with
    | .resolveDegraded _ _ => Function.update asked t ⟨(asked t).quality,s.track⟩
    | _ => asked
  | _ => asked

abbrev RecordedState := Recorded State (CallID → Asked)

abbrev recordedStep : RecordedState → Event → Option RecordedState := recording step note

/-- Nobody has asked for anything. -/
def unasked (s : State) : RecordedState := ⟨s,fun _ => ⟨.off,s.track⟩⟩

theorem note_frame {asked : CallID → Asked} (h : e.call ≠ some t) : note s asked e t = asked t := by
  have hne : ∀ {t'}, e.call = some t' → t ≠ t' := fun hc ht => h (ht ▸ hc)
  cases e with
  | setSubscriberQuality => exact Function.update_of_ne (hne rfl) _ _
  | setDegraded t' u degraded =>
    cases hs : s.sub u with
    | none => simp only [note, hs]
    | some sub =>
      by_cases hd : sub.degraded = degraded
      · simp only [note, hs, if_pos hd]
      · simp only [note, hs, if_neg hd]
        exact Function.update_of_ne (hne rfl) _ _
  | proceed t' first =>
    cases hc : s.calls t' with
    | resolveDegraded =>
      simp only [note, hc]
      exact Function.update_of_ne (hne rfl) _ _
    | _ => simp only [note, hc]
  | _ => rfl

theorem note_unchanged {asked : CallID → Asked} {degraded : Bool}
    (h : ∀ sub, s.sub u = some sub → sub.degraded = degraded) :
    note s asked (.setDegraded t u degraded) = asked := by
  cases hs : s.sub u with
  | none => simp only [note, hs]
  | some sub => simp only [note, hs, if_pos (h sub hs)]

theorem note_setDegraded {asked : CallID → Asked} {degraded : Bool} {sub : TrackSubscriber}
    (hs : s.sub u = some sub) (hd : sub.degraded ≠ degraded) :
    note s asked (.setDegraded t u degraded) t =
      ⟨effectiveQuality sub.requestedQuality degraded,s.track⟩ := by
  simp only [note, hs, if_neg hd, Function.update_self]

theorem note_resolveDegraded {asked : CallID → Asked} {first : RID} {effective : Quality}
    (hc : s.calls t = .resolveDegraded u effective) :
    note s asked (.proceed t first) t = ⟨(asked t).quality,s.track⟩ := by
  simp only [note, hc, Function.update_self]

variable {asked asked' : CallID → Asked}

/-- What every call under way has resolved is a layer, and the right one for the quality that
was asked for. -/
def Aims (track : PublishedTrack) (asked : Quality) : Call → Prop
  | .idle => True
  | .newSubscriber _ q target | .insertSubscriber _ q target _ | .setSubscriberQuality _ q target =>
    q ≠ .off ∧ target ∈ track.layers.keys ∧ Resolves track q target
  | .resolveDegraded _ effective => effective ≠ .off ∧ effective = asked
  | .setDegraded _ target => target ∈ track.layers.keys ∧ Resolves track asked target
  | .forwardToSubscribers rid _ _ _ => rid ∈ track.layers.keys

theorem aims_congr {track track' : PublishedTrack} (h : track'.layers = track.layers) (q : Quality)
    (c : Call) : Aims track' q c ↔ Aims track q c := by
  have hr : ∀ q rid, Resolves track' q rid ↔ Resolves track q rid := by
    intro q rid
    unfold Resolves
    rw [h]
    exact forall₂_congr (fun first _ => by rw [resolveRID_congr h])
  cases c <;> simp only [Aims, h, hr]

/-- What holds while the layers stay the same. -/
structure Kept (s : State) (asked : CallID → Asked) : Prop where
  usual : Usual s.track.layers
  calls : ∀ t, Aims s.track (asked t).quality (s.calls t)
  subs : ∀ u sub, s.sub u = some sub → sub.requestedQuality ≠ .off ∧
    ("" ∈ s.track.layers.keys → sub.activeRID = "")

theorem Kept.setCall (h : Kept s asked) {c : Call} (ha : ∀ t' ≠ t, asked' t' = asked t')
    (hc : Aims s.track (asked' t).quality c) : Kept (s.setCall t c) asked' where
  usual := h.usual
  calls t' := by
    rw [setCall_calls,setCall_track]
    split
    · rename_i ht
      rw [ht]
      exact hc
    · rename_i ht
      rw [ha t' ht]
      exact h.calls t'
  subs := h.subs

theorem Kept.setSub (h : Kept s asked) {sub : TrackSubscriber}
    (hs : sub.requestedQuality ≠ .off ∧ ("" ∈ s.track.layers.keys → sub.activeRID = "")) :
    Kept (s.setSub u sub) asked where
  usual := h.usual
  calls t' := (aims_congr rfl _ _).mpr (h.calls t')
  subs v sub' hv := by
    rw [setSub_sub] at hv
    split at hv
    · cases hv
      exact hs
    · exact h.subs v sub' hv

/-- A layer without a RID is the only one. -/
theorem Kept.active (h : Kept s asked) {rid : RID} (hr : rid ∈ s.track.layers.keys)
    {sub : TrackSubscriber} (hs : s.sub u = some sub) : rid = "" → sub.activeRID = "" := by
  rintro rfl
  exact (h.subs u sub hs).2 hr

theorem Kept.resolve (h : Kept s asked) {q : Quality} (hq : q ≠ .off) {first : RID}
    (hy : s.track.yields first = true) :
    s.track.resolveRID q first ∈ s.track.layers.keys ∧
      Resolves s.track q (s.track.resolveRID q first) := by
  obtain ⟨rid,hr,hres⟩ := exists_resolves h.usual hq
  have hf : first ∈ s.track.layers.keys := by
    have hne : GoMap.isEmpty s.track.layers = false := by
      simpa [GoMap.isEmpty] using h.usual.nonempty.ne_empty
    simpa [PublishedTrack.yields, hne, Finmap.mem_keys] using hy
  rw [hres first hf]
  exact ⟨hr,hres⟩

theorem Kept.forward (h : Kept s asked) {rid : RID} (hr : rid ∈ s.track.layers.keys) (packet : Packet)
    (isKeyframe : Bool) : Kept (s.forward rid packet isKeyframe u) asked where
  usual := by
    rw [forward_layers]
    exact h.usual
  calls t' := by
    rw [forward_calls]
    exact (aims_congr (forward_layers ..) _ _).mpr (h.calls t')
  subs v sub' hv := by
    rw [forward_layers]
    by_cases hvu : v = u
    · subst hvu
      rcases forward_self s rid packet isKeyframe v with hf | ⟨sub,sub'',starts,out,hs,ha,hs',-⟩
      · rw [hf] at hv
        exact h.subs v sub' hv
      · rw [hs'] at hv
        cases hv
        obtain ⟨hq,hact⟩ := h.subs v sub hs
        unfold TrackSubscriber.accept at ha
        split at ha
        · cases ha
          exact ⟨hq,hact⟩
        · split at ha <;> cases ha
          refine ⟨hq,fun h0 => ?_⟩
          rw [h.usual.unnamed h0] at hr
          exact Finset.mem_singleton.mp hr
    · rw [(forward_other s rid packet isKeyframe u hvu).1] at hv
      exact h.subs v sub' hv

/-- Events that bring no layer. -/
def fixed : Event → Bool
  | .onTrack _ _ => false
  | .addLayer => false
  | _ => true

theorem Kept.step (h : Kept s asked) (hfix : fixed e = true) (he : step s e = some s') :
    Kept s' (note s asked e) := by
  have hframe : ∀ {t}, e.call = some t → ∀ t' ≠ t, note s asked e t' = asked t' :=
    fun hc t' ht => note_frame (fun h' => ht (Option.some.inj (h'.symm.trans hc)))
  cases step_view he with
  | onTrack => cases hfix
  | addLayer => cases hfix
  | newSubscriber hi hp hn hq hy => exact h.setCall (fun _ _ => rfl) ⟨hq,h.resolve hq hy⟩
  | @codecCapability t first u q target hc hy =>
    have ha := h.calls t
    rw [hc] at ha
    exact h.setCall (hframe rfl) ha
  | @insertSubscriber t first u q target codec hc hn =>
    have ha := h.calls t
    rw [hc] at ha
    exact (h.setSub ⟨ha.1,fun _ => rfl⟩).setCall (hframe rfl) trivial
  | @setSubscriberQuality t u q first hi hq hy =>
    exact h.setCall (hframe rfl) ⟨hq,h.resolve hq hy⟩
  | @setQuality t first u q target sub hc hs =>
    have ha := h.calls t
    rw [hc] at ha
    have hset : Kept (s.setSub u (sub.setQuality q target)) asked :=
      h.setSub ⟨ha.1,(h.subs u sub hs).2⟩
    exact hset.setCall (hframe rfl) trivial
  | unchanged hsame =>
    rw [note_unchanged hsame]
    exact h
  | @setDegraded t u degraded sub hi hs hd =>
    have hsub := h.subs u sub hs
    have hset : Kept (s.setSub u (sub.setDegraded degraded)) asked := h.setSub hsub
    refine hset.setCall (hframe rfl) ⟨TrackSubscriber.effective_ne_off hsub.1,?_⟩
    rw [note_setDegraded hs hd]
    rfl
  | @resolveDegraded t first u effective hc hy =>
    have ha := h.calls t
    rw [hc] at ha
    refine h.setCall (hframe rfl) ?_
    rw [note_resolveDegraded hc,Aims,← ha.2]
    exact h.resolve ha.1 hy
  | @retarget t first u target sub hc hs =>
    have hsub := h.subs u sub hs
    have hr : (sub.retarget target).requestedQuality = sub.requestedQuality ∧
        (sub.retarget target).activeRID = sub.activeRID := by
      unfold TrackSubscriber.retarget
      split <;> exact ⟨rfl,rfl⟩
    exact (h.setSub (by rw [hr.1,hr.2]; exact hsub)).setCall (hframe rfl) trivial
  | nobody => exact h.setCall (hframe rfl) trivial
  | forwardToSubscribers hi hr => exact h.setCall (fun _ _ => rfl) (Finmap.mem_keys.mpr hr)
  | @forward t first rid packet isKeyframe u us hc =>
    have ha := h.calls t
    rw [hc] at ha
    refine (h.forward ha packet isKeyframe).setCall (hframe rfl) ?_
    rw [Aims,forward_layers]
    exact ha
  | forwarded => exact h.setCall (hframe rfl) trivial

theorem kept_start {track : PublishedTrack} (h : Usual track.layers) (asked : CallID → Asked) :
    Kept (start track) asked where
  usual := h
  calls _ := trivial
  subs _ _ hs := by
    cases hs

/-! ## Calls under way -/

/-- The call changes the layer the user is headed to, or the quality it follows. -/
def Call.retargets (u : UserID) : Call → Bool
  | .setSubscriberQuality v _ _ => decide (v = u)
  | .resolveDegraded v _ => decide (v = u)
  | .setDegraded v _ => decide (v = u)
  | _ => false

/-- No such call is under way, apart perhaps from this one. -/
def Alone (s : State) (u : UserID) (t : CallID) : Prop :=
  ∀ t', t' ≠ t → (s.calls t').retargets u = false

def Quiet (s : State) (u : UserID) : Prop := ∀ t, (s.calls t).retargets u = false

theorem quiet_setCall {c : Call} :
    Quiet (s.setCall t c) u ↔ c.retargets u = false ∧ Alone s u t := by
  constructor
  · intro h
    refine ⟨by simpa using h t,fun t' ht => ?_⟩
    have h' := h t'
    rwa [setCall_calls,if_neg ht] at h'
  · rintro ⟨hc,ha⟩ t'
    rw [setCall_calls]
    split
    · exact hc
    · exact ha t' ‹_›

theorem Alone.quiet (h : Alone s u t) (hc : (s.calls t).retargets u = false) : Quiet s u := by
  intro t'
  by_cases ht : t' = t
  · rw [ht]
    exact hc
  · exact h t' ht

/-- The subscriber is headed to the layer of its effective quality. -/
def Settled (s : State) (u : UserID) : Prop :=
  ∀ sub, s.sub u = some sub → Resolves s.track sub.effective sub.destination

/-- A section that retargets a subscriber does not find it on its way away from the layer that
was asked for; and what other calls have changed since `setDegraded` changed the flag leaves
the quality in effect with that layer. -/
def Aimed (x : RecordedState) : Event → Prop
  | .proceed t _ =>
    match x.state.calls t with
    | .setSubscriberQuality u q _ => ∀ sub ∈ x.state.sub u, ¬ sub.Leaves x.state.track q
    | .setDegraded u _ => ∀ sub ∈ x.state.sub u,
      if sub.Leaves x.state.track (x.record t).quality then
        Resolves x.state.track sub.effective sub.pendingRID
      else SameLayer x.state.track (x.record t).quality sub.effective
    | _ => True
  | _ => True

instance (x : RecordedState) (e : Event) : Decidable (Aimed x e) :=
  match e with
  | .proceed t first => by
    unfold Aimed
    dsimp only
    generalize x.state.calls t = call
    exact match call with
      | .setSubscriberQuality .. | .setDegraded .. => inferInstance
      | .idle | .newSubscriber .. | .insertSubscriber .. | .resolveDegraded ..
      | .forwardToSubscribers .. => instDecidableTrue
  | .onTrack .. | .addLayer | .newSubscriber .. | .setSubscriberQuality .. | .setDegraded ..
  | .forwardToSubscribers .. => instDecidableTrue

/-- No other call is under way for the user that this section retargets. -/
def Last (s : State) : Event → Prop
  | .proceed t _ => ∀ u, (s.calls t).retargets u = true → Alone s u t
  | _ => True

/-- The last call for a user has to be aimed. -/
def OnTarget (x : RecordedState) (e : Event) : Prop := Last x.state e → Aimed x e

theorem last_of_alone {first : RID} (hc : ∀ v, (s.calls t).retargets v = true → v = u)
    (h : Alone s u t) : Last s (.proceed t first) := by
  intro v hv
  rw [hc v hv]
  exact h

theorem resolves_setSub {sub : TrackSubscriber} {v : UserID} (q : Quality) (rid : RID) :
    Resolves (s.setSub v sub).track q rid ↔ Resolves s.track q rid := Iff.rfl

/-- The others are settled as they were. -/
theorem settled_setSub_of_ne {sub : TrackSubscriber} {v : UserID} (hv : u ≠ v) (h : Settled s u) :
    Settled (s.setSub v sub) u := by
  intro sub' hs
  rw [setSub_sub,if_neg hv] at hs
  exact h sub' hs

theorem settled_forward (h : Kept s asked) {rid : RID} (hr : rid ∈ s.track.layers.keys) {packet : Packet}
    {isKeyframe : Bool} {v : UserID} (hset : Settled s u) :
    Settled (s.forward rid packet isKeyframe v) u := by
  have hres : ∀ q r, Resolves (s.forward rid packet isKeyframe v).track q r ↔ Resolves s.track q r := by
    intro q r
    unfold Resolves
    rw [forward_layers]
    exact forall₂_congr (fun first _ => by rw [resolveRID_congr (forward_layers ..)])
  intro sub' hs'
  rw [hres]
  by_cases hv : u = v
  · subst hv
    rcases forward_self s rid packet isKeyframe u with hf | ⟨sub,sub'',starts,out,hs,ha,hs'',-⟩
    · rw [hf] at hs'
      exact hset sub' hs'
    · rw [hs''] at hs'
      cases hs'
      rw [TrackSubscriber.effective_accept ha,
        TrackSubscriber.destination_accept ha (h.active hr hs)]
      exact hset sub hs
  · rw [(forward_other s rid packet isKeyframe v hv).1] at hs'
    exact hset sub' hs'

/-- The two sections that retarget a subscriber leave it settled exactly when they are on
target. -/
theorem settled_setQuality (h : Kept s asked) {q : Quality} {target : RID} {sub : TrackSubscriber}
    (hc : s.calls t = .setSubscriberQuality u q target) (hs : s.sub u = some sub) :
    Settled (s.setSub u (sub.setQuality q target)) u ↔ ¬ sub.Leaves s.track q := by
  have ha := h.calls t
  rw [hc] at ha
  obtain ⟨hq,hmem,hres⟩ := ha
  have hd := TrackSubscriber.destination_setQuality (q := q) (h.active hmem hs)
  rw [TrackSubscriber.leaves_iff hmem hres]
  constructor
  · intro hset hl
    have h' := hset _ (setSub_sub_self _ _ _)
    rw [hd,if_pos hl,TrackSubscriber.effective_setQuality,resolves_setSub] at h'
    exact hl.2.2.2 ((h' target hmem).symm.trans (hres target hmem))
  · intro hl sub' hs'
    rw [setSub_sub_self] at hs'
    cases hs'
    rw [hd,if_neg hl,TrackSubscriber.effective_setQuality]
    exact hres

theorem settled_retarget (h : Kept s asked) {target : RID} {sub : TrackSubscriber}
    (hc : s.calls t = .setDegraded u target) (hs : s.sub u = some sub) :
    Settled (s.setSub u (sub.retarget target)) u ↔
      if sub.Leaves s.track (asked t).quality then Resolves s.track sub.effective sub.pendingRID
      else SameLayer s.track (asked t).quality sub.effective := by
  have ha := h.calls t
  rw [hc] at ha
  obtain ⟨hmem,hres⟩ := ha
  have hd := TrackSubscriber.destination_retarget (h.active hmem hs)
  have hiff : Settled (s.setSub u (sub.retarget target)) u ↔
      Resolves s.track sub.effective (sub.retarget target).destination := by
    constructor
    · intro hset
      have h' := hset _ (setSub_sub_self _ _ _)
      rwa [TrackSubscriber.effective_retarget] at h'
    · intro hr sub' hs'
      rw [setSub_sub_self] at hs'
      cases hs'
      rwa [TrackSubscriber.effective_retarget]
  rw [hiff,hd]
  by_cases hl : sub.Leaving target
  · rw [if_pos hl,if_pos ((TrackSubscriber.leaves_iff hmem hres).mpr hl)]
  · rw [if_neg hl,if_neg (fun hl' => hl ((TrackSubscriber.leaves_iff hmem hres).mp hl'))]
    exact (sameLayer_iff hmem hres).symm

/-- A user is settled whenever no call that retargets it is under way. -/
def AllSettled (s : State) : Prop := ∀ u, Quiet s u → Settled s u

theorem AllSettled.step (hk : Kept s asked) (h : AllSettled s) (hfix : fixed e = true)
    (hon : OnTarget ⟨s,asked⟩ e) (he : step s e = some s') : AllSettled s' := by
  -- a call that does not retarget `u`, or another call, was as good before
  have hcall : ∀ {t c u}, Quiet (s.setCall t c) u → (s.calls t).retargets u = false → Settled s u :=
    fun hq hc => h _ ((quiet_setCall.mp hq).2.quiet hc)
  intro v hq
  cases step_view he with
  | onTrack => cases hfix
  | addLayer => cases hfix
  | newSubscriber hi => exact hcall hq (by rw [hi]; rfl)
  | codecCapability hc => exact hcall hq (by rw [hc]; rfl)
  | @insertSubscriber t first u q target codec hc hn =>
    by_cases hv : v = u
    · subst hv
      have ha := hk.calls t
      rw [hc] at ha
      intro sub hs
      rw [setCall_sub,setSub_sub_self] at hs
      cases hs
      have hd : TrackSubscriber.destination ⟨codec,q,false,false,"",target⟩ = target := by
        unfold TrackSubscriber.destination
        split
        · exact Eq.symm ‹_›
        · rfl
      rw [hd]
      exact ha.2.2
    · exact settled_setSub_of_ne hv (hcall hq (by rw [hc]; rfl))
  | setSubscriberQuality hi => exact hcall hq (by rw [hi]; rfl)
  | @setQuality t first u q target sub hc hs =>
    by_cases hv : v = u
    · subst hv
      have haim := hon (last_of_alone (by simp [hc, Call.retargets]) (quiet_setCall.mp hq).2)
      simp only [Aimed, hc] at haim
      exact (settled_setQuality hk hc hs).mpr (haim sub hs)
    · refine settled_setSub_of_ne hv (hcall hq ?_)
      rw [hc]
      exact decide_eq_false (Ne.symm hv)
  | unchanged => exact h v hq
  | @setDegraded t u degraded sub hi hs hd =>
    by_cases hv : v = u
    · subst hv
      have hb := (quiet_setCall.mp hq).1
      simp [Call.retargets] at hb
    · exact settled_setSub_of_ne hv (hcall hq (by rw [hi]; rfl))
  | @resolveDegraded t first u effective hc =>
    have hv : v ≠ u := by
      rintro rfl
      have hb := (quiet_setCall.mp hq).1
      simp [Call.retargets] at hb
    exact hcall hq (by rw [hc]; exact decide_eq_false (Ne.symm hv))
  | @retarget t first u target sub hc hs =>
    by_cases hv : v = u
    · subst hv
      have haim := hon (last_of_alone (by simp [hc, Call.retargets]) (quiet_setCall.mp hq).2)
      simp only [Aimed, hc] at haim
      exact (settled_retarget hk hc hs).mpr (haim sub hs)
    · refine settled_setSub_of_ne hv (hcall hq ?_)
      rw [hc]
      exact decide_eq_false (Ne.symm hv)
  | @nobody t first u hc hn =>
    by_cases hv : v = u
    · subst hv
      intro sub hs
      rw [setCall_sub,hn] at hs
      cases hs
    · refine hcall hq ?_
      rcases hc with ⟨q,target,hc⟩ | ⟨target,hc⟩ <;>
        (rw [hc]; exact decide_eq_false (Ne.symm hv))
  | forwardToSubscribers hi => exact hcall hq (by rw [hi]; rfl)
  | @forward t first rid packet isKeyframe u us hc =>
    have ha := hk.calls t
    rw [hc] at ha
    have hal : Alone s v t := by
      simpa only [Alone, forward_calls] using (quiet_setCall.mp hq).2
    exact settled_forward hk ha (h v (hal.quiet (by rw [hc]; rfl)))
  | forwarded hc => exact hcall hq (by rw [hc]; rfl)

/-- A section off target that leaves no other call for its user leaves the user unsettled. -/
theorem unsettled_of_offTarget (hk : Kept s asked) (he : step s e = some s')
    (hoff : ¬ OnTarget ⟨s,asked⟩ e) :
    ∃ u, Quiet s' u ∧ ¬ Settled s' u := by
  obtain ⟨hlast,haim⟩ := Classical.not_imp.mp hoff
  cases step_view he with
  | @setQuality t first u q target sub hc hs =>
    refine ⟨u,quiet_setCall.mpr ⟨rfl,hlast u (by rw [hc]; exact decide_eq_true rfl)⟩,fun hset => ?_⟩
    refine haim ?_
    simp only [Aimed, hc]
    intro sub' hs'
    cases hs.symm.trans hs'
    exact (settled_setQuality hk hc hs).mp hset
  | @retarget t first u target sub hc hs =>
    refine ⟨u,quiet_setCall.mpr ⟨rfl,hlast u (by rw [hc]; exact decide_eq_true rfl)⟩,fun hset => ?_⟩
    refine haim ?_
    simp only [Aimed, hc]
    intro sub' hs'
    cases hs.symm.trans hs'
    exact (settled_retarget hk hc hs).mp hset
  | @nobody t first u hc hn =>
    refine absurd ?_ haim
    rcases hc with ⟨q,target,hc⟩ | ⟨target,hc⟩ <;> simp [Aimed, hc, hn]
  | codecCapability hc => exact absurd (by simp only [Aimed, hc]) haim
  | insertSubscriber hc => exact absurd (by simp only [Aimed, hc]) haim
  | resolveDegraded hc => exact absurd (by simp only [Aimed, hc]) haim
  | forward hc => exact absurd (by simp only [Aimed, hc]) haim
  | forwarded hc => exact absurd (by simp only [Aimed, hc]) haim
  | _ => exact absurd trivial haim

/-- While the layers stay as they are, a user for whom no call is under way is headed to the
layer of its effective quality, as long as every section that is the last to retarget it is
on target; and a section off target leaves it headed elsewhere. -/
theorem headed_to_effective_layer {track : PublishedTrack} (hl : Usual track.layers) :
    (∀ es x, RunsWhen recordedStep (fun x e => fixed e = true ∧ OnTarget x e)
      (unasked (start track)) es x → ∀ u, Quiet x.state u → Settled x.state u) ∧
    ∀ es x e y, RunsWhen recordedStep (fun _ e => fixed e = true) (unasked (start track)) es x →
      fixed e = true → recordedStep x e = some y → ¬ OnTarget x e →
        ∃ u, Quiet y.state u ∧ ¬ Settled y.state u := by
  have hstep : ∀ {x y : RecordedState} {e : Event}, Kept x.state x.record → fixed e = true →
      recordedStep x e = some y → Kept y.state y.record := by
    intro x y e hk hfix he
    obtain ⟨he,hnote⟩ := recording_eq_some_iff.mp he
    rw [← hnote]
    exact hk.step hfix he
  constructor
  · intro es x h
    have h0 : AllSettled (start track) := by
      intro u _ sub hs
      cases hs
    exact h.invariant_of (P := fun x => AllSettled x.state) (Q := fun x => Kept x.state x.record)
      (kept_start hl _) h0 (fun hk hg he => hstep hk hg.1 he)
      (fun hk hset hg he => hset.step hk hg.1 hg.2 (recording_eq_some_iff.mp he).1)
  · intro es x e y h hfix he hoff
    have hk : Kept x.state x.record := h.invariant (P := fun x => Kept x.state x.record)
      (kept_start hl _) (fun hk hg he => hstep hk hg he)
    exact unsettled_of_offTarget hk (recording_eq_some_iff.mp he).1 hoff

/-- A camera with its lowest and its highest layer. -/
def twoLayers : PublishedTrack :=
  ((newPublishedTrack 1 "camera" .video "s1").addLayer RIDLow "VP8").addLayer RIDHigh "VP8"

/-- User 7 watches the highest layer, asks for the low quality and, before the switch, for the
high one again. -/
def changesItsMind : List Event :=
  [.newSubscriber 0 7 .high RIDLow,.proceed 0 RIDLow,.proceed 0 RIDLow,
    .forwardToSubscribers 0 RIDHigh ⟨10,1000,[]⟩ true [7],.proceed 0 RIDLow,.proceed 0 RIDLow,
    .setSubscriberQuality 0 7 .low RIDLow,.proceed 0 RIDLow,
    .setSubscriberQuality 0 7 .high RIDLow,.proceed 0 RIDLow]

theorem usual_twoLayers : Usual twoLayers.layers := by decide +kernel

/-- Only the first call is ever used, and it is over in the end. -/
theorem idle_of_first {es : List Event} {track : PublishedTrack} (h : Runs step (start track) es s)
    (hes : ∀ e ∈ es, e.call = some 0) (h0 : s.calls 0 = .idle) : ∀ t, s.calls t = .idle := by
  intro t
  by_cases ht : t = 0
  · rw [ht]
    exact h0
  · refine calls_frame h (fun e he hc => ht ?_)
    rw [hes e he] at hc
    exact (Option.some.inj hc).symm

theorem headed_elsewhere : ¬ ∀ track : PublishedTrack, Usual track.layers →
    ∀ es s, RunsWhen step (fun _ e => fixed e = true) (start track) es s →
      (∀ t, s.calls t = .idle) → ∀ u, Settled s u := by
  intro h
  obtain ⟨s,hr,hf⟩ := exists_runs_of_exec step (start twoLayers) changesItsMind
    (fun s => (s.calls 0,(s.sub 7).map
      (fun sub => decide (Resolves s.track sub.effective sub.destination))))
    (.idle,some false) (by decide +kernel)
  obtain ⟨hidle,hsub⟩ := Prod.mk.inj hf
  obtain ⟨sub,hs,hres⟩ := Option.map_eq_some_iff.mp hsub
  have hall := idle_of_first hr (by decide) hidle
  have hfixed : ∀ e ∈ changesItsMind, fixed e = true := by decide
  have hfix : RunsWhen step (fun _ e => fixed e = true) (start twoLayers) changesItsMind s :=
    RunsWhen.guarded hr (fun e he _ => hfixed e he)
  exact of_decide_eq_false hres (h twoLayers usual_twoLayers _ s hfix hall 7 sub hs)

theorem headed_to_effective_layer_twoLayers :
    ∃ x, RunsWhen recordedStep (fun x e => fixed e = true ∧ OnTarget x e)
      (unasked (start twoLayers)) (changesItsMind.take 8) x ∧ Settled x.state 7 ∧
        (x.state.sub 7).map (fun sub => sub.destination) = some "l" := by
  obtain ⟨x,hr,hf⟩ := exists_runsWhen_of_exec recordedStep (fun x e => fixed e = true ∧ Aimed x e)
    (unasked (start twoLayers)) (changesItsMind.take 8)
    (fun x => (x.state.calls 0,(x.state.sub 7).map (fun sub => sub.destination))) (.idle,some "l")
    (by decide +kernel)
  obtain ⟨hidle,hsub⟩ := Prod.mk.inj hf
  have hall := idle_of_first hr.forget (by decide) hidle
  have hquiet : Quiet x.state 7 := by
    intro t
    rw [hall t]
    rfl
  have hr' := hr.weaken (fun x e hg => And.intro hg.1 (fun _ : Last x.state e => hg.2))
  exact ⟨x,hr',(headed_to_effective_layer usual_twoLayers).1 _ x hr' 7 hquiet,hsub⟩

end MiniDiscord.SfuForwarding
