import MiniDiscord.Sfu.LayerTarget
import MiniDiscord.Sfu.KeyframeGating

/-! # Layers that arrive late

The arrival of a layer leaves every subscription alone. A subscriber whose quality prefers
the new layer gets on to it only after a call of its own has resolved its layer again.
-/
namespace MiniDiscord.SfuForwarding
open SfuRoom SfuTrack Transition
variable {s s' : State} {e : Event} {u : UserID} {t : CallID} {rid : RID}

/-- The step hands a keyframe of the layer to the user. -/
def HandsKeyframe (s : State) (u : UserID) (rid : RID) : Event → Prop
  | .proceed t _ =>
    match s.calls t with
    | .forwardToSubscribers r _ isKeyframe (v :: _) => r = rid ∧ isKeyframe = true ∧ v = u
    | _ => False
  | _ => False

/-- The quality in effect prefers the layer to all the others. -/
def Wants (s : State) (u : UserID) (rid : RID) : Prop :=
  rid ∈ s.track.layers.keys ∧ ∃ sub ∈ s.sub u, Resolves s.track sub.effective rid

/-- The layer is the best one for what is asked, of those that the call has looked at. -/
def Asked.Prefers (asked : Asked) (rid : RID) : Prop :=
  rid ∈ asked.track.layers.keys ∧ Resolves asked.track asked.quality rid

/-- The next section of the call retargets the user. -/
def Retargets (s : State) (u : UserID) (t : CallID) : Prop :=
  match s.calls t with
  | .setSubscriberQuality v _ _ | .setDegraded v _ => v = u
  | _ => False

/-- A call for the user is done that asks for the layer. -/
def AsksFor (x : RecordedState) (u : UserID) (rid : RID) : Event → Prop
  | .proceed t _ => Retargets x.state u t ∧ (x.record t).Prefers rid
  | _ => False

/-- A call for the user is done that asks for another layer, and the user is not on that. -/
def AsksForAnother (x : RecordedState) (u : UserID) (rid : RID) : Event → Prop
  | .proceed t _ => Retargets x.state u t ∧ ¬ (x.record t).Prefers rid ∧
    ∀ sub ∈ x.state.sub u, ∀ r, (x.record t).Prefers r → sub.active ≠ some r
  | _ => False

instance (s : State) (u : UserID) (rid : RID) (e : Event) : Decidable (HandsKeyframe s u rid e) :=
  match e with
  | .proceed t first => by
    unfold HandsKeyframe
    dsimp only
    generalize s.calls t = call
    exact match call with
      | .forwardToSubscribers _ _ _ (_ :: _) => inferInstance
      | .forwardToSubscribers _ _ _ [] => instDecidableFalse
      | .idle | .newSubscriber .. | .insertSubscriber .. | .setSubscriberQuality ..
      | .resolveDegraded .. | .setDegraded .. => instDecidableFalse
  | .onTrack .. | .addLayer | .newSubscriber .. | .setSubscriberQuality .. | .setDegraded ..
  | .forwardToSubscribers .. => instDecidableFalse

instance (s : State) (u : UserID) (t : CallID) : Decidable (Retargets s u t) := by
  unfold Retargets
  generalize s.calls t = call
  exact match call with
    | .setSubscriberQuality .. | .setDegraded .. => inferInstance
    | .idle | .newSubscriber .. | .insertSubscriber .. | .resolveDegraded ..
    | .forwardToSubscribers .. => instDecidableFalse

instance (s : State) (u : UserID) (rid : RID) : Decidable (Wants s u rid) := by
  unfold Wants
  infer_instance

instance (asked : Asked) (rid : RID) : Decidable (asked.Prefers rid) := by
  unfold Asked.Prefers
  infer_instance

/-! ## What calls have looked at -/

theorem Asked.Prefers.unique {asked : Asked} {rid rid' : RID} (h : asked.Prefers rid)
    (h' : asked.Prefers rid') : rid = rid' :=
  (h.2 rid h.1).symm.trans (h'.2 rid h.1)

/-- The target of a call is the best layer that it has looked at, if there was any. -/
def Asked.Found (asked : Asked) (target : RID) : Prop :=
  (asked.track.layers.keys = ∅ ∧ target = "") ∨ asked.Prefers target

theorem Asked.Found.prefers_iff {asked : Asked} {target : RID} (h : asked.Found target)
    (h0 : rid ≠ "") : asked.Prefers rid ↔ target = rid := by
  rcases h with ⟨he,rfl⟩ | hp
  · refine iff_of_false (fun hp => ?_) (Ne.symm h0)
    rw [Asked.Prefers,he] at hp
    exact Finset.notMem_empty _ hp.1
  · constructor
    · exact hp.unique
    · rintro rfl
      exact hp

theorem found_resolveRID {track : PublishedTrack} {q : Quality} {first : RID}
    (hl : track.layers.keys = ∅ ∨ Usual track.layers) (hq : q ≠ .off)
    (hy : track.yields first = true) : Asked.Found ⟨q,track⟩ (track.resolveRID q first) := by
  rcases hl with hl | hl
  · refine Or.inl ⟨hl,?_⟩
    unfold PublishedTrack.resolveRID
    rw [show GoMap.isEmpty track.layers = true by simpa [GoMap.isEmpty] using hl,if_pos rfl]
  · obtain ⟨rid,hmem,hres⟩ := exists_resolves hl hq
    have hne : GoMap.isEmpty track.layers = false := by
      simpa [GoMap.isEmpty] using hl.nonempty.ne_empty
    have hf : first ∈ track.layers.keys := by
      simpa [PublishedTrack.yields, hne, Finmap.mem_keys] using hy
    rw [hres first hf]
    exact Or.inr ⟨hmem,hres⟩

/-- What a call under way has found agrees with what it was asked for. -/
def Call.Follows (asked : Asked) : Call → Prop
  | .newSubscriber _ q _ | .insertSubscriber _ q _ _ => q ≠ .off
  | .setSubscriberQuality _ q target => q ≠ .off ∧ asked.Found target
  | .resolveDegraded _ effective => effective ≠ .off ∧ effective = asked.quality
  | .setDegraded _ target => asked.Found target
  | .idle | .forwardToSubscribers _ _ _ _ => True

structure Orderly (s : State) (asked : CallID → Asked) : Prop where
  layers : s.track.layers.keys = ∅ ∨ Usual s.track.layers
  adding : ∀ rid codec, s.adding = some (rid,codec) → admits s.track.layers rid
  calls : ∀ t, (s.calls t).Follows (asked t)
  subs : ∀ u sub, s.sub u = some sub → sub.requestedQuality ≠ .off

variable {asked asked' : CallID → Asked}

theorem Orderly.setCall (h : Orderly s asked) {c : Call} (ha : ∀ t' ≠ t, asked' t' = asked t')
    (hc : c.Follows (asked' t)) : Orderly (s.setCall t c) asked' where
  layers := h.layers
  adding := h.adding
  calls t' := by
    rw [setCall_calls]
    split
    · rename_i ht
      rw [ht]
      exact hc
    · rename_i ht
      rw [ha t' ht]
      exact h.calls t'
  subs := h.subs

theorem Orderly.setSub (h : Orderly s asked) {sub : TrackSubscriber}
    (hs : sub.requestedQuality ≠ .off) : Orderly (s.setSub u sub) asked where
  layers := h.layers
  adding := h.adding
  calls := h.calls
  subs v sub' hv := by
    rw [setSub_sub] at hv
    split at hv
    · cases hv
      exact hs
    · exact h.subs v sub' hv

theorem Orderly.forward (h : Orderly s asked) (rid : RID) (packet : Packet) (isKeyframe : Bool) :
    Orderly (s.forward rid packet isKeyframe u) asked where
  layers := by
    rw [forward_layers]
    exact h.layers
  adding := by
    rw [forward_adding,forward_layers]
    exact h.adding
  calls := by
    rw [forward_calls]
    exact h.calls
  subs v sub' hv := by
    by_cases hvu : v = u
    · subst hvu
      rcases forward_self s rid packet isKeyframe v with hf | ⟨sub,sub'',starts,out,hs,ha,hs',-⟩
      · rw [hf] at hv
        exact h.subs v sub' hv
      · rw [hs'] at hv
        cases hv
        have hq := h.subs v sub hs
        rcases TrackSubscriber.accept_cases ha with ⟨-,rfl⟩ | ⟨-,-,-,rfl⟩
        · exact hq
        · exact hq
    · rw [(forward_other s rid packet isKeyframe u hvu).1] at hv
      exact h.subs v sub' hv

/-- A source has one stream without a RID, or streams that are tagged. -/
theorem usual_addLayer {track : PublishedTrack} {codec : String}
    (hl : track.layers.keys = ∅ ∨ Usual track.layers) (ha : admits track.layers rid) :
    Usual (track.addLayer rid codec).layers := by
  have hkeys : (track.addLayer rid codec).layers.keys = insert rid track.layers.keys :=
    GoMap.keys_insert _ _ _
  unfold admits at ha
  unfold Usual
  rw [hkeys]
  split at ha
  · rename_i h0
    refine Or.inl ?_
    ext r
    rw [Finset.mem_insert,Finset.mem_singleton,h0]
    exact ⟨fun hr => hr.elim id (ha r),Or.inl⟩
  · refine Or.inr ⟨Finset.insert_nonempty _ _,Finset.insert_subset ?_ ?_⟩
    · simpa using ha.1
    · rcases hl with hl | hl | hl
      · rw [hl]
        exact Finset.empty_subset _
      · rw [hl] at ha
        exact absurd (Finset.mem_singleton_self _) ha.2
      · exact hl.2

theorem Orderly.step (h : Orderly s asked) (he : step s e = some s') :
    Orderly s' (note s asked e) := by
  have hframe : ∀ {t}, e.call = some t → ∀ t' ≠ t, note s asked e t' = asked t' :=
    fun hc t' ht => note_frame (fun h' => ht (Option.some.inj (h'.symm.trans hc)))
  cases step_view he with
  | @onTrack rid codec hn ha =>
    refine ⟨h.layers,?_,h.calls,h.subs⟩
    rintro _ _ ⟨⟩
    exact ha
  | @addLayer rid codec hc =>
    exact ⟨Or.inr (usual_addLayer h.layers (h.adding rid codec hc)),nofun,h.calls,h.subs⟩
  | newSubscriber hi hp hn hq hy => exact h.setCall (fun _ _ => rfl) hq
  | @codecCapability t first u q target hc hy =>
    have ha := h.calls t
    rw [hc] at ha
    exact h.setCall (hframe rfl) ha
  | @insertSubscriber t first u q target codec hc hn =>
    have ha := h.calls t
    rw [hc] at ha
    have hset : Orderly (s.setSub u ⟨codec,q,false,false,"",target⟩) asked := h.setSub ha
    exact hset.setCall (hframe rfl) trivial
  | @setSubscriberQuality t u q first hi hq hy =>
    refine h.setCall (hframe rfl) ⟨hq,?_⟩
    rw [note,Function.update_self]
    exact found_resolveRID h.layers hq hy
  | @setQuality t first u q target sub hc hs =>
    have ha := h.calls t
    rw [hc] at ha
    have hset : Orderly (s.setSub u (sub.setQuality q target)) asked := h.setSub ha.1
    exact hset.setCall (hframe rfl) trivial
  | unchanged hsame =>
    rw [note_unchanged hsame]
    exact h
  | @setDegraded t u degraded sub hi hs hd =>
    have hsub := h.subs u sub hs
    have hset : Orderly (s.setSub u (sub.setDegraded degraded)) asked := h.setSub hsub
    refine hset.setCall (hframe rfl) ⟨TrackSubscriber.effective_ne_off hsub,?_⟩
    rw [note_setDegraded hs hd]
    rfl
  | @resolveDegraded t first u effective hc hy =>
    have ha := h.calls t
    rw [hc] at ha
    refine h.setCall (hframe rfl) ?_
    rw [note_resolveDegraded hc,← ha.2]
    exact found_resolveRID h.layers ha.1 hy
  | @retarget t first u target sub hc hs =>
    have hr : (sub.retarget target).requestedQuality = sub.requestedQuality := by
      unfold TrackSubscriber.retarget
      split <;> rfl
    have hset : Orderly (s.setSub u (sub.retarget target)) asked :=
      h.setSub (hr ▸ h.subs u sub hs)
    exact hset.setCall (hframe rfl) trivial
  | nobody => exact h.setCall (hframe rfl) trivial
  | forwardToSubscribers hi hr => exact h.setCall (fun _ _ => rfl) trivial
  | @forward t first rid packet isKeyframe u us hc =>
    exact (h.forward rid packet isKeyframe).setCall (hframe rfl) trivial
  | forwarded => exact h.setCall (hframe rfl) trivial

/-! ## Waiting for a layer -/

/-- The target becomes the pending layer, unless the subscriber is on it. -/
theorem pendingRID_setQuality (sub : TrackSubscriber) (q : Quality) (target : RID) :
    (sub.setQuality q target).pendingRID =
      if sub.active = some target then sub.pendingRID else target := by
  unfold TrackSubscriber.setQuality TrackSubscriber.active
  cases sub.hasActive with
  | false => simp
  | true =>
    by_cases ha : sub.activeRID = target
    · simp [ha]
    · simp [ha]

theorem pendingRID_retarget (sub : TrackSubscriber) (target : RID) :
    (sub.retarget target).pendingRID =
      if sub.active = some target then sub.pendingRID else target := by
  unfold TrackSubscriber.retarget TrackSubscriber.active
  by_cases hp : sub.pendingRID = target
  · simp [hp]
  · cases sub.hasActive with
    | false => simp [hp]
    | true =>
      by_cases ha : sub.activeRID = target
      · simp [ha]
      · simp [ha, hp]

def Waits (s : State) (u : UserID) (rid : RID) : Prop :=
  ∃ sub, s.sub u = some sub ∧ sub.pendingRID = rid

/-- A section that retargets the user makes it wait for the layer it asks for, and for no
other but one that it is on already. -/
theorem waits_retargeted {sub sub' : TrackSubscriber} {target : RID} {first : RID}
    (hw : Orderly s asked) (hsound : Sound s) (h0 : rid ≠ "") (hmem : rid ∈ s.track.layers.keys)
    (hc : (∃ q, s.calls t = .setSubscriberQuality u q target) ∨ s.calls t = .setDegraded u target)
    (hs : s.sub u = some sub) (hact : sub.active ≠ some rid)
    (hp : sub'.pendingRID = if sub.active = some target then sub.pendingRID else target) :
    sub'.pendingRID = rid ↔ AsksFor ⟨s,asked⟩ u rid (.proceed t first) ∨
      sub.pendingRID = rid ∧ ¬ AsksForAnother ⟨s,asked⟩ u rid (.proceed t first) := by
  have hfound : (asked t).Found target := by
    have hf := hw.calls t
    rcases hc with ⟨q,hc⟩ | hc
    · rw [hc] at hf
      exact hf.2
    · rwa [hc] at hf
  have hre : Retargets s u t := by
    unfold Retargets
    rcases hc with ⟨q,hc⟩ | hc
    · rw [hc]
    · rw [hc]
  by_cases ht : target = rid
  · have hpref := (hfound.prefers_iff h0).mpr ht
    subst ht
    rw [hp,if_neg hact]
    exact iff_of_true rfl (Or.inl ⟨hre,hpref⟩)
  · have hpref : ¬ (asked t).Prefers rid := fun hpref => ht ((hfound.prefers_iff h0).mp hpref)
    have hasks : ¬ AsksFor ⟨s,asked⟩ u rid (.proceed t first) := fun h => hpref h.2
    rw [hp,or_iff_right hasks]
    by_cases hon : sub.active = some target
    · -- on the layer it is asked to go to, which is one that the call has looked at
      have hpt : (asked t).Prefers target := by
        rcases hfound with ⟨-,rfl⟩ | hpt
        · unfold TrackSubscriber.active at hon
          split at hon
          · rename_i hactive
            have hmem' := hsound.active u sub hs hactive
            rw [Option.some.inj hon] at hmem'
            exact absurd ((hsound.alike "" rid (Or.inl hmem') (Or.inl hmem)).mp rfl) h0
          · cases hon
        · exact hpt
      rw [if_pos hon]
      refine ⟨fun hpend => ⟨hpend,fun h => ?_⟩,And.left⟩
      exact h.2.2 sub hs target hpt hon
    · rw [if_neg hon]
      refine iff_of_false ht (fun h => h.2 ⟨hre,hpref,fun sub' hs' r hr => ?_⟩)
      cases hs.symm.trans hs'
      rcases hfound with ⟨he,-⟩ | hpt
      · rw [Asked.Prefers,he] at hr
        exact absurd hr.1 (Finset.notMem_empty _)
      · rwa [← hpt.unique hr]

/-- Steps that retarget nobody change nothing of this but by a keyframe. -/
theorem waits_step (hw : Orderly s asked) (hsound : Sound s) (h0 : rid ≠ "")
    (hmem : rid ∈ s.track.layers.keys) (hsub : (s.sub u).isSome)
    (hact : (s.sub u).bind TrackSubscriber.active ≠ some rid) (hkey : ¬ HandsKeyframe s u rid e)
    (he : step s e = some s') : Waits s' u rid ↔
      AsksFor ⟨s,asked⟩ u rid e ∨ Waits s u rid ∧ ¬ AsksForAnother ⟨s,asked⟩ u rid e := by
  obtain ⟨sub,hs⟩ := Option.isSome_iff_exists.mp hsub
  rw [hs,Option.bind_some] at hact
  have hwaits : Waits s u rid ↔ sub.pendingRID = rid := by
    refine ⟨fun ⟨sub',hs',hp⟩ => ?_,fun hp => ⟨sub,hs,hp⟩⟩
    cases hs.symm.trans hs'
    exact hp
  have hwaits' : ∀ {sub'}, s'.sub u = some sub' → (Waits s' u rid ↔ sub'.pendingRID = rid) := by
    intro sub' hs'
    refine ⟨fun ⟨sub'',hs'',hp⟩ => ?_,fun hp => ⟨sub',hs',hp⟩⟩
    cases hs'.symm.trans hs''
    exact hp
  rw [hwaits]
  by_cases hre : ∃ t first, e = .proceed t first ∧ Retargets s u t
  · obtain ⟨t,first,rfl,hre⟩ := hre
    unfold Retargets at hre
    split at hre
    · rename_i v q target hc
      subst hre
      simp only [step, State.proceed, hc, hs, Option.some.injEq] at he
      rw [hwaits' (by rw [← he]; exact setSub_sub_self _ _ _)]
      exact waits_retargeted hw hsound h0 hmem (Or.inl ⟨q,hc⟩) hs hact (pendingRID_setQuality ..)
    · rename_i v target hc
      subst hre
      simp only [step, State.proceed, hc, hs, Option.some.injEq] at he
      rw [hwaits' (by rw [← he]; exact setSub_sub_self _ _ _)]
      exact waits_retargeted hw hsound h0 hmem (Or.inr hc) hs hact (pendingRID_retarget ..)
    · exact hre.elim
  · have hasks : ¬ AsksFor ⟨s,asked⟩ u rid e := by
      cases e with
      | proceed t first => exact fun h => hre ⟨t,first,rfl,h.1⟩
      | _ => exact id
    have hanother : ¬ AsksForAnother ⟨s,asked⟩ u rid e := by
      cases e with
      | proceed t first => exact fun h => hre ⟨t,first,rfl,h.1⟩
      | _ => exact id
    rw [or_iff_right hasks,and_iff_left hanother]
    rcases step_sub he u with hsame | ⟨sub',hs',hc⟩
    · exact hwaits' (hsame.trans hs)
    · rw [hwaits' hs']
      rw [hs] at hc
      cases hc with
      | requested hc => exact absurd ⟨_,_,rfl,by rw [Retargets,hc]⟩ hre
      | degraded => exact Iff.rfl
      | retargeted hc => exact absurd ⟨_,_,rfl,by rw [Retargets,hc]⟩ hre
      | @accepted t first r packet isKeyframe us _ _ starts hc ha =>
        rcases TrackSubscriber.accept_cases ha with ⟨-,rfl⟩ | ⟨-,hp,hk,rfl⟩
        · exact Iff.rfl
        · refine iff_of_false (Ne.symm h0) (fun hp' => hkey ?_)
          simp [HandsKeyframe, hc, hk, hp.symm.trans hp']

/-- By the keyframe of a layer a user gets on to it exactly if it waits for it. -/
theorem keyframe_switches {first : RID} {packet : Packet} {us : List UserID} {sub : TrackSubscriber}
    (hc : s.calls t = .forwardToSubscribers rid packet true (u :: us)) (hs : s.sub u = some sub)
    (hact : sub.active ≠ some rid) (he : step s (.proceed t first) = some s') :
    (s'.sub u).bind TrackSubscriber.active = some rid ↔ sub.pendingRID = rid := by
  have hs' : s' = (s.forward rid packet true u).setCall t (.forwardToSubscribers rid packet true us) := by
    simp only [step, State.proceed, hc, Option.some.injEq] at he
    exact he.symm
  rw [hs',setCall_sub]
  have hnot : ¬ (sub.hasActive = true ∧ sub.activeRID = rid) := by
    rintro ⟨h₁,h₂⟩
    exact hact (by rw [TrackSubscriber.active,if_pos h₁,h₂])
  by_cases hp : sub.pendingRID = rid
  · have ha : sub.accept rid true =
        some ({ sub with hasActive := true, activeRID := rid, pendingRID := "" },true) := by
      rw [TrackSubscriber.accept,if_neg hnot,if_pos ⟨hp,rfl⟩]
    have hf : (s.forward rid packet true u).sub u =
        some { sub with hasActive := true, activeRID := rid, pendingRID := "" } := by
      unfold State.forward
      rw [hs,Option.bind_some,ha]
      exact setSub_sub_self _ _ _
    rw [hf]
    exact iff_of_true rfl hp
  · have ha : sub.accept rid true = none := by
      rw [TrackSubscriber.accept,if_neg hnot,if_neg (fun h => hp h.1)]
    have hf : s.forward rid packet true u = s := by
      unfold State.forward
      rw [hs,Option.bind_some,ha]
    rw [hf,hs]
    exact iff_of_false hact hp

variable {userID : UserID} {source : Source} {kind : RTPCodecType} {owner : SessionID}

/-- Before a layer has arrived nobody is on it or waits for it. -/
theorem Sound.away (h : Sound s) (hn : rid ∉ s.track.layers.keys) (h0 : rid ≠ "") :
    (s.sub u).bind TrackSubscriber.active ≠ some rid ∧ ¬ Waits s u rid := by
  constructor
  · intro ha
    obtain ⟨sub,hs,ha⟩ := Option.bind_eq_some_iff.mp ha
    unfold TrackSubscriber.active at ha
    split at ha
    · rename_i hact
      cases ha
      exact hn (h.active u sub hs hact)
    · cases ha
  · rintro ⟨sub,hs,hp⟩
    rcases h.pending u sub hs with hm | hm
    · exact hn (hp ▸ hm)
    · exact h0 (hp.symm.trans hm)

/-- Until the first keyframe of the layer nobody is active on it. -/
theorem not_active_step (h : (s.sub u).bind TrackSubscriber.active ≠ some rid)
    (hkey : ¬ HandsKeyframe s u rid e) (he : step s e = some s') :
    (s'.sub u).bind TrackSubscriber.active ≠ some rid := by
  rcases step_stream he u with ⟨-,hact⟩ |
    ⟨t,first,r,packet,isKeyframe,us,sub,sub',out,rfl,hc,hs,hs',ha,-,hcase⟩
  · rw [hact]
    exact h
  · rw [hs'] at *
    rw [hs] at h
    intro hr
    cases ha.symm.trans hr
    rcases hcase with hact | ⟨hk,-⟩
    · exact h hact
    · exact hkey (by simp [HandsKeyframe, hc, hk])

/-- Subscriptions stay. -/
theorem subscribed_step (h : (s.sub u).isSome) (he : step s e = some s') : (s'.sub u).isSome := by
  rcases step_sub he u with hsame | ⟨sub',hs',-⟩
  · rw [hsame]
    exact h
  · rw [hs']
    rfl

/-- A layer arrives, and its first keyframe comes. The subscriber is switched to it if its
quality prefers the layer by then, exactly if in that case a call of its own has asked for the
layer since the arrival, and since that call none for a layer that it was not on. -/
theorem late_layer_switched {es fs : List Event} {x x₁ x₂ x₃ : RecordedState} {codec : String}
    {first : RID} {packet : Packet} {us : List UserID}
    (hr : Runs recordedStep (unasked (init userID source kind owner)) es x)
    (hadding : x.state.adding = some (rid,codec)) (hnew : rid ∉ x.state.track.layers)
    (h0 : rid ≠ "") (hadd : recordedStep x .addLayer = some x₁) (hs : (x.state.sub u).isSome)
    (hfs : RunsWhen recordedStep (fun x e => ¬ HandsKeyframe x.state u rid e) x₁ fs x₂)
    (hc : x₂.state.calls t = .forwardToSubscribers rid packet true (u :: us))
    (hkey : recordedStep x₂ (.proceed t first) = some x₃) :
    (Wants x₂.state u rid → (x₃.state.sub u).bind TrackSubscriber.active = some rid) ↔
      (Wants x₂.state u rid → Since recordedStep (fun x e => AsksFor x u rid e)
        (fun x e => AsksForAnother x u rid e) x₁ fs x₂) := by
  have hstep : ∀ {x y : RecordedState} {e : Event}, recordedStep x e = some y →
      step x.state e = some y.state ∧ note x.state x.record e = y.record :=
    fun he => recording_eq_some_iff.mp he
  have horderly : ∀ {es : List Event} {y : RecordedState},
      Runs recordedStep (unasked (init userID source kind owner)) es y → Orderly y.state y.record := by
    intro es y hy
    refine hy.invariant (P := fun x => Orderly x.state x.record) ?_ (fun h _ he => ?_)
    · exact ⟨Or.inl rfl,nofun,fun _ => trivial,nofun⟩
    · rw [← (hstep he).2]
      exact h.step (hstep he).1
  have haway := (sound_run hr.forget).away (u := u) (fun hm => hnew (Finmap.mem_keys.mp hm)) h0
  have hx₁ : x₁.state.sub u = x.state.sub u ∧ rid ∈ x₁.state.track.layers.keys := by
    have he := (hstep hadd).1
    simp only [step, hadding, Option.some.injEq] at he
    rw [← he]
    refine ⟨rfl,?_⟩
    simp only [PublishedTrack.addLayer, GoMap.keys_insert]
    exact Finset.mem_insert_self _ _
  have hpath : Runs recordedStep (unasked (init userID source kind owner)) (es ++ [.addLayer]) x₁ :=
    hr.append (Runs.single hadd)
  -- what holds from the arrival up to the keyframe
  have hsince : ∀ {gs : List Event} {y : RecordedState},
      RunsWhen recordedStep (fun x e => ¬ HandsKeyframe x.state u rid e) x₁ gs y →
        (y.state.sub u).bind TrackSubscriber.active ≠ some rid ∧ (y.state.sub u).isSome ∧
          rid ∈ y.state.track.layers.keys := by
    intro gs y hy
    refine hy.invariant (P := fun x => (x.state.sub u).bind TrackSubscriber.active ≠ some rid ∧
      (x.state.sub u).isSome ∧ rid ∈ x.state.track.layers.keys) ?_ ?_
    · rw [hx₁.1]
      exact ⟨haway.1,hs,hx₁.2⟩
    · intro x y e h hg he
      have he := (hstep he).1
      exact ⟨not_active_step h.1 hg he,subscribed_step h.2.1 he,(layers_step he).1 h.2.2⟩
  have hwaits : Waits x₂.state u rid ↔ Since recordedStep (fun x e => AsksFor x u rid e)
      (fun x e => AsksForAnother x u rid e) x₁ fs x₂ := by
    refine hfs.since_iff (P := fun x => Waits x.state u rid) ?_ (fun hy hg he => ?_)
    · rintro ⟨sub,hsub,hp⟩
      exact haway.2 ⟨sub,hx₁.1 ▸ hsub,hp⟩
    · obtain ⟨hact,hsub,hmem⟩ := hsince hy
      have hrun := hpath.append hy.runs
      exact waits_step (horderly hrun) (sound_run hrun.forget) h0 hmem hsub hact hg (hstep he).1
  obtain ⟨hact,hsub,-⟩ := hsince hfs
  obtain ⟨sub,hsub⟩ := Option.isSome_iff_exists.mp hsub
  rw [hsub] at hact
  have hswitch : (x₃.state.sub u).bind TrackSubscriber.active = some rid ↔ Waits x₂.state u rid := by
    rw [keyframe_switches hc hsub hact (hstep hkey).1]
    constructor
    · intro hp
      exact ⟨sub,hsub,hp⟩
    · rintro ⟨sub',hsub',hp⟩
      cases hsub.symm.trans hsub'
      exact hp
  rw [hswitch,hwaits]

/-- User 7 wants the high quality, and is on the only layer there is when the highest arrives. -/
def lowLayerFirst : List Event :=
  [.onTrack RIDLow "VP8",.addLayer,.newSubscriber 0 7 .high RIDLow,.proceed 0 RIDLow,
    .proceed 0 RIDLow,.forwardToSubscribers 1 RIDLow ⟨11,1000,[]⟩ true [7],.proceed 1 "",.proceed 1 "",
    .onTrack RIDHigh "VP8"]

def onLowLayer : RecordedState :=
  after recordedStep (unasked (init 1 "camera" .video "s1")) lowLayerFirst

def withHighLayer : RecordedState := after recordedStep onLowLayer [.addLayer]

def highKeyframe : Packet := ⟨70,9000,[]⟩

def sendsKeyframe : Event := .forwardToSubscribers 2 RIDHigh highKeyframe true [7]

theorem runs_onLowLayer :
    Runs recordedStep (unasked (init 1 "camera" .video "s1")) lowLayerFirst onLowLayer :=
  runs_after (by decide +kernel)

theorem step_withHighLayer : recordedStep onLowLayer .addLayer = some withHighLayer :=
  step_after (by decide +kernel)

theorem late_layer_missed : ¬ ∀ (es fs : List Event) (s s₁ s₂ s₃ : State) (u : UserID) (rid : RID)
    (codec : String) (t : CallID) (first : RID) (packet : Packet) (us : List UserID),
    Runs step (init 1 "camera" .video "s1") es s →
      s.adding = some (rid,codec) → rid ∉ s.track.layers → step s .addLayer = some s₁ →
      (s.sub u).isSome → Wants s₁ u rid →
      RunsWhen step (fun s e => ¬ HandsKeyframe s u rid e) s₁ fs s₂ → Wants s₂ u rid →
      s₂.calls t = .forwardToSubscribers rid packet true (u :: us) →
      step s₂ (.proceed t first) = some s₃ → (s₃.sub u).bind TrackSubscriber.active = some rid := by
  intro h
  have hwants : Wants withHighLayer.state 7 RIDHigh := by decide +kernel
  have hfs : RunsWhen step (fun s e => ¬ HandsKeyframe s 7 RIDHigh e) withHighLayer.state
      [sendsKeyframe] (after step withHighLayer.state [sendsKeyframe]) :=
    RunsWhen.guarded (runs_after (by decide +kernel)) (fun e he s => by
      rw [List.mem_singleton.mp he]
      exact id)
  have hact := h _ _ _ _ _ _ 7 RIDHigh "VP8" 2 "" highKeyframe [] runs_onLowLayer.forget
    (by decide +kernel) (by decide +kernel) (recording_eq_some_iff.mp step_withHighLayer).1
    (by decide +kernel) hwants hfs (by decide +kernel) (by decide +kernel)
    (step_after (by decide +kernel))
  exact absurd hact (by decide +kernel)

/-- The same user, when its client asks for the high quality once more. -/
def asksAgain : List Event := [.setSubscriberQuality 0 7 .high RIDLow,.proceed 0 "",sendsKeyframe]

theorem late_layer_switched_asksAgain :
    ((after recordedStep (after recordedStep withHighLayer asksAgain) [.proceed 2 ""]).state.sub 7).bind
      TrackSubscriber.active = some RIDHigh := by
  have hadding : onLowLayer.state.adding = some (RIDHigh,"VP8") := by decide +kernel
  have hfs : RunsWhen recordedStep (fun x e => ¬ HandsKeyframe x.state 7 RIDHigh e) withHighLayer
      asksAgain (after recordedStep withHighLayer asksAgain) := runsWhen_after (by decide +kernel)
  have hcall : (after recordedStep withHighLayer asksAgain).state.calls 2 =
      .forwardToSubscribers RIDHigh highKeyframe true [7] := by decide +kernel
  have hkey : recordedStep (after recordedStep withHighLayer asksAgain) (.proceed 2 "") =
      some (after recordedStep (after recordedStep withHighLayer asksAgain) [.proceed 2 ""]) :=
    step_after (by decide +kernel)
  have h := late_layer_switched runs_onLowLayer hadding (by decide +kernel) (by decide)
    step_withHighLayer (by decide +kernel) hfs hcall hkey
  refine h.mpr (fun _ => ?_) (by decide +kernel)
  -- the call asks for the layer, and what comes after it asks for none
  have hasked : Since recordedStep (fun x e => AsksFor x 7 RIDHigh e)
      (fun x e => AsksForAnother x 7 RIDHigh e) withHighLayer
      ([.setSubscriberQuality 0 7 .high RIDLow] ++ [.proceed 0 ""])
      (after recordedStep (after recordedStep withHighLayer [.setSubscriberQuality 0 7 .high RIDLow])
        [.proceed 0 ""]) :=
    .begun (runs_after (by decide +kernel)) ⟨by decide +kernel,by decide +kernel⟩
      (step_after (by decide +kernel))
  have hsince := hasked.kept (e := sendsKeyframe) id (step_after (by decide +kernel))
  have hsame := Option.some.inj ((runs_iff_exec.mp hfs.runs).symm.trans (runs_iff_exec.mp hsince.runs))
  rw [hsame]
  exact hsince

end MiniDiscord.SfuForwarding
