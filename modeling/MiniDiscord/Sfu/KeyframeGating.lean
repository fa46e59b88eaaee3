import MiniDiscord.Sfu.ForwardingSteps

/-! # Switches happen on keyframes

Whatever is resolved, pending or active is a layer the track has, and a track with a layer
without a RID has no other. So a pending RID is told from no pending RID, and a subscriber
gets on to a layer only by the keyframe that it waits for.
-/
namespace MiniDiscord.SfuTrack

/-- A track with a layer resolves to one. -/
theorem resolveRID_mem_of_nonempty {t : PublishedTrack} {q : Quality} {first : RID}
    (hl : t.layers.keys.Nonempty) (hy : t.yields first = true) :
    t.resolveRID q first ∈ t.layers.keys := by
  have hne : GoMap.isEmpty t.layers = false := by
    simpa [GoMap.isEmpty] using hl.ne_empty
  have hf : first ∈ t.layers.keys := by
    simpa [PublishedTrack.yields, hne, Finmap.mem_keys] using hy
  unfold PublishedTrack.resolveRID
  rw [hne,if_neg Bool.false_ne_true]
  split
  · exact hf
  · cases hp : (preferredRIDOrder q).find? (fun rid => decide (rid ∈ t.layers)) with
    | none => exact hf
    | some rid =>
      have hm := List.find?_some hp
      exact Finmap.mem_keys.mpr (of_decide_eq_true hm)

theorem resolveRID_mem {t : PublishedTrack} {q : Quality} {first : RID}
    (hy : t.yields first = true) : t.resolveRID q first ∈ t.layers.keys ∨ t.resolveRID q first = "" := by
  rcases t.layers.keys.eq_empty_or_nonempty with hl | hl
  · refine Or.inr ?_
    unfold PublishedTrack.resolveRID
    rw [show GoMap.isEmpty t.layers = true by simpa [GoMap.isEmpty] using hl,if_pos rfl]
  · exact Or.inl (resolveRID_mem_of_nonempty hl hy)

namespace TrackSubscriber

/-- The layer the subscriber waits for: an empty `pendingRID` names one only at the start. -/
def pending (sub : TrackSubscriber) : Option RID :=
  if sub.hasActive = true ∧ sub.pendingRID = "" then none else some sub.pendingRID

def active (sub : TrackSubscriber) : Option RID :=
  if sub.hasActive = true then some sub.activeRID else none

/-- The two ways for a subscriber to get a packet. -/
theorem accept_cases {sub sub' : TrackSubscriber} {rid : RID} {isKeyframe starts : Bool}
    (h : sub.accept rid isKeyframe = some (sub',starts)) :
    (sub.active = some rid ∧ sub' = sub) ∨
      (sub.active ≠ some rid ∧ sub.pendingRID = rid ∧ isKeyframe = true ∧
        sub' = { sub with hasActive := true, activeRID := rid, pendingRID := "" }) := by
  unfold accept at h
  unfold active
  split at h
  · rename_i ha
    cases h
    refine Or.inl ⟨?_,rfl⟩
    rw [if_pos ha.1,ha.2]
  · rename_i ha
    split at h <;> cases h
    rename_i hp
    refine Or.inr ⟨?_,hp.1,hp.2,rfl⟩
    split
    · rename_i hact
      rintro ⟨rfl⟩
      exact ha ⟨hact,rfl⟩
    · simp

end TrackSubscriber
end MiniDiscord.SfuTrack

namespace MiniDiscord.SfuForwarding
open SfuRoom SfuTrack Transition
variable {s s' : State} {e : Event} {u : UserID} {t : CallID}

/-- The track has the layer, or its publisher is about to add it. -/
def Arrived (s : State) (rid : RID) : Prop :=
  rid ∈ s.track.layers.keys ∨ ∃ codec, s.adding = some (rid,codec)

/-- The RIDs in a call are layers of the track, or the empty RID of a track without any. -/
def Call.Known (layers : Finset RID) : Call → Prop
  | .newSubscriber _ _ target | .insertSubscriber _ _ target _ | .setSubscriberQuality _ _ target
  | .setDegraded _ target => target ∈ layers ∨ target = ""
  | .forwardToSubscribers rid _ _ _ => rid ∈ layers
  | .idle | .resolveDegraded _ _ => True

structure Sound (s : State) : Prop where
  alike : ∀ rid rid', Arrived s rid → Arrived s rid' → (rid = "" ↔ rid' = "")
  calls : ∀ t, (s.calls t).Known s.track.layers.keys
  pending : ∀ u sub, s.sub u = some sub → sub.pendingRID ∈ s.track.layers.keys ∨ sub.pendingRID = ""
  active : ∀ u sub, s.sub u = some sub → sub.hasActive = true → sub.activeRID ∈ s.track.layers.keys

theorem Call.Known.mono {layers layers' : Finset RID} (hsub : layers ⊆ layers') {c : Call}
    (h : c.Known layers) : c.Known layers' := by
  cases c with
  | idle => trivial
  | resolveDegraded => trivial
  | forwardToSubscribers => exact hsub h
  | newSubscriber => exact h.imp (fun h => hsub h) id
  | insertSubscriber => exact h.imp (fun h => hsub h) id
  | setSubscriberQuality => exact h.imp (fun h => hsub h) id
  | setDegraded => exact h.imp (fun h => hsub h) id

/-- Every call moves on to RIDs the track knows. -/
theorem Sound.known (h : Sound s) (he : step s e = some s')
    (hl : s.track.layers.keys ⊆ s'.track.layers.keys) (t : CallID) :
    (s'.calls t).Known s'.track.layers.keys := by
  refine Call.Known.mono hl ?_
  have hset : ∀ {s₁ : State} {t' : CallID} {c : Call}, s₁.calls = s.calls →
      c.Known s.track.layers.keys → ((s₁.setCall t' c).calls t).Known s.track.layers.keys := by
    intro s₁ t' c hc hk
    rw [setCall_calls,hc]
    split
    · exact hk
    · exact h.calls t
  cases step_view he with
  | onTrack => exact h.calls t
  | addLayer => exact h.calls t
  | unchanged => exact h.calls t
  | newSubscriber hi hp hn hq hy => exact hset rfl (resolveRID_mem hy)
  | @codecCapability t' first u q target hc =>
    have hk := h.calls t'
    rw [hc] at hk
    exact hset rfl hk
  | insertSubscriber => exact hset rfl trivial
  | setSubscriberQuality hi hq hy => exact hset rfl (resolveRID_mem hy)
  | setQuality => exact hset rfl trivial
  | setDegraded => exact hset rfl trivial
  | resolveDegraded hc hy => exact hset rfl (resolveRID_mem hy)
  | retarget => exact hset rfl trivial
  | nobody => exact hset rfl trivial
  | forwardToSubscribers hi hr => exact hset rfl (Finmap.mem_keys.mpr hr)
  | @forward t' first rid packet isKeyframe u us hc =>
    have hk := h.calls t'
    rw [hc] at hk
    exact hset (forward_calls ..) hk
  | forwarded => exact hset rfl trivial

/-- What a step makes of a subscription is pending or active on layers the track knows. -/
theorem Sound.changes (h : Sound s) {old : Option TrackSubscriber} {sub' : TrackSubscriber}
    (hold : s.sub u = old) (hc : Changes s u e old sub') :
    (sub'.pendingRID ∈ s.track.layers.keys ∨ sub'.pendingRID = "") ∧
      (sub'.hasActive = true → sub'.activeRID ∈ s.track.layers.keys) := by
  cases hc with
  | @created t first q target codec hc =>
    have hk := h.calls t
    rw [hc] at hk
    exact ⟨hk,fun ha => by cases ha⟩
  | @requested t first q target sub hc =>
    have hk := h.calls t
    rw [hc] at hk
    refine ⟨?_,h.active u sub hold⟩
    simp only [TrackSubscriber.setQuality]
    split
    · exact hk
    · exact h.pending u sub hold
  | @degraded t degraded sub => exact ⟨h.pending u sub hold,h.active u sub hold⟩
  | @retargeted t first target sub hc =>
    have hk := h.calls t
    rw [hc] at hk
    unfold TrackSubscriber.retarget
    split
    · exact ⟨hk,h.active u sub hold⟩
    · exact ⟨h.pending u sub hold,h.active u sub hold⟩
  | @accepted t first rid packet isKeyframe us sub _ starts hc ha =>
    have hk := h.calls t
    rw [hc] at hk
    rcases TrackSubscriber.accept_cases ha with ⟨-,rfl⟩ | ⟨-,-,-,rfl⟩
    · exact ⟨h.pending u _ hold,h.active u _ hold⟩
    · exact ⟨Or.inr rfl,fun _ => hk⟩

/-- Layers stay, and a new one was announced before. -/
theorem layers_step (he : step s e = some s') :
    s.track.layers.keys ⊆ s'.track.layers.keys ∧
      (∀ rid, Arrived s' rid → Arrived s rid ∨ ∃ codec, e = .onTrack rid codec) := by
  cases step_view he with
  | @onTrack rid codec hn ha =>
    refine ⟨Finset.Subset.refl _,?_⟩
    rintro r (hr | ⟨c,hc⟩)
    · exact Or.inl (Or.inl hr)
    · cases hc
      exact Or.inr ⟨codec,rfl⟩
  | @addLayer rid codec hc =>
    simp only [PublishedTrack.addLayer, Arrived, GoMap.keys_insert]
    refine ⟨Finset.subset_insert _ _,?_⟩
    rintro r (hr | ⟨c,hn⟩)
    · rcases Finset.mem_insert.mp hr with rfl | hr
      · exact Or.inl (Or.inr ⟨codec,hc⟩)
      · exact Or.inl (Or.inl hr)
    · cases hn
  | forward =>
    refine ⟨?_,fun rid hr => Or.inl ?_⟩
    · rw [setCall_track,forward_layers]
    · rw [Arrived,setCall_track,setCall_adding,forward_layers,forward_adding] at hr
      exact hr
  | _ => exact ⟨Finset.Subset.refl _,fun _ hr => Or.inl hr⟩

theorem Sound.step (h : Sound s) (he : step s e = some s') : Sound s' := by
  obtain ⟨hl,harr⟩ := layers_step he
  have hsub : ∀ u sub', s'.sub u = some sub' →
      (sub'.pendingRID ∈ s.track.layers.keys ∨ sub'.pendingRID = "") ∧
        (sub'.hasActive = true → sub'.activeRID ∈ s.track.layers.keys) := by
    intro u sub' hs'
    rcases step_sub he u with hsame | ⟨sub'',hs'',hc⟩
    · rw [hsame] at hs'
      exact ⟨h.pending u sub' hs',h.active u sub' hs'⟩
    · rw [hs''] at hs'
      cases hs'
      exact h.changes rfl hc
  refine ⟨?_,h.known he hl,fun u sub' hs' => ?_,fun u sub' hs' ha => hl ((hsub u sub' hs').2 ha)⟩
  · -- a layer is announced only beside layers of its kind
    have hnew : ∀ {rid rid' codec}, e = .onTrack rid codec → Arrived s rid' → (rid = "" ↔ rid' = "") := by
      rintro rid rid' codec rfl hr'
      cases step_view he with
      | onTrack hn ha =>
        have hr' : rid' ∈ s.track.layers.keys := by
          rcases hr' with hr' | ⟨c,hc⟩
          · exact hr'
          · rw [hn] at hc
            cases hc
        unfold admits at ha
        split at ha
        · exact ⟨fun _ => ha rid' hr',fun _ => ‹_›⟩
        · rename_i hne
          refine ⟨fun h0 => absurd h0 hne,?_⟩
          rintro rfl
          exact absurd hr' ha.2
    intro rid rid' hr hr'
    rcases harr rid hr with hr | ⟨codec,hc⟩
    · rcases harr rid' hr' with hr' | ⟨codec',hc'⟩
      · exact h.alike rid rid' hr hr'
      · exact (hnew hc' hr).symm
    · rcases harr rid' hr' with hr' | ⟨codec',hc'⟩
      · exact hnew hc hr'
      · rw [hc] at hc'
        cases hc'
        exact Iff.rfl
  · exact (hsub u sub' hs').1.imp (fun hm => hl hm) id

variable {userID : UserID} {source : Source} {kind : RTPCodecType} {owner : SessionID}

theorem sound_init : Sound (init userID source kind owner) where
  alike rid _ hr := by
    rcases hr with hr | ⟨codec,hc⟩
    · cases hr
    · cases hc
  calls _ := trivial
  pending _ _ hs := by cases hs
  active _ _ hs := by cases hs

theorem sound_run {es : List Event} (h : Runs step (init userID source kind owner) es s) : Sound s :=
  h.invariant sound_init (fun hs _ he => hs.step he)

/-- The stream a subscriber sees: it begins with a keyframe, and so does every stretch of
packets of one layer. -/
def Gated : Option RID → List Written → Prop
  | _, [] => True
  | last, w :: ws => (last = some w.rid ∨ w.isKeyframe = true) ∧ Gated (some w.rid) ws

theorem gated_snoc {last : Option RID} {ws : List Written} {w : Written} :
    Gated last (ws ++ [w]) ↔ Gated last ws ∧
      (((ws.getLast?.map Written.rid).or last) = some w.rid ∨ w.isKeyframe = true) := by
  induction ws generalizing last with
  | nil => simp [Gated]
  | cons a ws ih =>
    rw [List.cons_append,Gated,Gated,ih,and_assoc]
    cases ws with
    | nil => simp
    | cons b ws =>
      rw [List.getLast?_cons_cons]
      rw [List.getLast?_eq_some_getLast (List.cons_ne_nil b ws)]
      rfl

/-- The stream of a user is gated and its last packet is of the active layer. -/
def Streams (s : State) (u : UserID) : Prop :=
  Gated none (s.sent u) ∧
    (s.sent u).getLast?.map Written.rid = (s.sub u).bind TrackSubscriber.active

/-- A packet that a user gets: of the layer it is on, or the keyframe it waits for. -/
theorem forward_gated {rid : RID} {packet : Packet} {isKeyframe : Bool} :
    s.forward rid packet isKeyframe u = s ∨
      ∃ sub sub' out, s.sub u = some sub ∧ (s.forward rid packet isKeyframe u).sub u = some sub' ∧
        sub'.active = some rid ∧
        (s.forward rid packet isKeyframe u).sent u = s.sent u ++ [⟨rid,isKeyframe,out⟩] ∧
        (sub.active = some rid ∨ isKeyframe = true ∧ sub.pendingRID = rid) := by
  rcases forward_self s rid packet isKeyframe u with h | ⟨sub,sub',starts,out,hs,ha,hs',hsent⟩
  · exact Or.inl h
  · refine Or.inr ⟨sub,sub',out,hs,hs',?_,hsent,?_⟩
    · rcases TrackSubscriber.accept_cases ha with ⟨hact,rfl⟩ | ⟨-,-,-,rfl⟩
      · exact hact
      · rfl
    · rcases TrackSubscriber.accept_cases ha with ⟨hact,-⟩ | ⟨-,hp,hk,-⟩
      · exact Or.inl hact
      · exact Or.inr ⟨hk,hp⟩

theorem active_retarget (sub : TrackSubscriber) (target : RID) :
    (sub.retarget target).active = sub.active := by
  unfold TrackSubscriber.retarget
  split <;> rfl

/-- A write to a subscription that stays on its layer. -/
theorem active_setSub {v : UserID} {sub : TrackSubscriber}
    (ha : sub.active = (s.sub v).bind TrackSubscriber.active) :
    ((s.setSub v sub).sub u).bind TrackSubscriber.active = (s.sub u).bind TrackSubscriber.active := by
  rw [setSub_sub]
  split
  · rename_i hu
    rw [hu]
    exact ha
  · rfl

/-- Apart from a packet, nothing changes what a user was sent or is active on. -/
theorem step_stream (he : step s e = some s') (u : UserID) :
    (s'.sent u = s.sent u ∧
      (s'.sub u).bind TrackSubscriber.active = (s.sub u).bind TrackSubscriber.active) ∨
    ∃ t first rid packet isKeyframe us sub sub' out, e = .proceed t first ∧
      s.calls t = .forwardToSubscribers rid packet isKeyframe (u :: us) ∧
      s.sub u = some sub ∧ s'.sub u = some sub' ∧ sub'.active = some rid ∧
      s'.sent u = s.sent u ++ [⟨rid,isKeyframe,out⟩] ∧
      (sub.active = some rid ∨ isKeyframe = true ∧ sub.pendingRID = rid) := by
  cases step_view he with
  | insertSubscriber hc hn => exact Or.inl ⟨rfl,active_setSub (by rw [hn]; rfl)⟩
  | setQuality hc hs => exact Or.inl ⟨rfl,active_setSub (by rw [hs]; rfl)⟩
  | setDegraded hi hs => exact Or.inl ⟨rfl,active_setSub (by rw [hs]; rfl)⟩
  | retarget hc hs => exact Or.inl ⟨rfl,active_setSub (by rw [hs]; exact active_retarget _ _)⟩
  | @forward t first rid packet isKeyframe v us hc =>
    by_cases hu : u = v
    · subst hu
      rcases forward_gated (s := s) (u := u) with h | ⟨sub,sub',out,hs,hs',ha,hsent,hcase⟩
      · rw [setCall_sent,setCall_sub,h]
        exact Or.inl ⟨rfl,rfl⟩
      · exact Or.inr ⟨t,first,rid,packet,isKeyframe,us,sub,sub',out,rfl,hc,hs,hs',ha,hsent,hcase⟩
    · obtain ⟨hs,hsent⟩ := forward_other s rid packet isKeyframe v hu
      rw [setCall_sent,setCall_sub,hs]
      exact Or.inl ⟨hsent,rfl⟩
  | _ => exact Or.inl ⟨rfl,rfl⟩

theorem Streams.step (h : Streams s u) (he : step s e = some s') : Streams s' u := by
  rcases step_stream he u with ⟨hsent,hact⟩ |
    ⟨t,first,rid,packet,isKeyframe,us,sub,sub',out,-,-,hs,hs',ha,hsent,hcase⟩
  · unfold Streams
    rw [hsent,hact]
    exact h
  · obtain ⟨hg,hlast⟩ := h
    rw [hs] at hlast
    refine ⟨?_,?_⟩
    · rw [hsent,gated_snoc]
      refine ⟨hg,?_⟩
      rcases hcase with hact | ⟨hk,-⟩
      · left
        rw [hlast]
        simp [hact]
      · exact Or.inr hk
    · rw [hsent,hs']
      simp [ha]

/-- A user's active layer changes only to the layer it waits for, by a keyframe of that layer,
which is the next packet the user is sent. -/
theorem active_step (h : Sound s) (he : step s e = some s') {sub sub' : TrackSubscriber}
    (hs : s.sub u = some sub) (hs' : s'.sub u = some sub') (hne : sub'.active ≠ sub.active) :
    ∃ t first rid packet us out, e = .proceed t first ∧
      s.calls t = .forwardToSubscribers rid packet true (u :: us) ∧
      sub.pending = some rid ∧ sub'.active = some rid ∧
      s'.sent u = s.sent u ++ [⟨rid,true,out⟩] := by
  rcases step_stream he u with ⟨-,hact⟩ |
    ⟨t,first,rid,packet,isKeyframe,us,sub₁,sub₂,out,he,hc,hs₁,hs₂,ha,hsent,hcase⟩
  · rw [hs,hs'] at hact
    exact absurd hact hne
  · cases hs.symm.trans hs₁
    cases hs'.symm.trans hs₂
    rcases hcase with hact | ⟨rfl,hp⟩
    · exact absurd (ha.trans hact.symm) hne
    · refine ⟨t,first,rid,packet,us,out,he,hc,?_,ha,hsent⟩
      unfold TrackSubscriber.pending
      rw [if_neg,hp]
      -- an empty RID is a layer only where it is the only one, and then it is active already
      rintro ⟨hactive,h0⟩
      have hr := h.calls t
      rw [hc] at hr
      have hrid : rid = "" := hp.symm.trans h0
      have hsame := h.alike rid sub.activeRID (Or.inl hr) (Or.inl (h.active u sub hs hactive))
      refine hne (ha.trans ?_)
      rw [TrackSubscriber.active,if_pos hactive,hrid,hsame.mp hrid]

/-- Switches are gated by keyframes, along every run from the first packet of the source. -/
theorem switched_by_keyframe {es : List Event} (h : Runs step (init userID source kind owner) es s) :
    (∀ e s' u sub sub', step s e = some s' → s.sub u = some sub → s'.sub u = some sub' →
      sub'.active ≠ sub.active → ∃ t first rid packet us out, e = .proceed t first ∧
        s.calls t = .forwardToSubscribers rid packet true (u :: us) ∧
        sub.pending = some rid ∧ sub'.active = some rid ∧
        s'.sent u = s.sent u ++ [⟨rid,true,out⟩]) ∧
    ∀ u, Gated none (s.sent u) ∧
      (s.sent u).getLast?.map Written.rid = (s.sub u).bind TrackSubscriber.active := by
  constructor
  · intro e s' u sub sub' he hs hs' hne
    exact active_step (sound_run h) he hs hs' hne
  · intro u
    have h0 : Streams (init userID source kind owner) u := ⟨trivial,rfl⟩
    exact h.invariant (P := fun s => Streams s u) h0 (fun hs _ he => hs.step he)

/-- User 7 gets on to the only layer there is, and after a higher one has arrived and it has
asked again, on to that one. -/
def switchesUp : List Event :=
  [.onTrack RIDLow "VP8",.addLayer,.newSubscriber 0 7 .high RIDLow,.proceed 0 RIDLow,
    .proceed 0 RIDLow,.forwardToSubscribers 1 RIDLow ⟨10,1000,[]⟩ false [7],.proceed 1 "",
    .proceed 1 "",.forwardToSubscribers 1 RIDLow ⟨11,1000,[]⟩ true [7],.proceed 1 "",.proceed 1 "",
    .onTrack RIDHigh "VP8",.addLayer,.setSubscriberQuality 0 7 .high RIDLow,.proceed 0 "",
    .forwardToSubscribers 1 RIDLow ⟨12,4000,[]⟩ false [7],.proceed 1 "",.proceed 1 "",
    .forwardToSubscribers 2 RIDHigh ⟨70,9000,[]⟩ true [7],.proceed 2 ""]

theorem switched_by_keyframe_switchesUp :
    ∃ s, Runs step (init 1 "camera" .video "s1") switchesUp s ∧ Gated none (s.sent 7) ∧
      (s.sent 7).map (fun w => (w.rid,w.packet.sequenceNumber)) = [("l",11),("l",12),("h",13)] := by
  obtain ⟨s,hr,hf⟩ := exists_runs_of_exec step (init 1 "camera" .video "s1") switchesUp
    (fun s => (s.sent 7).map (fun w => (w.rid,w.packet.sequenceNumber)))
    [("l",11),("l",12),("h",13)] (by decide +kernel)
  exact ⟨s,hr,((switched_by_keyframe hr).2 7).1,hf⟩

end MiniDiscord.SfuForwarding
