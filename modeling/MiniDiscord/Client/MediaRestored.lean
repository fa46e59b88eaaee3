import MiniDiscord.Client.MediaState

/-! # Media after a rejoin

What a successful rejoin restores. The camera and the microphone are attached to every new
connection; the screen is not, and nobody tells a new session that the user is muted.
-/
namespace MiniDiscord.CallClient
open ChatHub SfuTrack Transition

variable {s : State} {sys sys' : System} {channelID : ChannelID} {a : Answers} {source : Source}

/-! ## The property -/

/-- The slot carries a track that has not ended. -/
def State.carriesLive (s : State) (source : Source) : Bool :=
  match s.senderBySource source with
  | some (some t) => (s.tracks t).live
  | _ => false

/-- A source that was never announced counts as active once it is published. -/
def Session.agrees (session : Session) (source : Source) (shown : Bool) : Bool :=
  match session.publishState source with
  | some active => active == shown
  | none => shown || !session.published source

def Server.agrees (srv : Server) (source : Source) (shown : Bool) : Bool :=
  srv.session.any (fun session => session.agrees source shown)

def System.voiceStatus (sys : System) : VoiceStatus := ⟨sys.client.isMicEnabled,sys.client.isDeafened⟩

def SourceRestored (sys : System) (source : Source) (shown : Bool) : Prop :=
  sys.client.carriesLive source = shown ∧ sys.server.agrees source shown = true

/-- What is shown is sent, and is what the server says. -/
def Restored (sys : System) : Prop :=
  SourceRestored sys SourceCamera sys.client.isCameraEnabled ∧
  SourceRestored sys SourceScreen sys.client.isScreenSharing ∧
  (sys.client.audioTrack.isSome = true →
    sys.client.senderBySource SourceMic = some sys.client.audioTrack) ∧
  sys.server.voiceStatusByUser = some sys.voiceStatus

instance (sys : System) : Decidable (Restored sys) := by
  unfold Restored SourceRestored
  infer_instance

/-! ## The condition -/

/-- The camera is shown as it is, and its track has not ended. -/
def State.CameraShown (s : State) : Prop :=
  s.isCameraEnabled = s.cameraEnabled ∧ s.videoTrack.all (fun t => (s.tracks t).live) = true

/-- A resumed session must be in order. A new one must not have a screen to attach, nor a user
who is muted or deafened. -/
def Restorable (channelID : ChannelID) (a : Answers) (sys : System) : Prop :=
  sys.client.CameraShown ∧
    if sys.client.Resumable channelID ∧ a.resume = true then
      SourceRestored sys SourceScreen sys.client.isScreenSharing ∧
        sys.server.voiceStatusByUser = some sys.voiceStatus
    else sys.client.isScreenSharing = false ∧ sys.voiceStatus = ⟨true,false⟩

instance (sys : System) : Decidable (Restorable channelID a sys) := by
  unfold Restorable SourceRestored State.CameraShown
  infer_instance

/-! ## The commands of a rejoin -/

/-- The announcement of the camera is all that `restoreCameraState` is for. -/
theorem Slots.restoreCameraState_eq (h : Slots s) (hpc : s.pc.isSome = true) (hs : s.sessionID ≠ "") :
    s.restoreCameraState = s.send (.sfuPublishState s.sessionID SourceCamera s.cameraEnabled) := by
  rw [State.restoreCameraState_eq s (h.camera hpc),State.announcePublishState,if_neg hs,← h.enabled,
    Bool.and_self]

/-- The state in which a rejoin that joins afresh makes its announcement. -/
def State.rejoined (s : State) (channelID : ChannelID) (sessionID : SessionID) : State :=
  ((s.teardownPeerConnection.send (.joinVoiceChannel channelID sessionID)).applySession channelID
    sessionID).openPeerConnection true

theorem Slots.rejoined (h : Slots s) (channelID : ChannelID) (sessionID : SessionID) :
    Slots (s.rejoined channelID sessionID) := by
  have hcaptured : Captured ((s.teardownPeerConnection.send (.joinVoiceChannel channelID
      sessionID)).applySession channelID sessionID) := ⟨h.enabled,h.captured,h.raw⟩
  exact hcaptured.openPeerConnection true

theorem rejoinAfresh_eq (h : Slots s) (hret : (s.rejoinAfresh channelID a).2 = true) :
    ∃ sessionID, sessionID ≠ "" ∧ (s.rejoinAfresh channelID a).1 =
      (s.rejoined channelID sessionID).send (.sfuPublishState sessionID SourceCamera s.cameraEnabled) := by
  unfold State.rejoinAfresh at hret ⊢
  cases hj : a.join with
  | none =>
    rw [hj] at hret
    cases hret
  | some sessionID =>
    rw [hj] at hret
    dsimp only at hret ⊢
    unfold State.start at hret ⊢
    by_cases hs : sessionID = ""
    · rw [if_pos hs] at hret
      cases hret
    · rw [if_neg hs] at hret ⊢
      cases ho : a.opens with
      | false =>
        rw [ho] at hret
        cases hret
      | true => exact ⟨sessionID,hs,(h.rejoined channelID sessionID).restoreCameraState_eq rfl hs⟩

/-! ## The camera -/

theorem carriesLive_of_slot {track : Option Track} (h : s.senderBySource source = some track) :
    s.carriesLive source = track.any (fun t => (s.tracks t).live) := by
  unfold State.carriesLive
  rw [h]
  cases track <;> rfl

/-- No screen goes into a new connection. -/
theorem carriesLive_rejoined (s : State) (channelID : ChannelID) (sessionID : SessionID) :
    (s.rejoined channelID sessionID).carriesLive SourceScreen = false :=
  carriesLive_of_slot (State.sender_openPeerConnection ((s.teardownPeerConnection.send
    (.joinVoiceChannel channelID sessionID)).applySession channelID sessionID) true).2.2

/-- A slot that carries the camera's track, and an announcement of `cameraEnabled`. -/
theorem cameraShown_iff (h : Slots s) : s.CameraShown ↔
    s.videoTrack.any (fun t => (s.tracks t).live) = s.isCameraEnabled ∧
      s.cameraEnabled = s.isCameraEnabled := by
  unfold State.CameraShown
  rw [h.enabled]
  cases s.videoTrack with
  | none => cases s.isCameraEnabled <;> simp
  | some t => cases hs : s.isCameraEnabled <;> simp

/-! ## The server -/

theorem handle_publishState {srv : Server} {sessionID : SessionID} (ho : srv.ownsSfuSession sessionID)
    (active : Bool) : srv.handle (.sfuPublishState sessionID SourceCamera active) =
      srv.setPublishState SourceCamera active := if_pos ⟨ho,Or.inr rfl⟩

theorem agrees_setPublishState {srv : Server} {sessionID : SessionID} (ho : srv.ownsSfuSession sessionID)
    (source : Source) (active shown : Bool) :
    (srv.setPublishState source active).agrees source shown = true ↔ active = shown := by
  obtain ⟨session,hs,-⟩ := Option.map_eq_some_iff.mp ho.2
  unfold Server.setPublishState Server.agrees
  rw [hs]
  simp [Session.agrees]

/-- An announcement is about one source. -/
theorem agrees_setPublishState_of_ne (srv : Server) {source source' : Source} (hne : source' ≠ source)
    (active shown : Bool) :
    (srv.setPublishState source active).agrees source' shown = srv.agrees source' shown := by
  unfold Server.setPublishState Server.agrees
  cases srv.session with
  | none => rfl
  | some session => simp [Session.agrees, Function.update_of_ne hne]

theorem settle_all (sys : System) (client : State) : sys.settle (fun _ => true) client =
    ⟨client.flush,client.sent.foldl Server.handle sys.server⟩ := by
  unfold System.settle
  rw [List.filter_eq_self.mpr (fun c _ => Bool.or_true _)]

/-! ## The rejoin -/

theorem step_rejoin {delivered : Command → Bool} (he : step sys (.rejoin channelID a delivered) = some sys') :
    mayRejoin sys channelID a ∧ sys' = sys.settle delivered (sys.client.rejoin channelID a).1 := by
  by_cases hm : mayRejoin sys channelID a
  · rw [step,if_pos hm] at he
    exact ⟨hm,(Option.some.inj he).symm⟩
  · rw [step,if_neg hm] at he
    cases he

/-- The announcement settles the camera and leaves the rest as it is. -/
theorem restored_announced {srv : Server} {sessionID : SessionID} (h : Slots s) (hpc : s.pc.isSome = true)
    (ho : srv.ownsSfuSession sessionID) :
    Restored ⟨s,srv.setPublishState SourceCamera s.cameraEnabled⟩ ↔ s.CameraShown ∧
      SourceRestored ⟨s,srv⟩ SourceScreen s.isScreenSharing ∧
      srv.voiceStatusByUser = some ⟨s.isMicEnabled,s.isDeafened⟩ := by
  have hne : SourceScreen ≠ SourceCamera := by decide
  unfold Restored SourceRestored
  rw [cameraShown_iff h,← carriesLive_of_slot (h.camera hpc)]
  dsimp only
  rw [agrees_setPublishState ho,agrees_setPublishState_of_ne srv hne]
  constructor
  · rintro ⟨hcamera,hscreen,-,hstatus⟩
    exact ⟨hcamera,hscreen,hstatus⟩
  · rintro ⟨hcamera,hscreen,hstatus⟩
    exact ⟨hcamera,hscreen,fun _ => h.mic hpc,hstatus⟩

theorem flush_send (s : State) (c : Command) : (s.send c).flush = s.flush := rfl

theorem restored_resume (h : Settled sys) (hres : sys.client.Resumable channelID)
    (ho : sys.server.ownsSfuSession sys.client.sessionID) :
    Restored (sys.settle (fun _ => true) sys.client.resume) ↔ sys.client.CameraShown ∧
      SourceRestored sys SourceScreen sys.client.isScreenSharing ∧
      sys.server.voiceStatusByUser = some sys.voiceStatus := by
  let s : State := { sys.client with sessionLostHandled := false, callStatus := .connected }
  have hslots : Slots s := h.slots.congr rfl
  have hresume : sys.client.resume =
      s.send (.sfuPublishState sys.client.sessionID SourceCamera sys.client.cameraEnabled) :=
    hslots.restoreCameraState_eq hres.1 hres.2.1
  have hsent : (s.send (.sfuPublishState sys.client.sessionID SourceCamera sys.client.cameraEnabled)).sent =
      [.sfuPublishState sys.client.sessionID SourceCamera sys.client.cameraEnabled] :=
    congrArg (· ++ _) h.sent
  have hflush : Slots s.flush := hslots.congr rfl
  rw [settle_all,hresume,hsent,flush_send,List.foldl_cons,List.foldl_nil,handle_publishState ho]
  exact restored_announced hflush hres.1 ho

/-- A new session has no screen in it. -/
theorem sourceRestored_rejoined (s : State) (srv : Server) (sessionID : SessionID) (shown : Bool) :
    SourceRestored ⟨(s.rejoined channelID sessionID).flush,srv.handle (.joinVoiceChannel channelID sessionID)⟩
      SourceScreen shown ↔ shown = false := by
  have hcarries : (s.rejoined channelID sessionID).flush.carriesLive SourceScreen = false :=
    carriesLive_rejoined s channelID sessionID
  unfold SourceRestored
  rw [hcarries]
  constructor
  · intro hr
    exact hr.1.symm
  · intro hr
    rw [hr]
    exact ⟨rfl,rfl⟩

/-- What is captured and shown outlives the connection. -/
theorem shown_rejoined (s : State) (channelID : ChannelID) (sessionID : SessionID) :
    (s.rejoined channelID sessionID).flush.cameraEnabled = s.cameraEnabled ∧
      (s.rejoined channelID sessionID).flush.isScreenSharing = s.isScreenSharing ∧
      (s.rejoined channelID sessionID).flush.isMicEnabled = s.isMicEnabled ∧
      (s.rejoined channelID sessionID).flush.isDeafened = s.isDeafened := by
  unfold State.rejoined State.flush
  exact ⟨rfl,rfl,rfl,rfl⟩

theorem cameraShown_rejoined (s : State) (channelID : ChannelID) (sessionID : SessionID) :
    (s.rejoined channelID sessionID).flush.CameraShown ↔ s.CameraShown := by
  unfold State.CameraShown State.videoTrack State.rejoined State.flush
  dsimp only [State.openPeerConnection, State.applySession, State.send, State.teardownPeerConnection]
  exact Iff.rfl

/-- The server takes a new session's user for unmuted. -/
theorem restored_afresh (h : Settled sys) (hret : (sys.client.rejoinAfresh channelID a).2 = true) :
    Restored (sys.settle (fun _ => true) (sys.client.rejoinAfresh channelID a).1) ↔
      sys.client.CameraShown ∧ sys.client.isScreenSharing = false ∧ sys.voiceStatus = ⟨true,false⟩ := by
  obtain ⟨sessionID,hs,heq⟩ := rejoinAfresh_eq h.slots hret
  have ho : (sys.server.handle (.joinVoiceChannel channelID sessionID)).ownsSfuSession sessionID :=
    ⟨hs,rfl⟩
  have hsent : ((sys.client.rejoined channelID sessionID).send
      (.sfuPublishState sessionID SourceCamera sys.client.cameraEnabled)).sent =
        [.joinVoiceChannel channelID sessionID,
          .sfuPublishState sessionID SourceCamera sys.client.cameraEnabled] :=
    congrArg (fun sent => (sent ++ _) ++ _) h.sent
  have hslots : Slots (sys.client.rejoined channelID sessionID).flush :=
    (h.slots.rejoined channelID sessionID).congr rfl
  obtain ⟨hcamera,hscreen,hmic,hdeafened⟩ := shown_rejoined sys.client channelID sessionID
  have hann := restored_announced hslots rfl ho
  rw [hcamera,hscreen,hmic,hdeafened,cameraShown_rejoined,sourceRestored_rejoined] at hann
  rw [settle_all,heq,hsent,flush_send,List.foldl_cons,List.foldl_cons,List.foldl_nil,
    handle_publishState ho,hann]
  refine and_congr_right (fun _ => and_congr_right (fun _ => ?_))
  constructor
  · intro hr
    exact (Option.some.inj hr).symm
  · intro hr
    exact congrArg some hr.symm

/-! ## The theorem -/

/-- When a rejoin that succeeds restores what is shown. -/
theorem media_restored {es : List Event} (hr : Runs step initial es sys)
    (hret : (sys.client.rejoin channelID a).2 = true)
    (he : step sys (.rejoin channelID a (fun _ => true)) = some sys') :
    Restored sys' ↔ Restorable channelID a sys := by
  have h := settled_runs hr
  obtain ⟨hm,rfl⟩ := step_rejoin he
  unfold State.rejoin at hret ⊢
  rw [if_neg (not_le.mpr hm.1)] at hret ⊢
  unfold Restorable
  by_cases hres : sys.client.Resumable channelID ∧ a.resume = true
  · rw [if_pos hres,if_pos hres]
    exact restored_resume h hres.1 (hm.2.2 hres)
  · rw [if_neg hres] at hret
    rw [if_neg hres,if_neg hres]
    exact restored_afresh h hret

/-- A call with the camera on. Its session closes while the socket is away. -/
def cameraCall : List Event :=
  [.operate (.handleJoinVoice 7 (.granted false) ⟨false,some "a",true⟩) (fun _ => true),
    .operate (.toggleCamera (.granted true)) (fun _ => true),.onTrack SourceCamera,.sessionCloses]

/-- A call with the screen shared. -/
def screenCall : List Event :=
  [.operate (.handleJoinVoice 7 (.granted false) ⟨false,some "a",true⟩) (fun _ => true),
    .operate (.toggleScreenShare (.granted true)) (fun _ => true),.onTrack SourceScreen,.sessionCloses]

/-- The resume is refused, the join is not. -/
def joinedAfresh : Answers := ⟨false,some "b",true⟩

theorem camera_restored : Restored (after step (after step initial cameraCall)
    [.rejoin 7 joinedAfresh (fun _ => true)]) :=
  (media_restored (runs_after (by decide +kernel)) (by decide +kernel)
    (step_after (by decide +kernel))).mpr (by decide +kernel)

theorem screen_not_restored : ¬∀ (es : List Event) (sys sys' : System) (channelID : ChannelID) (a : Answers),
    Runs step initial es sys → (sys.client.rejoin channelID a).2 = true →
      step sys (.rejoin channelID a (fun _ => true)) = some sys' → Restored sys' := by
  intro h
  have hr := h screenCall _ _ 7 joinedAfresh (runs_after (by decide +kernel)) (by decide +kernel)
    (step_after (by decide +kernel))
  revert hr
  decide +kernel

end MiniDiscord.CallClient
