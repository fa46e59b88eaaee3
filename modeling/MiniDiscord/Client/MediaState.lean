import MiniDiscord.Client.SessionRecovery
import MiniDiscord.Transition.LabelledRuns

/-! # Media state

The client with what the server knows of its user. Commands go to the server in the order they
were sent; those that nobody waits for may be lost with the socket.
-/
namespace MiniDiscord.CallClient
open ChatHub SfuTrack Transition

/-! ## The server -/

/-- The user's peer: what it has published, and what was announced of it. -/
structure Session where
  sessionID : SessionID
  published : Source → Bool
  publishState : Source → Option Bool

/-- The session of the user, and `voiceStatusByUser`; without a session the user is in no voice
channel. -/
structure Server where
  session : Option Session
  voiceStatusByUser : Option VoiceStatus

namespace Server
variable (srv : Server)

def ownsSfuSession (sessionID : SessionID) : Prop :=
  sessionID ≠ "" ∧ srv.session.map Session.sessionID = some sessionID

instance (sessionID : SessionID) : Decidable (srv.ownsSfuSession sessionID) := by
  unfold ownsSfuSession
  infer_instance

def setPublishState (source : Source) (active : Bool) : Server :=
  { srv with session := srv.session.map (fun session =>
      { session with publishState := Function.update session.publishState source (some active) }) }

/-- `OnTrack` of a source. -/
def onTrack (source : Source) : Server :=
  { srv with session := srv.session.map (fun session =>
      { session with published := Function.update session.published source true }) }

def handle : Command → Server
  | .joinVoiceChannel _ sessionID => ⟨some ⟨sessionID,fun _ => false,fun _ => none⟩,some ⟨true,false⟩⟩
  | .leaveVoiceChannel => ⟨none,none⟩
  | .changeVoiceStatus status =>
    if srv.session.isSome = true then { srv with voiceStatusByUser := some status } else srv
  | .sfuPublishState sessionID source active =>
    if srv.ownsSfuSession sessionID ∧ (source = SourceScreen ∨ source = SourceCamera) then
      srv.setPublishState source active
    else srv

end Server

/-! ## The system -/

structure System where
  client : State
  server : Server

/-- The last four are the server's: media of a source arrives, the session is closed, and
another connection of the user joins or changes the status. -/
inductive Event where
  | operate (op : Operation) (delivered : Command → Bool)
  | rejoin (channelID : ChannelID) (a : Answers) (delivered : Command → Bool)
  | onTrack (source : Source)
  | sessionCloses
  | joinsElsewhere (channelID : ChannelID) (sessionID : SessionID)
  | changesStatusElsewhere (status : VoiceStatus)

def initial : System := ⟨init,⟨none,none⟩⟩

/-- The ack of a join shows that the server has handled it. -/
def Command.acked : Command → Bool
  | .joinVoiceChannel _ _ => true
  | _ => false

/-- The server handles what reached it of the operation's commands. -/
def System.settle (sys : System) (delivered : Command → Bool) (client : State) : System where
  client := client.flush
  server := (client.sent.filter (fun c => c.acked || delivered c)).foldl Server.handle sys.server

/-- The reconnect rejoins the channel shown, the recovery the one the session was in. The server
resumes only the session that it has. -/
def mayRejoin (sys : System) (channelID : ChannelID) (a : Answers) : Prop :=
  0 < channelID ∧ (channelID = sys.client.voiceChannelId ∨ channelID = sys.client.currentChannelID) ∧
    (sys.client.Resumable channelID ∧ a.resume = true → sys.server.ownsSfuSession sys.client.sessionID)

instance (sys : System) (channelID : ChannelID) (a : Answers) : Decidable (mayRejoin sys channelID a) := by
  unfold mayRejoin
  infer_instance

def step (sys : System) : Event → Option System
  | .operate op delivered => some (sys.settle delivered (sys.client.operate op))
  | .rejoin channelID a delivered =>
    if mayRejoin sys channelID a then some (sys.settle delivered (sys.client.rejoin channelID a).1)
    else none
  | .onTrack source => some { sys with server := sys.server.onTrack source }
  | .sessionCloses => some { sys with server := sys.server.handle .leaveVoiceChannel }
  | .joinsElsewhere channelID sessionID =>
    some { sys with server := sys.server.handle (.joinVoiceChannel channelID sessionID) }
  | .changesStatusElsewhere status =>
    some { sys with server := sys.server.handle (.changeVoiceStatus status) }

/-! ## What the slots hold -/

variable {s s' : State} {sys sys' : System} {op : Operation}

/-- The camera is on if it is captured. -/
structure Captured (s : State) : Prop where
  enabled : s.cameraEnabled = s.videoTrack.isSome
  captured : s.localStream.isSome = true → s.capture = true
  raw : s.rawTrack.isSome = true → s.capture = true

/-- The slots of a connection carry what is captured. -/
structure Slots (s : State) : Prop extends Captured s where
  mic : s.pc.isSome = true → s.senderBySource SourceMic = some s.audioTrack
  camera : s.pc.isSome = true → s.senderBySource SourceCamera = some s.videoTrack

namespace State

/-- The part of the state that `Slots` is about. -/
def media (s : State) : Option PeerConnection × (Source → Option (Option Track)) ×
    Option MediaStream × Bool × Bool × Option Track :=
  (s.pc,s.senderBySource,s.localStream,s.cameraEnabled,s.capture,s.rawTrack)

@[simp] theorem media_announcePublishState (s : State) (source : Source) (active : Bool) :
    (s.announcePublishState source active).media = s.media := by
  obtain ⟨sent,h⟩ := s.announcePublishState_eq source active
  rw [h]
  rfl

@[simp] theorem media_changeVoiceStatus (s : State) : s.changeVoiceStatus.media = s.media := by
  obtain ⟨sent,h⟩ := s.changeVoiceStatus_eq
  rw [h]
  rfl

@[simp] theorem media_foldl_stop (ts : List Track) (s : State) :
    (ts.foldl stop s).media = s.media := by
  obtain ⟨tracks,h⟩ := s.foldl_stop_eq ts
  rw [h]
  rfl

@[simp] theorem media_release (s : State) (track : Option Track) : (s.release track).media = s.media := by
  obtain ⟨tracks,h⟩ := s.release_eq track
  rw [h]
  rfl

theorem media_stopAll (s : State) : s.stopAll.media =
    (s.pc,s.senderBySource,s.localStream,s.cameraEnabled,false,none) := by
  have hstop := media_foldl_stop ((s.localStream.map MediaStream.getTracks).getD []) s
  simp only [media, Prod.mk.injEq] at hstop
  obtain ⟨hpc,hsender,hstream,hcamera,-,-⟩ := hstop
  unfold stopAll
  split
  · exact Prod.ext hpc (Prod.ext hsender (Prod.ext hstream (Prod.ext hcamera rfl)))
  · rfl

/-- The stream keeps its microphone. -/
theorem media_releaseCameraTrack (s : State) (hc : s.localStream.isSome = true → s.capture = true) :
    s.releaseCameraTrack.media = (s.pc,(s.replaceTrack SourceCamera none).senderBySource,
      s.localStream.map (fun stream => ⟨stream.audioTracks,[]⟩),s.cameraEnabled,s.capture,s.rawTrack) := by
  have hs := media_release (s.replaceTrack SourceCamera none) s.videoTrack
  simp only [media, Prod.mk.injEq] at hs
  obtain ⟨hpc,hsender,hstream,hcamera,hcapture,hraw⟩ := hs
  fun_cases releaseCameraTrack s with
  | case1 s₁ hl =>
    have hl' : s.localStream = none := hstream.symm.trans hl
    rw [hl']
    exact Prod.ext hpc (Prod.ext hsender (Prod.ext hl (Prod.ext hcamera (Prod.ext hcapture hraw))))
  | case2 s₁ stream hl hcap =>
    have hl' : s.localStream = some stream := hstream.symm.trans hl
    rw [hl']
    exact Prod.ext hpc (Prod.ext hsender (Prod.ext rfl (Prod.ext hcamera (Prod.ext hcapture hraw))))
  | case3 s₁ stream hl hcap =>
    have hl' : s.localStream = some stream := hstream.symm.trans hl
    exact absurd (hcapture.trans (hc (by simp [hl']))) hcap

theorem replaceTrack_self (s : State) (source : Source) (track : Option Track) :
    (s.replaceTrack source track).senderBySource source =
      (s.senderBySource source).map (fun _ => track) := Function.update_self _ _ _

theorem replaceTrack_of_ne (s : State) {source source' : Source} (h : source' ≠ source)
    (track : Option Track) :
    (s.replaceTrack source track).senderBySource source' = s.senderBySource source' :=
  Function.update_of_ne h _ _

end State

theorem Slots.congr (h : Slots s) (hm : s'.media = s.media) : Slots s' := by
  simp only [State.media, Prod.mk.injEq] at hm
  obtain ⟨hpc,hsender,hstream,hcamera,hcapture,hraw⟩ := hm
  have haudio : s'.audioTrack = s.audioTrack := by rw [State.audioTrack,State.audioTrack,hstream]
  have hvideo : s'.videoTrack = s.videoTrack := by rw [State.videoTrack,State.videoTrack,hstream]
  refine ⟨⟨?_,?_,?_⟩,?_,?_⟩
  · rw [hcamera,hvideo]
    exact h.enabled
  · rw [hstream,hcapture]
    exact h.captured
  · rw [hraw,hcapture]
    exact h.raw
  · rw [hpc,hsender,haudio]
    exact h.mic
  · rw [hpc,hsender,hvideo]
    exact h.camera

theorem Slots.acquire (h : Slots s) (track : MediaStreamTrack) : Slots (s.acquire track) := h.congr rfl

theorem Slots.closed (hpc : s.pc = none) (hl : s.localStream = none) (hc : s.cameraEnabled = false)
    (hr : s.rawTrack = none) : Slots s := by
  refine ⟨⟨?_,?_,?_⟩,?_,?_⟩
  · simp [hc, State.videoTrack, hl]
  · simp [hl]
  · simp [hr]
  · simp [hpc]
  · simp [hpc]

/-- The screen's slot is nobody else's. -/
theorem Slots.replaceScreen (h : Slots s) (track : Option Track) :
    Slots (s.replaceTrack SourceScreen track) := by
  refine ⟨⟨h.enabled,h.captured,h.raw⟩,fun hpc => ?_,fun hpc => ?_⟩
  · rw [s.replaceTrack_of_ne (by decide)]
    exact h.mic hpc
  · rw [s.replaceTrack_of_ne (by decide)]
    exact h.camera hpc

/-- A camera track, or none, goes into the slot and the stream together. -/
theorem Slots.replaceCamera (h : Slots s) (track : Option Track)
    (ht : track.isSome = true → s.localStream.isSome = true)
    (hm : s'.media = (s.pc,(s.replaceTrack SourceCamera track).senderBySource,
      s.localStream.map (fun stream => ⟨stream.audioTracks,track.toList⟩),track.isSome,s.capture,
      s.rawTrack)) : Slots s' := by
  simp only [State.media, Prod.mk.injEq] at hm
  obtain ⟨hpc,hsender,hstream,hcamera,hcapture,hraw⟩ := hm
  have haudio : s'.audioTrack = s.audioTrack := by
    cases hl : s.localStream <;> simp [State.audioTrack, hstream, hl]
  have hvideo : s'.videoTrack = track := by
    cases track with
    | none => cases hl : s.localStream <;> simp [State.videoTrack, hstream, hl]
    | some t =>
      obtain ⟨stream,hl⟩ := Option.isSome_iff_exists.mp (ht rfl)
      simp [State.videoTrack, hstream, hl]
  refine ⟨⟨?_,fun hl => ?_,?_⟩,fun hp => ?_,fun hp => ?_⟩
  · rw [hcamera,hvideo]
  · rw [hstream,Option.isSome_map] at hl
    rw [hcapture]
    exact h.captured hl
  · rw [hraw,hcapture]
    exact h.raw
  · rw [hpc] at hp
    rw [hsender,haudio,s.replaceTrack_of_ne (by decide)]
    exact h.mic hp
  · rw [hpc] at hp
    rw [hsender,hvideo,s.replaceTrack_self,h.camera hp]
    rfl

/-! ## Operations -/

theorem Slots.swapMicTrack (h : Slots s) (hc : s.capture = true) (t : Track) :
    Slots (s.swapMicTrack t) := by
  have hbase : Slots ((s.replaceTrack SourceMic (some t)).setLocalStream
      (some ⟨[t],(s.localStream.map MediaStream.videoTracks).getD []⟩)) := by
    have hvideo : (((s.localStream.map MediaStream.videoTracks).getD []).head?) = s.videoTrack := by
      unfold State.videoTrack
      cases s.localStream <;> rfl
    have hne : SourceCamera ≠ SourceMic := by decide
    refine ⟨⟨?_,fun _ => hc,h.raw⟩,fun hp => ?_,fun hp => ?_⟩
    · exact h.enabled.trans (congrArg Option.isSome hvideo.symm)
    · refine (s.replaceTrack_self SourceMic (some t)).trans ?_
      rw [h.mic hp]
      rfl
    · refine (s.replaceTrack_of_ne hne (some t)).trans ((h.camera hp).trans ?_)
      exact congrArg some hvideo.symm
  fun_cases State.swapMicTrack s t
  · exact hbase.congr rfl
  · exact hbase.congr rfl
  · exact hbase.congr rfl

theorem Slots.setNoiseSuppressionMode (h : Slots s) (reacquired rnnoise : Bool) :
    Slots (s.setNoiseSuppressionMode reacquired rnnoise) := by
  unfold State.setNoiseSuppressionMode
  cases hr : s.rawTrack with
  | none => exact h
  | some raw =>
    have hc : s.capture = true := h.raw (by simp [hr])
    -- a new raw track is not in the stream yet
    have hraw : Slots { (s.stop raw).acquire ⟨true,true,none⟩ with rawTrack := some s.acquired } :=
      ⟨⟨h.enabled,h.captured,fun _ => hc⟩,h.mic,h.camera⟩
    cases reacquired with
    | true =>
      cases rnnoise with
      | true => exact (hraw.acquire _).swapMicTrack hc _
      | false => exact hraw.swapMicTrack hc _
    | false =>
      cases rnnoise with
      | true => exact (h.acquire _).swapMicTrack hc _
      | false => exact h.swapMicTrack hc _

theorem Slots.disableCamera (h : Slots s) : Slots s.disableCamera := by
  refine h.replaceCamera none (by simp) ?_
  unfold State.disableCamera
  rw [State.media_announcePublishState]
  exact State.media_releaseCameraTrack _ h.captured

theorem Slots.startCamera (h : Slots s) (prompt : Prompt) : Slots (s.startCamera prompt).1 := by
  fun_cases State.startCamera s prompt with
  | case1 => exact h
  | case2 => exact h
  | case3 => exact h
  | case4 => exact h.acquire _
  | case5 stream hl =>
    have hsome : s.localStream.isSome = true := by simp [hl]
    refine h.replaceCamera (some s.acquired) (fun _ => hsome) ?_
    rw [State.media_announcePublishState,hl]
    rfl

theorem Slots.setCameraEnabled (h : Slots s) (enabled : Bool) (prompt : Prompt) :
    Slots (s.setCameraEnabled enabled prompt).1 := by
  fun_cases State.setCameraEnabled s enabled prompt with
  | case1 => exact h
  | case2 => exact h.disableCamera
  | case3 => exact h.startCamera prompt

theorem Slots.toggleCameraFacingMode (h : Slots s) (prompt : Prompt) :
    Slots (s.toggleCameraFacingMode prompt) := by
  fun_cases State.toggleCameraFacingMode s prompt with
  | case1 => exact h
  | case2 => exact h
  | case3 => exact h.congr rfl
  | case4 stream current hv hl =>
    have hsome : s.localStream.isSome = true := by simp [hl]
    have hon : s.cameraEnabled = true := by simp [h.enabled, hv]
    refine h.replaceCamera (some s.acquired) (fun _ => hsome) ?_
    rw [hl]
    exact Prod.ext rfl (Prod.ext rfl (Prod.ext rfl (Prod.ext hon rfl)))
  | case5 => exact h

theorem Slots.startScreenShare (h : Slots s) (prompt : Prompt) :
    Slots (s.startScreenShare prompt).1 := by
  fun_cases State.startScreenShare s prompt with
  | case1 => exact h
  | case2 => exact h
  | case3 => exact h
  | case4 => exact h.congr rfl
  | case5 =>
    refine Slots.congr (Slots.replaceScreen (h.congr ?_) (some s.acquired))
      (State.media_announcePublishState _ _ _)
    rfl

theorem Slots.stopScreenShare (h : Slots s) : Slots s.stopScreenShare := by
  fun_cases State.stopScreenShare s with
  | case1 => exact h
  | case2 stream =>
    have hstop := State.media_foldl_stop stream.videoTracks { s with screenStream := none }
    refine Slots.congr ?_ (State.media_announcePublishState _ _ _)
    exact (Slots.replaceScreen (h.congr hstop) none).congr rfl

theorem Slots.toggleScreenShare (h : Slots s) (prompt : Prompt) : Slots (s.toggleScreenShare prompt) := by
  fun_cases State.toggleScreenShare s prompt with
  | case1 => exact h
  | case2 => exact h.stopScreenShare.congr rfl
  | case3 => exact (h.startScreenShare prompt).congr rfl
  | case4 => exact h.startScreenShare prompt

theorem Slots.ended (h : Slots s) (t : Track) : Slots (s.ended t) := by
  have hstop : Slots (s.stop t) := h.congr rfl
  fun_cases State.ended s t with
  | case1 => exact h
  | case2 => exact hstop
  | case3 => exact hstop.setCameraEnabled false .refused
  | case4 => exact hstop.stopScreenShare

/-! ## Sessions -/

namespace State

theorem sender_openPeerConnection (s : State) (opens : Bool) :
    (s.openPeerConnection opens).senderBySource SourceMic = some s.audioTrack ∧
      (s.openPeerConnection opens).senderBySource SourceCamera = some s.videoTrack ∧
      (s.openPeerConnection opens).senderBySource SourceScreen = some none := by
  have hmic : s.localTrackForSource SourceMic = s.audioTrack := if_pos rfl
  have hcamera : s.localTrackForSource SourceCamera = s.videoTrack :=
    (if_neg (by decide)).trans (if_pos rfl)
  have hscreen : s.localTrackForSource SourceScreen = none :=
    (if_neg (by decide)).trans (if_neg (by decide))
  unfold openPeerConnection publishSlots
  simp only [List.foldl_cons, List.foldl_nil, hmic, hcamera, hscreen]
  refine ⟨?_,?_,?_⟩ <;>
    simp [SourceMic, SourceCamera, SourceScreen, SourceScreenAudio]

/-- A slot that has the camera's track keeps it. -/
theorem restoreCameraState_eq (s : State) (h : s.senderBySource SourceCamera = some s.videoTrack) :
    s.restoreCameraState = s.announcePublishState SourceCamera (s.cameraEnabled && s.videoTrack.isSome) := by
  have hs : s.replaceTrack SourceCamera s.videoTrack = s := by
    unfold replaceTrack
    rw [h]
    dsimp only [Option.map_some]
    rw [← h,Function.update_eq_self]
  unfold restoreCameraState
  dsimp only
  split
  · rw [hs]
  · rfl

end State

theorem Captured.openPeerConnection (h : Captured s) (opens : Bool) : Slots (s.openPeerConnection opens) := by
  obtain ⟨hmic,hcamera,-⟩ := s.sender_openPeerConnection opens
  exact ⟨⟨h.enabled,h.captured,h.raw⟩,fun _ => hmic,fun _ => hcamera⟩

theorem Slots.restoreCameraState (h : Slots s) (hpc : s.pc.isSome = true) : Slots s.restoreCameraState := by
  rw [s.restoreCameraState_eq (h.camera hpc)]
  exact h.congr (State.media_announcePublishState _ _ _)

theorem Slots.start (h : Slots s) (channelID : ChannelID) (sessionID : SessionID) (opens : Bool) :
    Slots (s.start channelID sessionID opens).1 := by
  have hsession : Captured (s.applySession channelID sessionID) := ⟨h.enabled,h.captured,h.raw⟩
  have hopen := hsession.openPeerConnection opens
  unfold State.start
  split
  · exact h
  · cases opens with
    | true => exact hopen.restoreCameraState rfl
    | false => exact hopen

theorem Slots.rejoin (h : Slots s) (channelID : ChannelID) (a : Answers) :
    Slots (s.rejoin channelID a).1 := by
  unfold State.rejoin
  split
  · exact h
  · split
    · next hres =>
      have hs : Slots { s with sessionLostHandled := false, callStatus := .connected } := h.congr rfl
      exact hs.restoreCameraState hres.1.1
    · have hdown : Slots s.teardownPeerConnection :=
        ⟨⟨h.enabled,h.captured,h.raw⟩,(fun hp => by cases hp),(fun hp => by cases hp)⟩
      unfold State.rejoinAfresh
      cases a.join with
      | none => exact hdown
      | some sessionID =>
        have hsent : Slots (s.teardownPeerConnection.send (.joinVoiceChannel channelID sessionID)) :=
          hdown.congr rfl
        exact hsent.start _ _ _

namespace State

theorem leave_closes (s : State) : s.leave.pc = none ∧ s.leave.cameraEnabled = false := by
  let s₁ := (if 0 < s.currentChannelID then s.send .leaveVoiceChannel else s).teardownPeerConnection
  let s₂ := s₁.stopTracks s₁.screenStream
  let s₃ := onLocalScreenStream { s₂ with screenStream := none, cameraEnabled := false } none
  have h₂ : s₂.media = s₁.media := media_foldl_stop _ _
  have h₃ := s₃.media_stopAll
  simp only [media, Prod.mk.injEq] at h₂ h₃
  exact ⟨h₃.1.trans h₂.1,h₃.2.2.2.1⟩

theorem media_acquireMicrophone (s : State) (microphone : Microphone) :
    (s.acquireMicrophone microphone).1.media = s.media := by
  fun_cases acquireMicrophone s microphone <;> rfl

/-- The camera is captured later. -/
theorem acquireMicrophone_video (s : State) (microphone : Microphone) :
    (s.acquireMicrophone microphone).2.2.bind (fun stream => stream.videoTracks.head?) = none := by
  fun_cases acquireMicrophone s microphone <;> rfl

end State

theorem Slots.leave (s : State) : Slots s.leave := Slots.closed s.leave_closes.1 rfl s.leave_closes.2 rfl

theorem Slots.join (h : Slots s) (channelID : ChannelID) (microphone : Microphone) (a : Answers) :
    Slots (s.join channelID microphone a).1 := by
  have hmedia := s.leave.media_acquireMicrophone microphone
  have hvideo := s.leave.acquireMicrophone_video microphone
  have hmicrophone := (Slots.leave s).congr hmedia
  have hpc : (s.leave.acquireMicrophone microphone).1.pc = none :=
    (congrArg Prod.fst hmedia).trans s.leave_closes.1
  unfold State.join
  split
  · exact h
  · dsimp only
    cases a.join with
    | none => exact hmicrophone
    | some sessionID =>
      dsimp only
      split
      · exact hmicrophone.congr rfl
      · refine Slots.start ⟨⟨?_,fun _ => rfl,fun _ => rfl⟩,fun hp => ?_,fun hp => ?_⟩ _ _ _
        · exact (congrArg Option.isSome hvideo).symm
        · exact absurd (hpc.symm ▸ hp) (by decide)
        · exact absurd (hpc.symm ▸ hp) (by decide)

theorem Slots.operate (h : Slots s) (op : Operation) : Slots (s.operate op) := by
  cases op with
  | handleJoinVoice channelID microphone a =>
    have hjoin := h.join channelID microphone a
    unfold State.operate State.handleJoinVoice
    dsimp only
    split
    · exact h
    · split
      · exact hjoin.congr rfl
      · exact hjoin
  | handleLeaveVoice => exact (Slots.leave s).congr rfl
  | toggleMicrophone =>
    unfold State.operate State.toggleMicrophone
    dsimp only
    split
    · exact h
    · exact h.congr (State.media_changeVoiceStatus _)
  | toggleDeafen =>
    unfold State.operate State.toggleDeafen
    dsimp only
    split <;> exact h.congr (State.media_changeVoiceStatus _)
  | toggleCamera prompt => exact (h.setCameraEnabled _ prompt).congr rfl
  | toggleCameraFacingMode prompt => exact h.toggleCameraFacingMode prompt
  | toggleScreenShare prompt => exact h.toggleScreenShare prompt
  | setNoiseSuppressionMode reacquired rnnoise => exact h.setNoiseSuppressionMode reacquired rnnoise
  | ended t => exact h.ended t

/-- Between two events nothing is waiting to be sent. -/
structure Settled (sys : System) : Prop where
  slots : Slots sys.client
  sent : sys.client.sent = []

theorem settled_step {e : Event} (h : Settled sys) (he : step sys e = some sys') : Settled sys' := by
  cases e with
  | operate op delivered =>
    obtain rfl := Option.some.inj he
    exact ⟨(h.slots.operate op).congr rfl,rfl⟩
  | rejoin channelID a delivered =>
    by_cases hm : mayRejoin sys channelID a
    · rw [step,if_pos hm] at he
      obtain rfl := Option.some.inj he
      exact ⟨(h.slots.rejoin channelID a).congr rfl,rfl⟩
    · rw [step,if_neg hm] at he
      cases he
  | onTrack source =>
    obtain rfl := Option.some.inj he
    exact ⟨h.slots,h.sent⟩
  | sessionCloses =>
    obtain rfl := Option.some.inj he
    exact ⟨h.slots,h.sent⟩
  | joinsElsewhere channelID sessionID =>
    obtain rfl := Option.some.inj he
    exact ⟨h.slots,h.sent⟩
  | changesStatusElsewhere status =>
    obtain rfl := Option.some.inj he
    exact ⟨h.slots,h.sent⟩

theorem settled_runs {es : List Event} (hr : Runs step initial es sys) : Settled sys :=
  hr.invariant ⟨Slots.closed rfl rfl rfl rfl,rfl⟩ (fun h _ he => settled_step h he)

end MiniDiscord.CallClient
