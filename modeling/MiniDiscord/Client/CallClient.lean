import MiniDiscord.Commands.Voice

/-! # The call client

`SfuCallClient` and `LocalCapture`, with the part of `useVoice` that drives them: what is
captured, what the slots of the peer connection carry, what is shown. An operation is taken
to its end; what it waits for, a device or an ack, is an argument.
-/
namespace MiniDiscord.CallClient
open ChatHub SfuTrack

/-! ## Tracks -/

abbrev Track := ℕ

/-- What a track calls when its source ends it. -/
inductive OnEnded where
  | setCameraEnabled
  | stopScreenShare
  deriving DecidableEq

/-- `live` is the track's `readyState`. -/
structure MediaStreamTrack where
  live : Bool
  enabled : Bool
  onended : Option OnEnded
  deriving DecidableEq

structure MediaStream where
  audioTracks : List Track
  videoTracks : List Track
  deriving DecidableEq

def MediaStream.getTracks (stream : MediaStream) : List Track := stream.audioTracks ++ stream.videoTracks

/-- The answer to a prompt for the camera or the screen; `attached` is whether the slot takes
the track. -/
inductive Prompt where
  | refused
  | granted (attached : Bool)
  deriving DecidableEq

/-- The answer to the prompt for the microphone; `rnnoise` is whether its graph could be built. -/
inductive Microphone where
  | refused
  | granted (rnnoise : Bool)
  deriving DecidableEq

/-! ## The state -/

inductive CallStatus where
  | connected
  | reconnecting
  | lost
  deriving DecidableEq

/-- What is handed to the socket. A join is put down when its ack has come, with the session
in it. -/
inductive Command where
  | joinVoiceChannel (channelID : ChannelID) (sessionID : SessionID)
  | leaveVoiceChannel
  | changeVoiceStatus (status : VoiceStatus)
  | sfuPublishState (sessionID : SessionID) (source : Source) (active : Bool)
  deriving DecidableEq

/-- What comes of the commands that are waited for: whether the session is resumed, the
`session_id` of the join's ack, and whether the offer is made and acked. -/
structure Answers where
  resume : Bool
  join : Option SessionID
  opens : Bool
  deriving DecidableEq

/-- `offered`: `openPeerConnection` has come to its end. -/
structure PeerConnection where
  offered : Bool
  deriving DecidableEq

/-- The browser's tracks, the fields of `LocalCapture` and `SfuCallClient`, the commands of the
operation under way, and the state of `useVoice`. The stream of the capture is `localStream`. -/
structure State where
  tracks : Track → MediaStreamTrack
  acquired : ℕ
  capture : Bool
  rawTrack : Option Track
  localStream : Option MediaStream
  screenStream : Option MediaStream
  cameraEnabled : Bool
  pc : Option PeerConnection
  sessionID : SessionID
  currentChannelID : ChannelID
  senderBySource : Source → Option (Option Track)
  sessionLostHandled : Bool
  recoveryGeneration : ℕ
  sent : List Command
  voiceChannelId : ChannelID
  callStatus : CallStatus
  isMicEnabled : Bool
  isDeafened : Bool
  micBeforeDeafen : Bool
  isCameraEnabled : Bool
  isScreenSharing : Bool

def init : State where
  tracks := fun _ => ⟨false,false,none⟩
  acquired := 0
  capture := false
  rawTrack := none
  localStream := none
  screenStream := none
  cameraEnabled := false
  pc := none
  sessionID := ""
  currentChannelID := 0
  senderBySource := fun _ => none
  sessionLostHandled := false
  recoveryGeneration := 0
  sent := []
  voiceChannelId := 0
  callStatus := .connected
  isMicEnabled := true
  isDeafened := false
  micBeforeDeafen := true
  isCameraEnabled := false
  isScreenSharing := false

namespace State
variable (s : State)

def send (c : Command) : State := { s with sent := s.sent ++ [c] }

/-- The commands are on their way. -/
def flush : State := { s with sent := [] }

/-- The track that is captured next is `s.acquired`. -/
def acquire (track : MediaStreamTrack) : State :=
  { s with tracks := Function.update s.tracks s.acquired track, acquired := s.acquired + 1 }

def stop (t : Track) : State :=
  { s with tracks := Function.update s.tracks t { s.tracks t with live := false } }

def setOnended (t : Track) (f : Option OnEnded) : State :=
  { s with tracks := Function.update s.tracks t { s.tracks t with onended := f } }

def stopTracks (stream : Option MediaStream) : State :=
  ((stream.map MediaStream.getTracks).getD []).foldl stop s

/-- `senderBySource.get(source)?.replaceTrack(track)` -/
def replaceTrack (source : Source) (track : Option Track) : State :=
  let sender := (s.senderBySource source).map (fun _ => track)
  { s with senderBySource := Function.update s.senderBySource source sender }

def audioTrack : Option Track := s.localStream.bind (fun stream => stream.audioTracks.head?)

def videoTrack : Option Track := s.localStream.bind (fun stream => stream.videoTracks.head?)

def isScreenShareActive : Bool :=
  match s.screenStream with
  | none => false
  | some stream =>
    match stream.videoTracks.head? with
    | none => true
    | some t => (s.tracks t).live

/-! ## The listeners of `useVoice` -/

def onLocalStream (stream : Option MediaStream) : State :=
  { s with
    isScreenSharing := s.isScreenShareActive
    isCameraEnabled := if stream.isSome then s.isCameraEnabled else false }

def onLocalScreenStream (stream : Option MediaStream) : State :=
  { s with isScreenSharing := stream.isSome }

def setLocalStream (stream : Option MediaStream) : State :=
  { s with localStream := stream }.onLocalStream stream

/-! ## Sessions -/

def announcePublishState (source : Source) (active : Bool) : State :=
  if s.sessionID = "" then s else s.send (.sfuPublishState s.sessionID source active)

def restoreCameraState : State :=
  let track := s.videoTrack
  let s := if s.cameraEnabled = true ∧ track.isSome = true then s.replaceTrack SourceCamera track else s
  s.announcePublishState SourceCamera (s.cameraEnabled && track.isSome)

def teardownPeerConnection : State :=
  { s with
    recoveryGeneration := s.recoveryGeneration + 1
    pc := none
    sessionID := ""
    senderBySource := fun _ => none
    currentChannelID := 0 }

/-- For an ack that has a `session_id`. -/
def applySession (channelID : ChannelID) (sessionID : SessionID) : State :=
  { s with
    sessionLostHandled := false
    callStatus := .connected
    sessionID := sessionID
    currentChannelID := channelID }

/-- The screen is attached by `startScreenShare`. -/
def localTrackForSource (source : Source) : Option Track :=
  if source = SourceMic then s.audioTrack
  else if source = SourceCamera then s.videoTrack
  else none

/-- The senders are in place before the offer is made. -/
def openPeerConnection (opens : Bool) : State :=
  { s with
    pc := some ⟨opens⟩
    senderBySource := publishSlots.foldl (fun senders slot =>
      Function.update senders slot.2 (some (s.localTrackForSource slot.2))) (fun _ => none) }

/-- What `join` and `rejoin` do with the ack of the join: `false` if they throw. -/
def start (channelID : ChannelID) (sessionID : SessionID) (opens : Bool) : State × Bool :=
  if sessionID = "" then (s,false)
  else
    let s := (s.applySession channelID sessionID).openPeerConnection opens
    if opens = true then (s.restoreCameraState,true) else (s,false)

/-- `rejoin` tries `sfu_resume` first. -/
def Resumable (channelID : ChannelID) : Prop :=
  s.pc.isSome = true ∧ s.sessionID ≠ "" ∧ s.currentChannelID = channelID

instance (channelID : ChannelID) : Decidable (s.Resumable channelID) := by
  unfold Resumable
  infer_instance

def resume : State :=
  { s with sessionLostHandled := false, callStatus := .connected }.restoreCameraState

/-- The fallback of `rejoin`. -/
def rejoinAfresh (channelID : ChannelID) (a : Answers) : State × Bool :=
  let s := s.teardownPeerConnection
  match a.join with
  | none => (s,false)
  | some sessionID => (s.send (.joinVoiceChannel channelID sessionID)).start channelID sessionID a.opens

/-- `false` if it throws. -/
def rejoin (channelID : ChannelID) (a : Answers) : State × Bool :=
  if channelID ≤ 0 then (s,true)
  else if s.Resumable channelID ∧ a.resume = true then (s.resume,true)
  else s.rejoinAfresh channelID a

/-- `this.capture?.stopAll()`, and the capture is dropped. -/
def stopAll : State :=
  { (if s.capture = true then s.stopTracks s.localStream else s) with
    capture := false
    rawTrack := none }

def leave : State :=
  let s := if 0 < s.currentChannelID then s.send .leaveVoiceChannel else s
  let s := s.teardownPeerConnection
  let s := s.stopTracks s.screenStream
  let s := { s with screenStream := none, cameraEnabled := false }.onLocalScreenStream none
  s.stopAll.setLocalStream none

/-- `LocalCapture.acquire` for a new capture: the raw track, and the stream with the raw or the
processed one. -/
def acquireMicrophone : Microphone → State × Option Track × Option MediaStream
  | .refused => (s,none,none)
  | .granted false => (s.acquire ⟨true,true,none⟩,some s.acquired,some ⟨[s.acquired],[]⟩)
  | .granted true => ((s.acquire ⟨true,true,none⟩).acquire ⟨true,true,none⟩,some s.acquired,
      some ⟨[s.acquired + 1],[]⟩)

/-- `false` if it throws. -/
def join (channelID : ChannelID) (microphone : Microphone) (a : Answers) : State × Bool :=
  if s.currentChannelID = channelID then (s,true)
  else
    let (s,rawTrack,stream) := s.leave.acquireMicrophone microphone
    match a.join with
    | none => (s,false)
    | some sessionID =>
      let s := s.send (.joinVoiceChannel channelID sessionID)
      if s.currentChannelID = channelID then (s,true)
      else
        let s := { s with capture := true, rawTrack := rawTrack, cameraEnabled := false }
        (s.setLocalStream stream).start channelID sessionID a.opens

/-! ## Microphone, camera and screen -/

def setMicrophoneEnabled (enabled : Bool) : State :=
  let tracks := (s.localStream.map MediaStream.audioTracks).getD []
  { s with tracks := fun t => if t ∈ tracks then { s.tracks t with enabled := enabled } else s.tracks t }

def swapMicTrack (nextTrack : Track) : State :=
  let previousTrack := s.audioTrack
  let enabled := (previousTrack.map (fun t => (s.tracks t).enabled)).getD true
  let s := { s with tracks := Function.update s.tracks nextTrack { s.tracks nextTrack with enabled := enabled } }
  let s := s.replaceTrack SourceMic (some nextTrack)
  let s := s.setLocalStream (some ⟨[nextTrack],(s.localStream.map MediaStream.videoTracks).getD []⟩)
  match previousTrack with
  | none => s
  | some t => if t ≠ nextTrack ∧ s.rawTrack ≠ some t then s.stop t else s

/-- `LocalCapture.setMode` to another mode, or the watchdog's fallback to the raw track: the
microphone may have to be acquired again, and RNNoise gives a track of its own. -/
def setNoiseSuppressionMode (reacquired rnnoise : Bool) : State :=
  match s.rawTrack with
  | none => s
  | some raw =>
    let (s,raw) := if reacquired = true then
        ({ (s.stop raw).acquire ⟨true,true,none⟩ with rawTrack := some s.acquired },s.acquired)
      else (s,raw)
    if rnnoise = true then (s.acquire ⟨true,true,none⟩).swapMicTrack s.acquired else s.swapMicTrack raw

/-- The track is stopped without calling anybody. -/
def release : Option Track → State
  | none => s
  | some t => (s.setOnended t none).stop t

def releaseCameraTrack : State :=
  let s := (s.replaceTrack SourceCamera none).release s.videoTrack
  match s.localStream with
  | none => s
  | some stream => if s.capture = true then s.setLocalStream (some ⟨stream.audioTracks,[]⟩) else s

/-- `false` if it throws. -/
def startCamera (prompt : Prompt) : State × Bool :=
  match s.localStream with
  | none => (s,false)
  | some stream =>
    if s.capture = false ∨ s.senderBySource SourceCamera = none then (s,false)
    else
      match prompt with
      | .refused => (s,false)
      | .granted attached =>
        let track := s.acquired
        let s := s.acquire ⟨true,true,some .setCameraEnabled⟩
        if attached = false then (s,false)
        else
          let s := (s.replaceTrack SourceCamera (some track)).setLocalStream
            (some ⟨stream.audioTracks,[track]⟩)
          ({ s with cameraEnabled := true }.announcePublishState SourceCamera true,true)

def disableCamera : State :=
  { s with cameraEnabled := false }.releaseCameraTrack.announcePublishState SourceCamera false

def setCameraEnabled (enabled : Bool) (prompt : Prompt) : State × Bool :=
  if enabled = s.cameraEnabled then (s,true)
  else if enabled = false then (s.disableCamera,true)
  else s.startCamera prompt

/-- The replacement has no `onended`. -/
def toggleCameraFacingMode (prompt : Prompt) : State :=
  match s.localStream, s.videoTrack with
  | some stream, some current =>
    if s.isScreenShareActive = true ∨ s.capture = false ∨ s.senderBySource SourceCamera = none then s
    else
      match prompt with
      | .refused => s
      | .granted attached =>
        let replacement := s.acquired
        let s := s.acquire ⟨true,true,none⟩
        if attached = false then s.stop replacement
        else ((s.replaceTrack SourceCamera (some replacement)).setLocalStream
          (some ⟨stream.audioTracks,[replacement]⟩)).stop current
  | _, _ => s

/-- The stream is shown before the slot has its track. -/
def startScreenShare (prompt : Prompt) : State × Bool :=
  if s.isScreenShareActive = true then (s,true)
  else if s.senderBySource SourceScreen = none then (s,false)
  else
    match prompt with
    | .refused => (s,false)
    | .granted attached =>
      let track := s.acquired
      let s := s.acquire ⟨true,true,none⟩
      let s := { s with screenStream := some ⟨[],[track]⟩ }.onLocalScreenStream (some ⟨[],[track]⟩)
      if attached = false then (s,false)
      else (((s.replaceTrack SourceScreen (some track)).announcePublishState SourceScreen true).setOnended
        track (some .stopScreenShare),true)

def stopScreenShare : State :=
  match s.screenStream with
  | none => s
  | some stream =>
    let s := stream.videoTracks.foldl stop { s with screenStream := none }
    ((s.replaceTrack SourceScreen none).onLocalScreenStream none).announcePublishState SourceScreen false

/-- The source of a track ends it. -/
def ended (t : Track) : State :=
  if (s.tracks t).live = false then s
  else
    let s := s.stop t
    match (s.tracks t).onended with
    | none => s
    | some .setCameraEnabled => (s.setCameraEnabled false .refused).1
    | some .stopScreenShare => s.stopScreenShare

/-! ## `useVoice` -/

def changeVoiceStatus : State :=
  if 0 < s.voiceChannelId then s.send (.changeVoiceStatus ⟨s.isMicEnabled,s.isDeafened⟩) else s

def toggleMicrophone : State :=
  if s.isDeafened = true then s
  else ({ s with isMicEnabled := !s.isMicEnabled }.setMicrophoneEnabled !s.isMicEnabled).changeVoiceStatus

def toggleDeafen : State :=
  if s.isDeafened = false then
    ({ s with micBeforeDeafen := s.isMicEnabled, isDeafened := true, isMicEnabled := false
      }.setMicrophoneEnabled false).changeVoiceStatus
  else
    ({ s with isDeafened := false, isMicEnabled := s.micBeforeDeafen
      }.setMicrophoneEnabled s.micBeforeDeafen).changeVoiceStatus

def toggleCamera (prompt : Prompt) : State :=
  let next := !s.isCameraEnabled
  let r := s.setCameraEnabled next prompt
  { r.1 with isCameraEnabled := if r.2 = true then next else false }

def toggleScreenShare (prompt : Prompt) : State :=
  if s.localStream = none then s
  else if s.isScreenShareActive = true then { s.stopScreenShare with isScreenSharing := false }
  else
    let r := s.startScreenShare prompt
    if r.2 = true then { r.1 with isScreenSharing := true } else r.1

def handleJoinVoice (channelID : ChannelID) (microphone : Microphone) (a : Answers) : State :=
  if channelID ≤ 0 then s
  else
    let r := s.join channelID microphone a
    if r.2 = true then { r.1 with
      voiceChannelId := channelID
      isMicEnabled := true
      isDeafened := false
      isCameraEnabled := false
      isScreenSharing := false
      callStatus := .connected }
    else r.1

def handleLeaveVoice : State :=
  { s.leave with
    voiceChannelId := 0
    callStatus := .connected
    isMicEnabled := true
    isDeafened := false
    isCameraEnabled := false
    isScreenSharing := false }

/-! ## What small operations change -/

theorem announcePublishState_eq (source : Source) (active : Bool) :
    ∃ sent, s.announcePublishState source active = { s with sent := sent } := by
  unfold announcePublishState
  split
  · exact ⟨s.sent,rfl⟩
  · exact ⟨_,rfl⟩

theorem changeVoiceStatus_eq : ∃ sent, s.changeVoiceStatus = { s with sent := sent } := by
  unfold changeVoiceStatus
  split
  · exact ⟨_,rfl⟩
  · exact ⟨s.sent,rfl⟩

theorem foldl_stop_eq (ts : List Track) : ∃ tracks, ts.foldl stop s = { s with tracks := tracks } := by
  induction ts generalizing s with
  | nil => exact ⟨s.tracks,rfl⟩
  | cons t ts ih =>
    obtain ⟨tracks,h⟩ := ih (s.stop t)
    exact ⟨tracks,h⟩

theorem release_eq (track : Option Track) : ∃ tracks, s.release track = { s with tracks := tracks } := by
  cases track with
  | none => exact ⟨s.tracks,rfl⟩
  | some t => exact ⟨_,rfl⟩

end State

/-- What can happen to the client, but for the loss of its session and the rejoin. -/
inductive Operation where
  | handleJoinVoice (channelID : ChannelID) (microphone : Microphone) (a : Answers)
  | handleLeaveVoice
  | toggleMicrophone
  | toggleDeafen
  | toggleCamera (prompt : Prompt)
  | toggleCameraFacingMode (prompt : Prompt)
  | toggleScreenShare (prompt : Prompt)
  | setNoiseSuppressionMode (reacquired rnnoise : Bool)
  | ended (t : Track)
  deriving DecidableEq

def State.operate (s : State) : Operation → State
  | .handleJoinVoice channelID microphone a => s.handleJoinVoice channelID microphone a
  | .handleLeaveVoice => s.handleLeaveVoice
  | .toggleMicrophone => s.toggleMicrophone
  | .toggleDeafen => s.toggleDeafen
  | .toggleCamera prompt => s.toggleCamera prompt
  | .toggleCameraFacingMode prompt => s.toggleCameraFacingMode prompt
  | .toggleScreenShare prompt => s.toggleScreenShare prompt
  | .setNoiseSuppressionMode reacquired rnnoise => s.setNoiseSuppressionMode reacquired rnnoise
  | .ended t => s.ended t

end MiniDiscord.CallClient
