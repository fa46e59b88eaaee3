import MiniDiscord.Client.CallClient

/-! # Session recovery

The retries after a lost session. Every attempt that fails has torn the connection down on the
way, and by that it has moved on the generation that the loop compares with its own.
-/
namespace MiniDiscord.CallClient
open ChatHub SfuTrack

/-! ## The loop -/

def RECOVERY_DELAYS_MS : List ℕ := [1000,3000,7000]

/-- One round: what the client does while the loop waits, whether the socket is open then, and
what comes of the attempt. -/
structure Round where
  during : List Operation
  isOpen : Bool
  answers : Answers

namespace State

/-- The second component counts the attempts. -/
def recoveryLoop (channelID : ChannelID) (generation : ℕ) (rounds : ℕ → Round) :
    List ℕ → ℕ → State → State × ℕ
  | [], n, s => (if generation = s.recoveryGeneration then { s with callStatus := .lost }.leave else s,n)
  | _ :: delays, n, s =>
    let s := (rounds n).during.foldl operate s
    if generation ≠ s.recoveryGeneration then (s,n)
    else if (rounds n).isOpen = false then (s,n)
    else
      let r := s.rejoin channelID (rounds n).answers
      if r.2 = true then (r.1,n + 1) else recoveryLoop channelID generation rounds delays (n + 1) r.1

/-- `isOpen` is the socket's before the first round. -/
def runSessionRecovery (s : State) (channelID : ChannelID) (generation : ℕ) (isOpen : Bool)
    (rounds : ℕ → Round) : State × ℕ :=
  if isOpen = false then (s,0)
  else recoveryLoop channelID generation rounds RECOVERY_DELAYS_MS 0 { s with callStatus := .reconnecting }

def handleSessionLost (s : State) (isOpen : Bool) (rounds : ℕ → Round) : State × ℕ :=
  if s.sessionLostHandled = true ∨ s.currentChannelID ≤ 0 then (s,0)
  else { s with sessionLostHandled := true }.runSessionRecovery s.currentChannelID
    s.recoveryGeneration isOpen rounds

end State

variable {s : State} {channelID : ChannelID} {a : Answers} {op : Operation} {rounds : ℕ → Round}

/-! ## What the user does to a connection -/

namespace State

/-- The part of the state that the loop and its attempts look at. -/
def connection (s : State) : Option PeerConnection × SessionID × ChannelID × ℕ :=
  (s.pc,s.sessionID,s.currentChannelID,s.recoveryGeneration)

@[simp] theorem connection_replaceTrack (s : State) (source : Source) (track : Option Track) :
    (s.replaceTrack source track).connection = s.connection := rfl
@[simp] theorem connection_onLocalScreenStream (s : State) (stream : Option MediaStream) :
    (s.onLocalScreenStream stream).connection = s.connection := rfl

@[simp] theorem connection_announcePublishState (s : State) (source : Source) (active : Bool) :
    (s.announcePublishState source active).connection = s.connection := by
  obtain ⟨sent,h⟩ := s.announcePublishState_eq source active
  rw [h]
  rfl

@[simp] theorem connection_changeVoiceStatus (s : State) : s.changeVoiceStatus.connection = s.connection := by
  obtain ⟨sent,h⟩ := s.changeVoiceStatus_eq
  rw [h]
  rfl

@[simp] theorem connection_restoreCameraState (s : State) :
    s.restoreCameraState.connection = s.connection := by
  unfold restoreCameraState
  dsimp only
  rw [connection_announcePublishState]
  split <;> rfl

@[simp] theorem connection_foldl_stop (ts : List Track) (s : State) :
    (ts.foldl stop s).connection = s.connection := by
  obtain ⟨tracks,h⟩ := s.foldl_stop_eq ts
  rw [h]
  rfl

@[simp] theorem connection_swapMicTrack (s : State) (t : Track) :
    (s.swapMicTrack t).connection = s.connection := by
  fun_cases swapMicTrack s t <;> rfl

theorem connection_setNoiseSuppressionMode (s : State) (reacquired rnnoise : Bool) :
    (s.setNoiseSuppressionMode reacquired rnnoise).connection = s.connection := by
  unfold setNoiseSuppressionMode
  cases s.rawTrack with
  | none => rfl
  | some raw => cases reacquired <;> cases rnnoise <;> exact connection_swapMicTrack _ _

@[simp] theorem connection_release (s : State) (track : Option Track) :
    (s.release track).connection = s.connection := by
  obtain ⟨tracks,h⟩ := s.release_eq track
  rw [h]
  rfl

@[simp] theorem connection_releaseCameraTrack (s : State) :
    s.releaseCameraTrack.connection = s.connection := by
  have hs : ((s.replaceTrack SourceCamera none).release s.videoTrack).connection = s.connection :=
    connection_release _ _
  fun_cases releaseCameraTrack s <;> exact hs

@[simp] theorem connection_disableCamera (s : State) : s.disableCamera.connection = s.connection := by
  unfold disableCamera
  rw [connection_announcePublishState,connection_releaseCameraTrack]
  rfl

theorem connection_startCamera (s : State) (prompt : Prompt) :
    (s.startCamera prompt).1.connection = s.connection := by
  fun_cases startCamera s prompt
  case case5 => exact connection_announcePublishState _ _ _
  all_goals rfl

theorem connection_setCameraEnabled (s : State) (enabled : Bool) (prompt : Prompt) :
    (s.setCameraEnabled enabled prompt).1.connection = s.connection := by
  fun_cases setCameraEnabled s enabled prompt
  · rfl
  · exact connection_disableCamera s
  · exact connection_startCamera s prompt

theorem connection_toggleCameraFacingMode (s : State) (prompt : Prompt) :
    (s.toggleCameraFacingMode prompt).connection = s.connection := by
  fun_cases toggleCameraFacingMode s prompt <;> rfl

theorem connection_startScreenShare (s : State) (prompt : Prompt) :
    (s.startScreenShare prompt).1.connection = s.connection := by
  fun_cases startScreenShare s prompt
  case case5 => exact connection_announcePublishState _ _ _
  all_goals rfl

theorem connection_stopScreenShare (s : State) : s.stopScreenShare.connection = s.connection := by
  fun_cases stopScreenShare s
  · rfl
  · rw [connection_announcePublishState,connection_onLocalScreenStream,connection_replaceTrack]
    exact connection_foldl_stop _ _

theorem connection_toggleScreenShare (s : State) (prompt : Prompt) :
    (s.toggleScreenShare prompt).connection = s.connection := by
  fun_cases toggleScreenShare s prompt
  · rfl
  · exact connection_stopScreenShare s
  · exact connection_startScreenShare s prompt
  · exact connection_startScreenShare s prompt

theorem connection_ended (s : State) (t : Track) : (s.ended t).connection = s.connection := by
  fun_cases ended s t
  · rfl
  · rfl
  · exact connection_setCameraEnabled _ _ _
  · exact connection_stopScreenShare _

end State

/-- The user neither joins nor leaves. -/
def Operation.stays : Operation → Bool
  | .handleJoinVoice _ _ _ => false
  | .handleLeaveVoice => false
  | _ => true

theorem connection_operate (hs : op.stays = true) : (s.operate op).connection = s.connection := by
  cases op with
  | handleJoinVoice => cases hs
  | handleLeaveVoice => cases hs
  | toggleMicrophone =>
    unfold State.operate State.toggleMicrophone
    dsimp only
    split
    · rfl
    · exact State.connection_changeVoiceStatus _
  | toggleDeafen =>
    unfold State.operate State.toggleDeafen
    dsimp only
    split <;> exact State.connection_changeVoiceStatus _
  | toggleCamera prompt => exact State.connection_setCameraEnabled s _ prompt
  | toggleCameraFacingMode prompt => exact State.connection_toggleCameraFacingMode s prompt
  | toggleScreenShare prompt => exact State.connection_toggleScreenShare s prompt
  | setNoiseSuppressionMode r n => exact State.connection_setNoiseSuppressionMode s r n
  | ended t => exact State.connection_ended s t

theorem connection_operations {ops : List Operation} (hs : ∀ op ∈ ops, op.stays = true) :
    (ops.foldl State.operate s).connection = s.connection := by
  induction ops generalizing s with
  | nil => rfl
  | cons op ops ih =>
    rw [List.foldl_cons,ih (fun op' hm => hs op' (List.mem_cons_of_mem _ hm))]
    exact connection_operate (hs op List.mem_cons_self)

/-! ## One attempt -/

namespace State

theorem callStatus_restoreCameraState (s : State) : s.restoreCameraState.callStatus = s.callStatus := by
  unfold restoreCameraState announcePublishState
  dsimp only
  split <;> split <;> rfl

theorem connection_start (s : State) (channelID : ChannelID) {sessionID : SessionID}
    (h : sessionID ≠ "") (opens : Bool) :
    (s.start channelID sessionID opens).1.connection =
      (some ⟨opens⟩,sessionID,channelID,s.recoveryGeneration) := by
  unfold start
  rw [if_neg h]
  cases opens with
  | true => exact connection_restoreCameraState _
  | false => rfl

theorem callStatus_start (s : State) {sessionID : SessionID} (h : sessionID ≠ "") :
    (s.start channelID sessionID true).1.callStatus = .connected := by
  unfold start
  rw [if_neg h]
  exact callStatus_restoreCameraState _

theorem start_returns (s : State) (sessionID : SessionID) (opens : Bool) :
    (s.start channelID sessionID opens).2 = true ↔ sessionID ≠ "" ∧ opens = true := by
  unfold start
  split
  · next h => simp [h]
  · next h => cases opens <;> simp [h]

theorem rejoin_resumes (hc : 0 < channelID) (h : s.Resumable channelID ∧ a.resume = true) :
    s.rejoin channelID a = (s.resume,true) := by
  unfold rejoin
  rw [if_neg (not_le.mpr hc),if_pos h]

theorem rejoin_afresh (hc : 0 < channelID) (h : ¬(s.Resumable channelID ∧ a.resume = true)) :
    s.rejoin channelID a = s.rejoinAfresh channelID a := by
  unfold rejoin
  rw [if_neg (not_le.mpr hc),if_neg h]

theorem rejoinAfresh_returns : (s.rejoinAfresh channelID a).2 = true ↔
    a.opens = true ∧ ∃ sessionID, a.join = some sessionID ∧ sessionID ≠ "" := by
  unfold rejoinAfresh
  cases hj : a.join with
  | none => simp
  | some sessionID =>
    dsimp only
    rw [start_returns]
    constructor
    · rintro ⟨hsid,hopens⟩
      exact ⟨hopens,sessionID,rfl,hsid⟩
    · rintro ⟨hopens,sessionID',h,hsid⟩
      obtain rfl := Option.some.inj h
      exact ⟨hsid,hopens⟩

end State

/-- The call is up, as far as the client can tell. -/
def Connected (channelID : ChannelID) (s : State) : Prop :=
  s.callStatus = .connected ∧ s.pc = some ⟨true⟩ ∧ s.sessionID ≠ "" ∧ s.currentChannelID = channelID

/-- The session is resumed on a connection that was opened once, or a join is acked with a
session and the new connection opened. -/
def Succeeds (channelID : ChannelID) (s : State) (a : Answers) : Prop :=
  if s.Resumable channelID ∧ a.resume = true then s.pc = some ⟨true⟩
  else a.opens = true ∧ ∃ sessionID, a.join = some sessionID ∧ sessionID ≠ ""

theorem connected_resume (h : s.Resumable channelID) :
    Connected channelID s.resume ↔ s.pc = some ⟨true⟩ := by
  have hconn : s.resume.connection = s.connection := State.connection_restoreCameraState _
  have hstatus : s.resume.callStatus = .connected := State.callStatus_restoreCameraState _
  simp only [State.connection, Prod.mk.injEq] at hconn
  obtain ⟨hpc,hsession,hchannel,-⟩ := hconn
  obtain ⟨-,hsid,hid⟩ := h
  constructor
  · rintro ⟨-,h,-,-⟩
    exact hpc.symm.trans h
  · intro h
    exact ⟨hstatus,hpc.trans h,by rwa [hsession],hchannel.trans hid⟩

theorem connected_rejoinAfresh (h : (s.rejoinAfresh channelID a).2 = true) :
    Connected channelID (s.rejoinAfresh channelID a).1 := by
  obtain ⟨hopens,sessionID,hj,hsid⟩ := State.rejoinAfresh_returns.mp h
  have hs : s.rejoinAfresh channelID a = (s.teardownPeerConnection.send
      (.joinVoiceChannel channelID sessionID)).start channelID sessionID true := by
    unfold State.rejoinAfresh
    rw [hj,hopens]
  rw [hs]
  have hconn := State.connection_start (s.teardownPeerConnection.send
    (.joinVoiceChannel channelID sessionID)) channelID hsid true
  simp only [State.connection, Prod.mk.injEq] at hconn
  obtain ⟨hpc,hsession,hchannel,-⟩ := hconn
  exact ⟨State.callStatus_start _ hsid,hpc,by rwa [hsession],hchannel⟩

/-- An attempt that returns leaves the call connected if it succeeds. -/
theorem connected_rejoin (hc : 0 < channelID) (hr : (s.rejoin channelID a).2 = true) :
    Connected channelID (s.rejoin channelID a).1 ↔ Succeeds channelID s a := by
  unfold Succeeds
  by_cases h : s.Resumable channelID ∧ a.resume = true
  · rw [State.rejoin_resumes hc h,if_pos h]
    exact connected_resume h.1
  · rw [State.rejoin_afresh hc h] at hr ⊢
    rw [if_neg h]
    exact ⟨fun _ => State.rejoinAfresh_returns.mp hr,fun _ => connected_rejoinAfresh hr⟩

theorem rejoin_of_succeeds (hc : 0 < channelID) (h : Succeeds channelID s a) :
    (s.rejoin channelID a).2 = true := by
  unfold Succeeds at h
  by_cases hres : s.Resumable channelID ∧ a.resume = true
  · rw [State.rejoin_resumes hc hres]
  · rw [if_neg hres] at h
    rw [State.rejoin_afresh hc hres]
    exact State.rejoinAfresh_returns.mpr h

/-- An attempt that throws has moved the generation on, and leaves no open connection. -/
theorem rejoin_throws (hc : 0 < channelID) (h : (s.rejoin channelID a).2 = false) :
    (s.rejoin channelID a).1.recoveryGeneration = s.recoveryGeneration + 1 ∧
      ((s.rejoin channelID a).1.pc ≠ some ⟨true⟩) := by
  by_cases hres : s.Resumable channelID ∧ a.resume = true
  · rw [State.rejoin_resumes hc hres] at h
    cases h
  · rw [State.rejoin_afresh hc hres] at h ⊢
    have hthrows : ¬(s.rejoinAfresh channelID a).2 = true := by simp [h]
    rw [State.rejoinAfresh_returns] at hthrows
    unfold State.rejoinAfresh
    cases hj : a.join with
    | none => exact ⟨rfl,by simp [State.teardownPeerConnection]⟩
    | some sessionID =>
      dsimp only
      by_cases hsid : sessionID = ""
      · unfold State.start
        rw [if_pos hsid]
        exact ⟨rfl,by simp [State.teardownPeerConnection, State.send]⟩
      · have hopens : a.opens = false := by
          cases ho : a.opens with
          | false => rfl
          | true => exact absurd ⟨ho,sessionID,hj,hsid⟩ hthrows
        have hconn := State.connection_start (s.teardownPeerConnection.send
          (.joinVoiceChannel channelID sessionID)) channelID hsid a.opens
        simp only [State.connection, Prod.mk.injEq] at hconn
        refine ⟨hconn.2.2.2,?_⟩
        rw [hconn.1,hopens]
        decide

/-! ## The recovery -/

/-- The user neither leaves nor switches channel, and the socket is open. -/
def Round.Undisturbed (r : Round) : Prop := (∀ op ∈ r.during, op.stays = true) ∧ r.isOpen = true

/-- The retries were used up, and the voice channel is left. -/
def Lost (s : State) : Prop := s.callStatus = .lost ∧ s.pc = none ∧ s.currentChannelID = 0

/-- The recovery is over as its comments promise. -/
def Ends (channelID : ChannelID) (r : State × ℕ) : Prop :=
  Connected channelID r.1 ∨ (r.2 = RECOVERY_DELAYS_MS.length ∧ Lost r.1)

instance (channelID : ChannelID) (s : State) : Decidable (Connected channelID s) := by
  unfold Connected
  infer_instance

instance (s : State) : Decidable (Lost s) := by
  unfold Lost
  infer_instance

instance (channelID : ChannelID) (r : State × ℕ) : Decidable (Ends channelID r) := by
  unfold Ends
  infer_instance

/-- A loop whose generation has passed stops before its next attempt. -/
theorem recoveryLoop_stale (channelID : ChannelID) {generation : ℕ} (delays : List ℕ) (n : ℕ)
    (hr : ∀ n, (rounds n).Undisturbed) (hg : generation ≠ s.recoveryGeneration) :
    (State.recoveryLoop channelID generation rounds delays n s).1.connection = s.connection ∧
      (State.recoveryLoop channelID generation rounds delays n s).2 = n := by
  cases delays with
  | nil =>
    unfold State.recoveryLoop
    rw [if_neg hg]
    exact ⟨rfl,rfl⟩
  | cons delay delays =>
    have hconn := connection_operations (s := s) (hr n).1
    have hgen : generation ≠ ((rounds n).during.foldl State.operate s).recoveryGeneration := by
      rw [show ((rounds n).during.foldl State.operate s).recoveryGeneration = s.recoveryGeneration from
        congrArg (fun c => c.2.2.2) hconn]
      exact hg
    unfold State.recoveryLoop
    dsimp only
    rw [if_pos hgen]
    exact ⟨hconn,rfl⟩

theorem succeeds_congr {s' : State} (h : s'.connection = s.connection) :
    Succeeds channelID s' a ↔ Succeeds channelID s a := by
  simp only [State.connection, Prod.mk.injEq] at h
  obtain ⟨hpc,hsession,hchannel,-⟩ := h
  have hres : s'.Resumable channelID ↔ s.Resumable channelID := by
    unfold State.Resumable
    rw [hpc,hsession,hchannel]
  unfold Succeeds
  simp only [hres, hpc]

/-- Nothing but a first attempt that succeeds makes the recovery end. -/
theorem recovery_ends (hl : s.sessionLostHandled = false) (hc : 0 < s.currentChannelID)
    (hr : ∀ n, (rounds n).Undisturbed) :
    Ends s.currentChannelID (s.handleSessionLost true rounds) ↔
      Succeeds s.currentChannelID s (rounds 0).answers := by
  let s₁ := (rounds 0).during.foldl State.operate
    { s with sessionLostHandled := true, callStatus := .reconnecting }
  have hconn : s₁.connection = s.connection := connection_operations (hr 0).1
  have hgen : s₁.recoveryGeneration = s.recoveryGeneration := congrArg (fun c => c.2.2.2) hconn
  have hrun : s.handleSessionLost true rounds =
      let r := s₁.rejoin s.currentChannelID (rounds 0).answers
      if r.2 = true then (r.1,1)
      else State.recoveryLoop s.currentChannelID s.recoveryGeneration rounds [3000,7000] 1 r.1 := by
    unfold State.handleSessionLost
    rw [if_neg (by simp [hl, hc])]
    unfold State.runSessionRecovery
    rw [if_neg (by decide)]
    change State.recoveryLoop _ _ _ [1000,3000,7000] 0 _ = _
    unfold State.recoveryLoop
    dsimp only
    rw [if_neg (not_not.mpr hgen.symm),if_neg (by simp [(hr 0).2])]
    rfl
  rw [hrun,← succeeds_congr hconn]
  dsimp only
  cases hret : (s₁.rejoin s.currentChannelID (rounds 0).answers).2 with
  | true =>
    rw [if_pos rfl,← connected_rejoin hc hret]
    have hone : 1 ≠ RECOVERY_DELAYS_MS.length := by decide
    exact ⟨fun h => h.resolve_right (fun h => hone h.1),Or.inl⟩
  | false =>
    rw [if_neg (by decide)]
    obtain ⟨hgen',hpc⟩ := rejoin_throws hc hret
    have hstale : s.recoveryGeneration ≠
        (s₁.rejoin s.currentChannelID (rounds 0).answers).1.recoveryGeneration := by
      rw [hgen',hgen]
      exact (Nat.succ_ne_self _).symm
    obtain ⟨hend,hn⟩ := recoveryLoop_stale s.currentChannelID [3000,7000] 1 hr hstale
    constructor
    · rintro (⟨-,h,-,-⟩ | ⟨h,-⟩)
      · exact absurd ((congrArg Prod.fst hend).symm.trans h) hpc
      · exact absurd (hn.symm.trans h) (by decide)
    · intro h
      rw [rejoin_of_succeeds hc h] at hret
      cases hret

/-- In channel 7, with the microphone. -/
def inCall : State := init.operate (.handleJoinVoice 7 (.granted false) ⟨false,some "a",true⟩)

/-- The socket stays open. The session is gone, and the join is acked at once. -/
def ackedRounds : ℕ → Round := fun _ => ⟨[.toggleMicrophone],true,⟨false,some "b",true⟩⟩

/-- The first join is not acked, the others would be. -/
def refusedRounds : ℕ → Round
  | 0 => ⟨[],true,⟨false,none,true⟩⟩
  | _ + 1 => ⟨[],true,⟨false,some "b",true⟩⟩

theorem recovery_ends_acked : Ends inCall.currentChannelID (inCall.handleSessionLost true ackedRounds) :=
  (recovery_ends (by decide) (by decide) (fun _ => ⟨by simp [ackedRounds, Operation.stays],rfl⟩)).mpr
    ⟨rfl,"b",rfl,by decide⟩

theorem recovery_stops_silently : ¬∀ (s : State) (rounds : ℕ → Round), s.sessionLostHandled = false →
    0 < s.currentChannelID → (∀ n, (rounds n).Undisturbed) →
      Ends s.currentChannelID (s.handleSessionLost true rounds) := by
  intro h
  have hr : ∀ n, (refusedRounds n).Undisturbed := by
    intro n
    cases n <;> exact ⟨by simp [refusedRounds],rfl⟩
  have hends := h inCall refusedRounds (by decide) (by decide) hr
  revert hends
  decide +kernel

end MiniDiscord.CallClient
