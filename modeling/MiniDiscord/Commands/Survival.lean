import MiniDiscord.Commands.SettledOnce

/-! # What survives a storage failure

A handler survives when it returns and never takes `h.mu` while it holds it. Two
handlers read a field of a nil result: `getUsersOnline`, which also reports the failed
lookup while it holds the read lock, and `joinVoiceChannel`.
-/
namespace MiniDiscord.ChatHub
open SfuTrack Effects Program
variable {u : UserID} {pending : PendingCommand}

/-- The handler returned, and gave back `h.mu` every time before it took it again. -/
def Survives (l : Exchange) (o : Option Unit) : Prop :=
  o ≠ none ∧ follow (fun held a => a.locks held) none (actions l) = some none

/-- Every answer that the handler reads a field of is a value. -/
def NoNilRead (l : Exchange) : Command → Prop
  | .getUsersOnline _ => ∀ id r, .asked (.getUserByID id) r ∈ l → ∃ user, r = .ok (some user)
  | .joinVoiceChannel _ => ∀ channelID,
      l.head? ≠ some (.asked (.getChannelByID channelID) (.ok none))
  | _ => True

/-! ## Handlers that always survive -/

def Completes (u : UserID) (pending : PendingCommand) (p : HubM Unit) : Prop :=
  Ensures (Tally.step u pending) (fun _ t => t.held = none) ⟨none,0⟩ p

theorem Responds.completes {p : HubM Unit} (h : Responds u pending p) : Completes u pending p := by
  refine Ensures.mono h (fun _ t ht => ?_)
  rw [ht]

theorem Unheard.completes {p : HubM Unit} (h : Unheard u pending p) : Completes u pending p := by
  refine (h 0).mono (fun _ t ht => ?_)
  rw [ht]

theorem Unheard.completes_bind {D : Type} {p : HubM D} {f : D → HubM Unit}
    (h : Unheard u pending p) (hf : ∀ d, Completes u pending (f d)) :
    Completes u pending (p >>= f) := by
  refine (h 0).bind (fun d t ht => ?_)
  rw [ht]
  exact hf d

theorem completes_ask {c : Call} {f : c.Answer → HubM Unit}
    (h : ∀ r, Completes u pending (f r)) : Completes u pending (ask c >>= f) := h

theorem completes_ite {c : Prop} [Decidable c] {p q : HubM Unit} (hp : c → Completes u pending p)
    (hq : ¬c → Completes u pending q) : Completes u pending (if c then p else q) := by
  split
  · exact hp ‹_›
  · exact hq ‹_›

/-- An event, whoever settles with it. -/
theorem completes_pushEvent (e : WsEvent) : Completes u pending (act (.pushEvent e)) :=
  ⟨_,rfl,rfl⟩

theorem Completes.survives {p : HubM Unit} (h : Completes u pending p) {l : Exchange}
    {o : Option Unit} (hp : Path p l o) : Survives l o := by
  obtain ⟨b,t,rfl,hf,ht⟩ := h.path hp
  have hl := (follow_tally hf).1
  rw [ht] at hl
  exact ⟨Option.some_ne_none b,hl⟩

theorem deleteMessage_completes (req : Request) (payload : Option MessageID) :
    Completes u pending (deleteMessage req payload) := by
  cases payload with
  | none => exact (responds_error _).completes
  | some messageID =>
    refine completes_ite (fun _ => (responds_error _).return.completes) (fun _ => completes_ask ?_)
    rintro (err | fileKeys)
    · exact (responds_error _).completes
    · refine completes_ask ?_
      rintro (err | _)
      · exact (responds_error _).completes
      · exact unheard_pure.completes

theorem openDM_completes (s3Host : String) (req : Request) (payload : Option UserID) :
    Completes u pending (openDM s3Host req payload) := by
  cases payload with
  | none => exact (responds_error _).completes
  | some peerUserID =>
    refine completes_ite (fun _ => (responds_error _).return.completes) (fun _ => completes_ask ?_)
    rintro (err | (_ | peer))
    · exact (responds_error _).completes
    · exact (responds_error _).completes
    refine completes_ite (fun _ => (responds_error _).return.completes) (fun _ => completes_ask ?_)
    rintro (err | channelID)
    · split
      · exact (responds_error _).completes
      · exact (responds_error _).completes
      · cases ‹Except.error err = Except.ok _›
    · refine completes_ask ?_
      rintro (err | channels)
      · exact (responds_error _).completes
      · exact completes_pushEvent _

/-- The guard of the SFU's handlers, and what runs behind it. -/
theorem mayDrive_completes {userID : UserID} {sessionID : SessionID} {code message : String}
    {rest : HubM Unit} (h : Completes u pending rest) :
    Completes u pending (do
      if (← mayDrive userID sessionID) = false then
        pushSfuError sessionID code message
        return
      rest) := by
  refine (mayDrive_unheard userID sessionID).completes_bind (fun ok => ?_)
  refine completes_ite (fun _ => ?_) (fun _ => h)
  exact ((unheard_sfuError _ _ _).bind (fun _ => unheard_pure)).completes

theorem handleSfuOffer_completes (req : Request) (payload : Option WsSfuOfferRequest) :
    Completes u pending (handleSfuOffer req payload) := by
  cases payload with
  | none => exact completes_pushEvent _
  | some payload =>
    refine mayDrive_completes (completes_ask ?_)
    rintro (err | _)
    · exact completes_pushEvent _
    · exact completes_pushEvent _

theorem handleSfuAnswer_completes (req : Request) (payload : Option WsSfuAnswerPayload) :
    Completes u pending (handleSfuAnswer req payload) := by
  cases payload with
  | none => exact completes_pushEvent _
  | some payload =>
    refine mayDrive_completes (completes_ask ?_)
    rintro (err | _)
    · exact completes_pushEvent _
    · exact completes_pushEvent _

theorem handleSfuCandidate_completes (req : Request) (payload : Option WsSfuCandidatePayload) :
    Completes u pending (handleSfuCandidate req payload) := by
  cases payload with
  | none => exact completes_pushEvent _
  | some payload =>
    refine mayDrive_completes (completes_ask ?_)
    rintro (err | _)
    · exact completes_pushEvent _
    · exact unheard_pure.completes

theorem handleSfuSubscribeVideo_completes (req : Request)
    (payload : Option WsSfuSubscribeVideoRequest) :
    Completes u pending (handleSfuSubscribeVideo req payload) := by
  cases payload with
  | none => exact completes_pushEvent _
  | some payload =>
    refine mayDrive_completes ?_
    split
    · exact completes_pushEvent _
    · refine completes_ask ?_
      rintro (err | _)
      · exact completes_pushEvent _
      · exact completes_pushEvent _

theorem handleSfuPublishState_completes (req : Request)
    (payload : Option WsSfuPublishStateRequest) :
    Completes u pending (handleSfuPublishState req payload) := by
  cases payload with
  | none => exact completes_pushEvent _
  | some payload =>
    refine (ownsSfuSession_unheard _ _).completes_bind (fun ok => ?_)
    refine completes_ite (fun _ => ?_) (fun _ => ?_)
    · exact ((unheard_sfuError _ _ _).bind (fun _ => unheard_pure)).completes
    refine completes_ite (fun _ => ?_) (fun _ => ?_)
    · exact ((unheard_sfuError _ _ _).bind (fun _ => unheard_pure)).completes
    refine ⟨⟨some .read,0⟩,rfl,fun channelID => ensures_after ⟨none,0⟩ rfl ?_⟩
    refine (setPublishState_unheard payload).completes_bind (fun _ => ?_)
    exact (sendTrack_unheard _ _ _ _).completes_bind (fun _ => completes_pushEvent _)

theorem handleSfuResume_completes (s3Host : String) (req : Request) (payload : Option SessionID)
    (hr : req.requestID = pending.requestId) :
    Completes u pending (handleSfuResume s3Host req payload) := by
  cases payload with
  | none => exact completes_pushEvent _
  | some sessionID =>
    refine mayDrive_completes (completes_ask ?_)
    rintro (err | _)
    · refine Unheard.completes ((unheard_sfuError _ _ _).bind (fun _ => ?_))
      exact expireVoiceSession_unheard _ _
    · exact (resumeVoice_responds s3Host hr).completes

/-- The two handlers that may not survive. -/
def Command.readsNil : Command → Bool
  | .getUsersOnline _ => true
  | .joinVoiceChannel _ => true
  | _ => false

theorem handleCommand_completes (s3Host : String) (req : Request) (cmd : Command)
    (hn : cmd.readsNil = false) :
    Completes req.userID (pendingCommand req.requestID cmd) (handleCommand s3Host req cmd) := by
  cases cmd with
  | createServer name => exact (createServer_responds _ _).completes
  | deleteServer serverID => exact (deleteServer_responds _ _).completes
  | joinServer serverID => exact (joinServer_responds _ _).completes
  | createChannel payload => exact (createChannel_responds _ _).completes
  | deleteChannel channelID => exact (deleteChannel_responds _ _).completes
  | sendMessage payload => exact (sendMessage_responds _ _ _ (by simp [pendingCommand, Command.action])).completes
  | deleteMessage messageID => exact deleteMessage_completes _ _
  | editMessage payload => exact (editMessage_responds _ _).completes
  | getMessages payload => exact (getMessages_responds _).completes
  | getServers => exact (getServers_responds _).completes
  | getServerChannels serverID => exact (getServerChannels_responds _ _).completes
  | getUsersOnline serverID => cases hn
  | joinVoiceChannel channelID => cases hn
  | leaveVoiceChannel => exact (leaveVoiceChannel_responds _).completes
  | sfuOffer payload => exact handleSfuOffer_completes _ _
  | sfuAnswer payload => exact handleSfuAnswer_completes _ _
  | sfuCandidate payload => exact handleSfuCandidate_completes _ _
  | sfuSubscribeVideo payload => exact handleSfuSubscribeVideo_completes _ _
  | sfuResume sessionID => exact handleSfuResume_completes _ _ _ rfl
  | sfuPublishState payload => exact handleSfuPublishState_completes _ _
  | searchServers payload => exact (searchServers_responds _ _).completes
  | getUserInfo userID => exact (getUserInfo_responds _ _).completes
  | changeVoiceStatus payload => exact (changeVoiceStatus_responds _ _ _).completes
  | typingStart channelID => exact (handleTyping_unheard _ _ _).completes
  | typingStop channelID => exact (handleTyping_unheard _ _ _).completes
  | getUnread => exact (getUnread_responds _).completes
  | markRead payload => exact (markRead_unheard _ _).completes
  | getServerMembers serverID => exact (getServerMembers_responds _ _).completes
  | getMessagesAround payload => exact (getMessagesAround_responds rfl _).completes
  | getMessagesAfter payload => exact (getMessagesAfter_responds rfl _).completes
  | searchMessages payload => exact (searchMessages_responds rfl _).completes
  | openDM peerUserID => exact openDM_completes _ _ _
  | closeDM channelID => exact (closeDM_responds _ _ rfl).completes
  | listDMs => exact (listDMs_responds _ rfl).completes
  | searchUsers payload => exact (searchUsers_responds _ _ rfl).completes
  | unknown => exact (responds_error _).completes

/-! ## The two that read a nil result -/

def Surviving (Q : Exchange → Prop) (p : HubM Unit) : Prop :=
  Every (fun l o => Survives l o ↔ Q l) p

theorem surviving_ask {c : Call} {f : c.Answer → HubM Unit} {Q : Exchange → Prop}
    (h : ∀ r, Surviving (fun l => Q (.asked c r :: l)) (f r)) : Surviving Q (ask c >>= f) := h

theorem surviving_ite {c : Prop} [Decidable c] {p q : HubM Unit} {Q : Exchange → Prop}
    (hp : c → Surviving Q p) (hq : ¬c → Surviving Q q) : Surviving Q (if c then p else q) := by
  split
  · exact hp ‹_›
  · exact hq ‹_›

theorem Completes.surviving {p : HubM Unit} {Q : Exchange → Prop} (h : Completes u pending p)
    (hq : ∀ l o, Path p l o → Q l) : Surviving Q p :=
  every_iff.mpr (fun l o hp => iff_of_true (h.survives hp) (hq l o hp))

/-- Where `getUsersOnline` stops before the range over the members. -/
theorem error_surviving {Q : Exchange → Prop} (message : String)
    (hq : Q [.did (.pushEvent { event := .error, error := message })]) :
    Surviving Q (pushError message) := by
  refine every_iff.mpr (fun l o hp => ?_)
  cases hp with
  | act hp =>
    cases hp
    exact iff_of_true ⟨nofun,rfl⟩ hq

theorem errorReturn_surviving {Q : Exchange → Prop} (message : String)
    (hq : Q [.did (.pushEvent { event := .error, error := message })]) :
    Surviving Q (pushError message >>= fun _ => pure ()) :=
  error_surviving message hq

theorem getUsersOnline_surviving (s3Host : String) (req : Request) (payload : Option ServerID) :
    Surviving (fun l => NoNilRead l (.getUsersOnline payload))
      (getUsersOnline s3Host req payload) := by
  cases payload with
  | none => exact error_surviving _ (by simp [NoNilRead])
  | some serverID =>
    refine surviving_ite (fun _ => ?_) (fun _ => surviving_ask ?_)
    · exact errorReturn_surviving _ (by simp [NoNilRead])
    rintro (err | (_ | _))
    · exact error_surviving _ (by simp [NoNilRead])
    · exact error_surviving _ (by simp [NoNilRead])
    refine surviving_ask ?_
    rintro (err | serverUserIDs)
    · exact error_surviving _ (by simp [NoNilRead])
    refine every_iff.mpr (fun l o hp => ?_)
    cases hp with
    | act hp =>
      cases hp with
      | ask online hp =>
        rcases path_bind (p := resolveOnline s3Host online serverUserIDs) hp with
          ⟨hr,rfl⟩ | ⟨l₁,l₂,users,rfl,hr,hf⟩
        · refine iff_of_false (fun h => h.1 rfl) (fun h => ?_)
          cases resolveOnline_path hr with
          | answeredNil id silent asked =>
            obtain ⟨user,hu⟩ := h id (.ok none) (by simp [asked])
            cases hu
          | failed id err told asked found =>
            obtain ⟨user,hu⟩ := h id (.error err) (by simp [asked])
            cases hu
        · cases resolveOnline_path hr with
          | returned _ silent found =>
            cases hf with
            | act hf =>
              cases hf with
              | act hf =>
                cases hf
                refine iff_of_true ⟨nofun,?_⟩ (fun id r hm => found id r (by simpa using hm))
                simp [silent, follow, Act.locks]

theorem joinVoiceChannel_surviving (s3Host : String) (req : Request)
    (payload : Option ChannelID) :
    Surviving (fun l => NoNilRead l (.joinVoiceChannel payload))
      (joinVoiceChannel s3Host req payload) := by
  cases payload with
  | none => exact error_surviving _ (by simp [NoNilRead])
  | some channelID =>
    have hq : ∀ r : Except GoError (Option Channel), r ≠ .ok none → ∀ l : Exchange,
        NoNilRead (.asked (.getChannelByID channelID) r :: l)
          (.joinVoiceChannel (some channelID)) := by
      intro r hr l id h
      rw [List.head?_cons,Option.some_inj] at h
      cases h
      exact hr rfl
    refine surviving_ite (fun _ => ?_) (fun _ => surviving_ask ?_)
    · exact errorReturn_surviving _ (by simp [NoNilRead])
    rintro (err | (_ | channel))
    · split
      · exact error_surviving _ (hq (.error _) nofun _)
      · exact error_surviving _ (hq (.error err) nofun _)
      · cases ‹Except.error err = Except.ok _›
      · cases ‹Except.error err = Except.ok _›
    · exact iff_of_false (fun h => h.1 rfl) (fun h => h channelID rfl)
    · have hr : Responds req.userID ⟨"","",none⟩ (joinFound s3Host req channelID channel) :=
        joinFound_responds _ _ _ _
      exact hr.completes.surviving (fun l o _ => hq (.ok (some channel)) nofun l)

/-! ## Every command -/

theorem hub_survives (s3Host : String) {req : Request} {cmd : Command} {l : Exchange}
    {o : Option Unit} (h : Path (handleCommand s3Host req cmd) l o) :
    Survives l o ↔ NoNilRead l cmd := by
  cases hn : cmd.readsNil with
  | false =>
    refine iff_of_true ((handleCommand_completes s3Host req cmd hn).survives h) ?_
    cases cmd with
    | getUsersOnline payload => cases hn
    | joinVoiceChannel payload => cases hn
    | _ => trivial
  | true =>
    cases cmd with
    | getUsersOnline payload => exact every_iff.mp (getUsersOnline_surviving s3Host req payload) l o h
    | joinVoiceChannel payload =>
      exact every_iff.mp (joinVoiceChannel_surviving s3Host req payload) l o h
    | _ => cases hn

/-- The one member who is online is looked up. -/
def memberOnline : Exchange :=
  [.asked (.isServerMember 1 3) (.ok true),.asked (.listServerMembersUserIDs 3) (.ok [2]),
    .did .rLock,.asked .clientsByUser [2],
    .asked (.getUserByID 2) (.ok (some ⟨2,"","","bob","","",false⟩)),.did .rUnlock,
    .did (.pushEvent { event := .ack, data := .getUsersOnline 3 [⟨"","","bob",avatarURLFromKey "" "",""⟩] })]

theorem hub_survives_memberOnline : Survives memberOnline (some ()) := by
  have hpath : Path (handleCommand "" ⟨1,"r1"⟩ (.getUsersOnline (some 3))) memberOnline (some ()) := by
    refine .ask _ (.ask _ (.act (.ask _ (.ask _ (.act ?_)))))
    exact .act (.ret ())
  refine (hub_survives "" hpath).mpr ?_
  intro id r hr
  obtain ⟨rfl,rfl⟩ : id = 2 ∧ r = .ok (some ⟨2,"","","bob","","",false⟩) := by
    simpa [memberOnline] using hr
  exact ⟨_,rfl⟩

/-- One lookup fails while the members who are online are listed. -/
theorem lookup_crashes : ¬ ∀ (s3Host : String) (req : Request) (cmd : Command) (l : Exchange)
    (o : Option Unit), Path (handleCommand s3Host req cmd) l o → Survives l o := by
  intro h
  have hp : Path (handleCommand "" ⟨1,"r1"⟩ (.getUsersOnline (some 3)))
      [.asked (.isServerMember 1 3) (.ok true),.asked (.listServerMembersUserIDs 3) (.ok [2]),
        .did .rLock,.asked .clientsByUser [2],
        .asked (.getUserByID 2) (.error (.other "connection reset")),.did lookupFailed] none :=
    .ask _ (.ask _ (.act (.ask _ (.ask _ (.act .crash)))))
  exact (h _ _ _ _ _ hp).1 rfl

end MiniDiscord.ChatHub
