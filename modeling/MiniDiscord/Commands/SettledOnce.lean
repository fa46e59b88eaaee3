import MiniDiscord.Commands.Responses

/-! # One settling response for each command

Most handlers respond to every command. The others leave some command unanswered: a
message that was deleted, an SFU command that was refused, a user lookup that answered
nil, a direct message that opened as another peer's.
-/
namespace MiniDiscord.ChatHub
open SfuTrack Effects Program
variable {B : Type} {u : UserID} {pending : PendingCommand}

abbrev Exchange := List (Entry Call Call.Answer Act)

theorem heard_append (l l' : Exchange) :
    heard u pending (l ++ l') = heard u pending l + heard u pending l' := by
  unfold heard
  rw [actions_append,List.map_append,List.sum_append]

/-- Every path settles the command exactly once where `Q` holds of it, and nowhere else. -/
def Settling (u : UserID) (pending : PendingCommand) (Q : Exchange → Prop) (p : HubM B) : Prop :=
  Every (fun l _ => heard u pending l = 1 ↔ Q l) p

theorem Responds.settling {p : HubM Unit} {Q : Exchange → Prop} (h : Responds u pending p)
    (hq : ∀ l o, Path p l o → Q l) : Settling u pending Q p := by
  refine every_iff.mpr (fun l o hp => ?_)
  obtain ⟨b,t,_,hf,rfl⟩ := h.path hp
  have hs : 1 = 0 + heard u pending l := (follow_tally hf).2
  exact iff_of_true (by omega) (hq l o hp)

theorem Unheard.settling {p : HubM B} {Q : Exchange → Prop} (h : Unheard u pending p)
    (hq : ∀ l o, Path p l o → ¬ Q l) : Settling u pending Q p := by
  refine every_iff.mpr (fun l o hp => ?_)
  obtain ⟨b,t,_,hf,rfl⟩ := (h 0).path hp
  have hs : 0 = 0 + heard u pending l := (follow_tally hf).2
  exact iff_of_false (by omega) (hq l o hp)

theorem settling_ask {c : Call} {f : c.Answer → HubM B} {Q : Exchange → Prop}
    (h : ∀ r, Settling u pending (fun l => Q (.asked c r :: l)) (f r)) :
    Settling u pending Q (ask c >>= f) := h

theorem settling_ite {c : Prop} [Decidable c] {p q : HubM B} {Q : Exchange → Prop}
    (hp : c → Settling u pending Q p) (hq : ¬c → Settling u pending Q q) :
    Settling u pending Q (if c then p else q) := by
  split
  · exact hp ‹_›
  · exact hq ‹_›

/-- A response that makes no call has one path. -/
theorem path_act {a : Act} {l : Exchange} {o : Option Unit} (h : Path (act a) l o) :
    l = [.did a] := by
  cases h with
  | act h =>
    cases h
    rfl

theorem path_return {a : Act} {l : Exchange} {o : Option Unit}
    (h : Path (act a >>= fun _ => pure ()) l o) : l = [.did a] := by
  cases h with
  | act h =>
    cases h
    rfl

/-- What is unheard comes first, and adds its calls to the exchange. -/
theorem Unheard.settling_bind {D : Type} {p : HubM D} {f : D → HubM B} {Q : Exchange → Prop}
    (h : Unheard u pending p)
    (hf : ∀ l d, Path p l (some d) → Settling u pending (fun l' => Q (l ++ l')) (f d)) :
    Settling u pending Q (p >>= f) := by
  refine every_iff.mpr (fun l o hp => ?_)
  rcases path_bind hp with ⟨hc,_⟩ | ⟨l₁,l₂,d,rfl,h₁,h₂⟩
  · obtain ⟨b,t,ho,_⟩ := (h 0).path hc
    cases ho
  · obtain ⟨b,t,_,hs,rfl⟩ := (h 0).path h₁
    have hz : 0 = 0 + heard u pending l₁ := (follow_tally hs).2
    have hs : heard u pending l₂ = 1 ↔ Q (l₁ ++ l₂) := every_iff.mp (hf l₁ d h₁) l₂ o h₂
    rw [heard_append,← hs]
    omega

/-! ## When a command is answered -/

/-- An answer after which a handler of the SFU's commands gives up. -/
def refuses (sessionID : SessionID) : Entry Call Call.Answer Act → Bool
  | .asked .sfuRouter present => !present
  | .asked (.sfuSessionByUser _) current => decide (current ≠ some sessionID)
  | .asked (.handleOffer _ _ _) (.error _) => true
  | .asked (.handleAnswer _ _) (.error _) => true
  | .asked (.subscribeVideo _ _ _ _) (.error _) => true
  | .asked (.resume _ _) (.error _) => true
  | _ => false

def Admitted (sessionID : SessionID) (l : Exchange) : Prop :=
  sessionID ≠ "" ∧ ∀ e ∈ l, refuses sessionID e = false

/-- What has to hold of the payload and of the answers to the handler's calls. -/
def Answered (req : Request) (l : Exchange) : Command → Prop
  | .deleteMessage (some messageID) => messageID ≤ 0 ∨
      (∃ err, .asked (.deleteMessage messageID req.userID) (.error err) ∈ l) ∨
      ∃ fileKeys err, .asked (.deleteAttachment fileKeys) (.error err) ∈ l
  | .sfuOffer (some payload) => Admitted payload.sessionID l
  | .sfuAnswer (some payload) => Admitted payload.sessionID l
  | .sfuSubscribeVideo (some payload) =>
      Admitted payload.sessionID l ∧ qualityOf payload.quality ≠ none
  | .sfuResume (some sessionID) => Admitted sessionID l
  | .sfuPublishState (some payload) => payload.sessionID ≠ "" ∧
      (∀ v current, .asked (.sfuSessionByUser v) current ∈ l → current = some payload.sessionID) ∧
      (payload.source = SourceScreen ∨ payload.source = SourceCamera)
  | .getUsersOnline _ => ∀ id, .asked (.getUserByID id) (.ok none) ∉ l
  | .joinVoiceChannel (some channelID) =>
      l.head? ≠ some (.asked (.getChannelByID channelID) (.ok none))
  | .openDM (some peerUserID) => ∀ channelID channels dm,
      .asked (.openDMChannel req.userID peerUserID) (.ok channelID) ∈ l →
      .asked (.listDMChannels req.userID) (.ok channels) ∈ l →
      channels.find? (fun c => decide (c.channelID = channelID)) = some dm →
      dm.peerUserID = peerUserID
  | _ => True

theorem deleteMessage_settling (req : Request) (messageID : MessageID) :
    Settling u pending (fun l => Answered req l (.deleteMessage (some messageID)))
      (deleteMessage req (some messageID)) := by
  refine settling_ite (fun hm => (responds_error _).return.settling (fun _ _ _ => Or.inl hm))
    (fun hm => settling_ask ?_)
  rintro (err | fileKeys)
  · refine (responds_error _).settling (fun l o _ => Or.inr (Or.inl ⟨err,?_⟩))
    exact List.mem_cons_self
  · refine settling_ask ?_
    rintro (err | _)
    · refine (responds_error _).settling (fun l o _ => Or.inr (Or.inr ⟨fileKeys,err,?_⟩))
      exact List.mem_cons_of_mem _ List.mem_cons_self
    · refine unheard_pure.settling (fun l o hp => ?_)
      cases hp
      simp [Answered, hm]

/-- The channel that was opened settles the command if it is that of the peer. -/
theorem dmOpened_settling {peerUserID : UserID} {dm : DMChannel} {Q : Exchange → Prop}
    (ha : pending.action = "open_dm") (hp : pending.openDMPeerUserId = some peerUserID)
    (hq : ∀ l, l = [.did (.pushEvent { event := .dmOpened, data := .dmChannel dm })] →
      (Q l ↔ dm.peerUserID = peerUserID)) :
    Settling u pending Q (act (.pushEvent { event := .dmOpened, data := .dmChannel dm })) := by
  have hs : pending.settles { event := .dmOpened, data := .dmChannel dm } =
      decide (peerUserID = dm.peerUserID) := by
    simp [PendingCommand.settles, ha, hp]
  by_cases hd : dm.peerUserID = peerUserID
  · refine (responds_act rfl ?_).settling (fun l o hl => (hq l (path_act hl)).mpr hd)
    simp [Act.settles, Act.received, hs, hd]
  · refine (unheard_pushEvent ?_).settling (fun l o hl => ?_)
    · rw [hs]
      exact decide_eq_false (Ne.symm hd)
    · exact fun h => hd ((hq l (path_act hl)).mp h)

theorem openDM_settling (s3Host : String) (req : Request) (peerUserID : UserID)
    (ha : pending.action = "open_dm") (hp : pending.openDMPeerUserId = some peerUserID) :
    Settling u pending (fun l => Answered req l (.openDM (some peerUserID)))
      (openDM s3Host req (some peerUserID)) := by
  refine settling_ite (fun _ => ?_) (fun _ => settling_ask ?_)
  · refine (responds_error _).return.settling (fun l o hl => ?_)
    rw [path_return hl]
    simp [Answered]
  rintro (err | (_ | peer))
  · refine (responds_error _).settling (fun l o hl => ?_)
    rw [path_act hl]
    simp [Answered]
  · refine (responds_error _).settling (fun l o hl => ?_)
    rw [path_act hl]
    simp [Answered]
  refine settling_ite (fun _ => ?_) (fun _ => settling_ask ?_)
  · refine (responds_error _).return.settling (fun l o hl => ?_)
    rw [path_return hl]
    simp [Answered]
  rintro (err | channelID)
  · have hr : ∀ m, Settling u pending (fun l => Answered req (.asked (.getUserByID peerUserID)
        (.ok (some peer)) :: .asked (.openDMChannel req.userID peerUserID) (.error err) :: l)
        (.openDM (some peerUserID))) (pushError m) := by
      intro m
      refine (responds_error _).settling (fun l o hl => ?_)
      rw [path_act hl]
      simp [Answered]
    split
    · exact hr _
    · exact hr _
    · cases ‹Except.error err = Except.ok _›
  refine settling_ask ?_
  rintro (err | channels)
  · refine (responds_error _).settling (fun l o hl => ?_)
    rw [path_act hl]
    simp [Answered]
  · refine dmOpened_settling ha hp (fun l hl => ?_)
    rw [hl]
    constructor
    · intro h
      cases hf : channels.find? (fun c => decide (c.channelID = channelID)) with
      | none => rfl
      | some dm => exact h channelID channels dm (by simp) (by simp) hf
    · intro h channelID' channels' dm hc hm hf
      obtain rfl : channelID' = channelID := by simpa using hc
      obtain rfl : channels' = channels := by simpa using hm
      rwa [hf] at h

/-! ## The SFU's commands -/

theorem admitted_append {sessionID : SessionID} {l l' : Exchange} :
    Admitted sessionID (l ++ l') ↔
      Admitted sessionID l ∧ ∀ e ∈ l', refuses sessionID e = false := by
  unfold Admitted
  rw [List.forall_mem_append,and_assoc]

/-- What `ownsSfuSession` answers, by the session it finds. -/
theorem ownsSfuSession_path {userID : UserID} {sessionID : SessionID} {l : Exchange} {b : Bool}
    (h : Path (ownsSfuSession userID sessionID) l (some b)) :
    (l = [] ∧ b = false ∧ sessionID = "") ∨ ∃ current : Option SessionID,
      l = [.did .rLock,.asked (.sfuSessionByUser userID) current,.did .rUnlock] ∧
        sessionID ≠ "" ∧ (b = true ↔ current = some sessionID) := by
  unfold ownsSfuSession at h
  by_cases hs : sessionID = ""
  · rw [if_pos hs] at h
    cases h
    exact Or.inl ⟨rfl,rfl,hs⟩
  · rw [if_neg hs] at h
    cases h with
    | act h =>
      cases h with
      | ask current h =>
        cases h with
        | act h =>
          cases h
          refine Or.inr ⟨current,rfl,hs,?_⟩
          cases current with
          | none => simp [Ne.symm hs]
          | some current => simp

theorem mayDrive_path {userID : UserID} {sessionID : SessionID} {l : Exchange} {b : Bool}
    (h : Path (mayDrive userID sessionID) l (some b)) : b = true ↔ Admitted sessionID l := by
  cases h with
  | ask present h =>
    cases present with
    | false =>
      cases h
      simp [Admitted, refuses]
    | true =>
      rcases ownsSfuSession_path h with ⟨rfl,rfl,hs⟩ | ⟨current,rfl,hs,hb⟩
      · simp [Admitted, hs]
      · simp [Admitted, refuses, hs, hb]

/-- The guard of the handlers: what follows it has only the router left to ask. -/
theorem mayDrive_settling {userID : UserID} {sessionID : SessionID} {code message : String}
    {rest : HubM Unit}
    (h : Settling u pending (fun l => ∀ e ∈ l, refuses sessionID e = false) rest) :
    Settling u pending (Admitted sessionID) (do
      if (← mayDrive userID sessionID) = false then
        pushSfuError sessionID code message
        return
      rest) := by
  refine (mayDrive_unheard userID sessionID).settling_bind (fun l b hl => ?_)
  have hb := mayDrive_path hl
  refine settling_ite (fun hf => ?_) (fun hf => ?_)
  · refine Unheard.settling ((unheard_sfuError _ _ _).bind (fun _ => unheard_pure)) ?_
    intro l' o _ ha
    rw [hf] at hb
    exact Bool.false_ne_true (hb.mpr (admitted_append.mp ha).1)
  · have ha : Admitted sessionID l := hb.mp (Bool.not_eq_false b ▸ hf)
    refine every_iff.mpr (fun l' o hp => ?_)
    have hq : Admitted sessionID (l ++ l') ↔ ∀ e ∈ l', refuses sessionID e = false :=
      admitted_append.trans (and_iff_right ha)
    exact (every_iff.mp h l' o hp).trans hq.symm

theorem handleSfuOffer_settling {req : Request} (hr : req.requestID = pending.requestId)
    (payload : WsSfuOfferRequest) :
    Settling u pending (Admitted payload.sessionID) (handleSfuOffer req (some payload)) := by
  refine mayDrive_settling (settling_ask ?_)
  rintro (err | _)
  · refine (unheard_sfuError _ _ _).settling (fun l o _ h => ?_)
    exact Bool.noConfusion (h _ List.mem_cons_self)
  · refine (responds_ackWithRequestID hr _).settling (fun l o hl => ?_)
    rw [path_act hl]
    simp [refuses]

theorem handleSfuAnswer_settling {req : Request} (hr : req.requestID = pending.requestId)
    (payload : WsSfuAnswerPayload) :
    Settling u pending (Admitted payload.sessionID) (handleSfuAnswer req (some payload)) := by
  refine mayDrive_settling (settling_ask ?_)
  rintro (err | _)
  · refine (unheard_sfuError _ _ _).settling (fun l o _ h => ?_)
    exact Bool.noConfusion (h _ List.mem_cons_self)
  · refine (responds_ackWithRequestID hr _).settling (fun l o hl => ?_)
    rw [path_act hl]
    simp [refuses]

theorem handleSfuSubscribeVideo_settling {req : Request}
    (hr : req.requestID = pending.requestId) (payload : WsSfuSubscribeVideoRequest) :
    Settling u pending (fun l => Answered req l (.sfuSubscribeVideo (some payload)))
      (handleSfuSubscribeVideo req (some payload)) := by
  cases hq : qualityOf payload.quality with
  | none =>
    refine Unheard.settling ?_ (fun l o _ h => h.2 hq)
    refine (mayDrive_unheard _ _).bind (fun ok => ?_)
    refine unheard_ite (fun _ => ?_) (fun _ => ?_)
    · exact (unheard_sfuError _ _ _).bind (fun _ => unheard_pure)
    · rw [hq]
      exact unheard_sfuError _ _ _
  | some quality =>
    have ha : (fun l => Answered req l (.sfuSubscribeVideo (some payload))) =
        Admitted payload.sessionID := by
      funext l
      simp [Answered, hq]
    rw [ha]
    refine mayDrive_settling ?_
    rw [hq]
    refine settling_ask ?_
    rintro (err | _)
    · refine (unheard_sfuError _ _ _).settling (fun l o _ h => ?_)
      exact Bool.noConfusion (h _ List.mem_cons_self)
    · refine (responds_ackWithRequestID hr _).settling (fun l o hl => ?_)
      rw [path_act hl]
      simp [refuses]

/-- The calls whose answer may turn an SFU command away. -/
def Call.guards : Call → Bool
  | .sfuRouter => true
  | .sfuSessionByUser _ => true
  | .handleOffer _ _ _ => true
  | .handleAnswer _ _ => true
  | .subscribeVideo _ _ _ _ => true
  | .resume _ _ => true
  | _ => false

theorem guards_of_refuses {sessionID : SessionID} {e : Entry Call Call.Answer Act}
    (h : refuses sessionID e = true) : ∃ c r, e = .asked c r ∧ c.guards = true := by
  cases e with
  | did a => cases h
  | asked c r =>
    refine ⟨c,r,rfl,?_⟩
    cases c with
    | sfuRouter => rfl
    | sfuSessionByUser => rfl
    | handleOffer => rfl
    | handleAnswer => rfl
    | subscribeVideo => rfl
    | resume => rfl
    | _ => cases h

theorem resolveVoiceParticipant_uses (s3Host : String) (userID : UserID) :
    Uses (fun c => c.guards = false) (resolveVoiceParticipant s3Host userID) := by
  refine ⟨rfl,fun status => ⟨rfl,fun detached => ⟨rfl,?_⟩⟩⟩
  rintro (err | (_ | user))
  · trivial
  · trivial
  · trivial

theorem resumeLocked_uses (userID : UserID) :
    Uses (fun c => c.guards = false) (resumeLocked userID) := by
  refine ⟨rfl,?_⟩
  rintro (_ | _)
  · exact ⟨rfl,fun channelID => ⟨rfl,fun participants => trivial⟩⟩
  · exact ⟨rfl,fun channelID => ⟨rfl,fun participants => trivial⟩⟩

theorem resumeVoice_uses (s3Host : String) (req : Request) :
    Uses (fun c => c.guards = false) (resumeVoice s3Host req) := by
  refine (resumeLocked_uses _).bind (fun found => ?_)
  refine (uses_mapEach (resolveVoiceParticipant_uses s3Host)).bind (fun peers => ?_)
  exact (resolveVoiceParticipant_uses s3Host _).bind (fun self => trivial)

theorem handleSfuResume_settling (s3Host : String) {req : Request}
    (hr : req.requestID = pending.requestId) (sessionID : SessionID) :
    Settling u pending (Admitted sessionID) (handleSfuResume s3Host req (some sessionID)) := by
  refine mayDrive_settling (settling_ask ?_)
  rintro (err | _)
  · have hu : Unheard u pending (do
        pushSfuError sessionID "resume_failed" err.text
        expireVoiceSession req.userID sessionID) :=
      (unheard_sfuError _ _ _).bind (fun _ => expireVoiceSession_unheard _ _)
    refine hu.settling (fun l o _ h => ?_)
    exact Bool.noConfusion (h _ List.mem_cons_self)
  · refine (resumeVoice_responds s3Host hr).settling (fun l o hl e he => ?_)
    rcases List.mem_cons.mp he with rfl | he
    · rfl
    · refine Bool.eq_false_iff.mpr (fun hf => ?_)
      obtain ⟨c,r,rfl,hc⟩ := guards_of_refuses hf
      have hg : c.guards = false := (resumeVoice_uses s3Host req).path hl he
      rw [hg] at hc
      exact Bool.false_ne_true hc

theorem setPublishState_uses (payload : WsSfuPublishStateRequest) :
    Uses (fun c => ∀ v, c ≠ .sfuSessionByUser v) (setPublishState payload) := by
  refine ⟨nofun,?_⟩
  rintro (_ | _)
  · trivial
  · exact ⟨nofun,fun _ => trivial⟩

theorem sendTrack_uses (event : WsEventType) (channelID : ChannelID) (userID : UserID)
    (source : Source) :
    Uses (fun c => ∀ v, c ≠ .sfuSessionByUser v) (sendTrack event channelID userID source) :=
  ⟨nofun,fun _ => trivial⟩

theorem handleSfuPublishState_settling {req : Request} (hr : req.requestID = pending.requestId)
    (payload : WsSfuPublishStateRequest) :
    Settling u pending (fun l => Answered req l (.sfuPublishState (some payload)))
      (handleSfuPublishState req (some payload)) := by
  refine (ownsSfuSession_unheard _ _).settling_bind (fun l b hl => ?_)
  rcases ownsSfuSession_path hl with ⟨rfl,rfl,hs⟩ | ⟨current,rfl,hs,hb⟩
  · refine Unheard.settling ((unheard_sfuError _ _ _).bind (fun _ => unheard_pure)) ?_
    exact fun l o _ h => h.1 hs
  refine settling_ite (fun hf => ?_) (fun hf => ?_)
  · refine Unheard.settling ((unheard_sfuError _ _ _).bind (fun _ => unheard_pure)) ?_
    intro l o _ h
    have hc : current = some payload.sessionID := h.2.1 req.userID current (by simp)
    rw [hb.mpr hc] at hf
    exact Bool.noConfusion hf
  have hc : current = some payload.sessionID := hb.mp (Bool.not_eq_false b ▸ hf)
  refine settling_ite (fun hn => ?_) (fun hn => ?_)
  · refine Unheard.settling ((unheard_sfuError _ _ _).bind (fun _ => unheard_pure)) ?_
    intro l o _ h
    exact h.2.2.elim hn.1 hn.2
  · refine Responds.settling ?_ (fun l o hp => ⟨hs,?_,?_⟩)
    · refine ⟨⟨some .read,0⟩,rfl,fun channelID => ensures_after ⟨none,0⟩ rfl ?_⟩
      refine (setPublishState_unheard payload).responds (fun _ => ?_)
      refine (sendTrack_unheard _ _ _ _).responds (fun _ => ?_)
      exact responds_ackWithRequestID hr _
    · intro v found he
      rcases List.mem_append.mp he with he | he
      · obtain ⟨-,rfl⟩ : v = req.userID ∧ found = current := by simpa using he
        exact hc
      · refine absurd rfl (Uses.path (K := fun c => ∀ v, c ≠ .sfuSessionByUser v) ?_ hp he v)
        refine ⟨nofun,fun channelID => ?_⟩
        refine (setPublishState_uses payload).bind (fun _ => ?_)
        exact (sendTrack_uses _ _ _ _).bind (fun _ => trivial)
    · by_contra hsrc
      rw [not_or] at hsrc
      exact hn hsrc

/-! ## Lookups under the read lock -/

/-- The event of a lookup that failed; the nil user is read right after it. -/
def lookupFailed : Act :=
  .pushEvent { event := .error, error := "failed to resolve user" }

/-- How a range over the members ends: it returns, a lookup answered nil, or one failed. -/
inductive RangeEnd (l : Exchange) : Option (List UserResponse) → Prop
  | returned (users : List UserResponse) (silent : actions l = [])
      (found : ∀ id r, .asked (.getUserByID id) r ∈ l → ∃ user, r = .ok (some user)) :
      RangeEnd l (some users)
  | answeredNil (id : UserID) (silent : actions l = [])
      (asked : .asked (.getUserByID id) (.ok none) ∈ l) : RangeEnd l none
  | failed (id : UserID) (err : GoError) (told : actions l = [lookupFailed])
      (asked : .asked (.getUserByID id) (.error err) ∈ l)
      (found : ∀ id, .asked (.getUserByID id) (.ok none) ∉ l) : RangeEnd l none

theorem resolveOnline_path {s3Host : String} {online : List UserID} {ids : List UserID}
    {l : Exchange} {o : Option (List UserResponse)}
    (h : Path (resolveOnline s3Host online ids) l o) : RangeEnd l o := by
  induction ids generalizing l o with
  | nil =>
    cases h
    exact .returned _ rfl (fun id r hm => absurd hm List.not_mem_nil)
  | cons id ids ih =>
    rw [resolveOnline] at h
    split at h
    · cases h with
      | ask r h =>
        rcases r with err | (_ | user)
        · cases h with
          | act h =>
            cases h
            exact .failed id err rfl List.mem_cons_self (fun id' hm => by simp at hm)
        · cases h
          exact .answeredNil id rfl List.mem_cons_self
        · rcases path_bind (p := resolveOnline s3Host online ids) h with ⟨hr,rfl⟩ | ⟨l₁,l₂,users,rfl,hr,hf⟩
          · cases ih hr with
            | answeredNil id' silent asked =>
              exact .answeredNil id' silent (List.mem_cons_of_mem _ asked)
            | failed id' err told asked found =>
              refine .failed id' err told (List.mem_cons_of_mem _ asked) (fun id'' hm => ?_)
              rcases List.mem_cons.mp hm with he | hm
              · simp at he
              · exact found id'' hm
          · cases hf
            cases ih hr with
            | returned _ silent found =>
              refine .returned _ ?_ (fun id' r hm => ?_)
              · simpa using silent
              · rw [List.append_nil] at hm
                rcases List.mem_cons.mp hm with he | hm
                · cases he
                  exact ⟨user,rfl⟩
                · exact found id' r hm
    · exact ih h

theorem getUsersOnline_settling (s3Host : String) (req : Request) (serverID : ServerID) :
    Settling u pending (fun l => Answered req l (.getUsersOnline (some serverID)))
      (getUsersOnline s3Host req (some serverID)) := by
  refine settling_ite (fun _ => ?_) (fun _ => settling_ask ?_)
  · refine (responds_error _).return.settling (fun l o hl => ?_)
    rw [path_return hl]
    simp [Answered]
  rintro (err | (_ | _))
  · refine (responds_error _).settling (fun l o hl => ?_)
    rw [path_act hl]
    simp [Answered]
  · refine (responds_error _).settling (fun l o hl => ?_)
    rw [path_act hl]
    simp [Answered]
  refine settling_ask ?_
  rintro (err | serverUserIDs)
  · refine (responds_error _).settling (fun l o hl => ?_)
    rw [path_act hl]
    simp [Answered]
  refine every_iff.mpr (fun l o hp => ?_)
  cases hp with
  | act hp =>
    cases hp with
    | ask online hp =>
      rcases path_bind (p := resolveOnline s3Host online serverUserIDs) hp with
        ⟨hr,rfl⟩ | ⟨l₁,l₂,users,rfl,hr,hf⟩
      · cases resolveOnline_path hr with
        | answeredNil id silent asked =>
          refine iff_of_false ?_ (fun h => h id (by simp [asked]))
          simp [heard, silent, Act.settles, Act.received]
        | failed id err told asked found =>
          refine iff_of_true ?_ (fun id' hm => found id' (by simpa using hm))
          simp [heard, told, lookupFailed, Act.settles, Act.received, PendingCommand.settles]
      · cases resolveOnline_path hr with
        | returned _ silent found =>
          cases hf with
          | act hf =>
            rw [path_act hf]
            refine iff_of_true ?_ (fun id hm => ?_)
            · simp [heard, silent, Act.settles, Act.received, PendingCommand.settles]
            · obtain ⟨user,hu⟩ := found id (.ok none) (by simpa using hm)
              cases hu

theorem joinVoiceChannel_settling (s3Host : String) (req : Request) (channelID : ChannelID) :
    Settling u pending (fun l => Answered req l (.joinVoiceChannel (some channelID)))
      (joinVoiceChannel s3Host req (some channelID)) := by
  have hq : ∀ r : Except GoError (Option Channel), r ≠ .ok none → ∀ l : Exchange,
      Answered req (.asked (.getChannelByID channelID) r :: l)
        (.joinVoiceChannel (some channelID)) := by
    intro r hr l h
    rw [List.head?_cons,Option.some_inj] at h
    cases h
    exact hr rfl
  refine settling_ite (fun _ => ?_) (fun _ => settling_ask ?_)
  · refine (responds_error _).return.settling (fun l o hl => ?_)
    rw [path_return hl]
    simp [Answered]
  rintro (err | (_ | channel))
  · have hr : ∀ m, Settling u pending (fun l => Answered req
        (.asked (.getChannelByID channelID) (.error err) :: l)
        (.joinVoiceChannel (some channelID))) (pushError m) :=
      fun m => (responds_error m).settling (fun l o _ => hq (.error err) nofun l)
    split
    · exact hr _
    · exact hr _
    · cases ‹Except.error err = Except.ok _›
    · cases ‹Except.error err = Except.ok _›
  · exact iff_of_false (by simp [heard]) (fun h => h rfl)
  · exact (joinFound_responds _ _ _ _).settling (fun l o _ => hq (.ok (some channel)) nofun l)

/-! ## Every command -/

/-- The payload unmarshals; some actions have none. -/
def Command.parsed : Command → Bool
  | .createServer name => name.isSome
  | .deleteServer serverID => serverID.isSome
  | .joinServer serverID => serverID.isSome
  | .createChannel payload => payload.isSome
  | .deleteChannel channelID => channelID.isSome
  | .sendMessage payload => payload.isSome
  | .deleteMessage messageID => messageID.isSome
  | .editMessage payload => payload.isSome
  | .getMessages payload => payload.isSome
  | .getServerChannels serverID => serverID.isSome
  | .getUsersOnline serverID => serverID.isSome
  | .joinVoiceChannel channelID => channelID.isSome
  | .sfuOffer payload => payload.isSome
  | .sfuAnswer payload => payload.isSome
  | .sfuCandidate payload => payload.isSome
  | .sfuSubscribeVideo payload => payload.isSome
  | .sfuResume sessionID => sessionID.isSome
  | .sfuPublishState payload => payload.isSome
  | .searchServers payload => payload.isSome
  | .getUserInfo userID => userID.isSome
  | .changeVoiceStatus payload => payload.isSome
  | .typingStart channelID => channelID.isSome
  | .typingStop channelID => channelID.isSome
  | .markRead payload => payload.isSome
  | .getServerMembers serverID => serverID.isSome
  | .getMessagesAround payload => payload.isSome
  | .getMessagesAfter payload => payload.isSome
  | .searchMessages payload => payload.isSome
  | .openDM peerUserID => peerUserID.isSome
  | .closeDM channelID => channelID.isSome
  | .searchUsers payload => payload.isSome
  | _ => true

theorem handleCommand_settling (s3Host : String) (req : Request) (cmd : Command)
    (hc : cmd.parsed = true) (hq : cmd.queued = true) :
    Settling req.userID (pendingCommand req.requestID cmd) (fun l => Answered req l cmd)
      (handleCommand s3Host req cmd) := by
  cases cmd with
  | createServer name => exact (createServer_responds _ _).settling (fun l o _ => trivial)
  | deleteServer serverID => exact (deleteServer_responds _ _).settling (fun l o _ => trivial)
  | joinServer serverID => exact (joinServer_responds _ _).settling (fun l o _ => trivial)
  | createChannel payload => exact (createChannel_responds _ _).settling (fun l o _ => trivial)
  | deleteChannel channelID => exact (deleteChannel_responds _ _).settling (fun l o _ => trivial)
  | sendMessage payload => exact (sendMessage_responds _ _ _ (by simp [pendingCommand, Command.action])).settling (fun l o _ => trivial)
  | deleteMessage messageID =>
    cases messageID with
    | none => cases hc
    | some messageID => exact deleteMessage_settling _ _
  | editMessage payload => exact (editMessage_responds _ _).settling (fun l o _ => trivial)
  | getMessages payload => exact (getMessages_responds _).settling (fun l o _ => trivial)
  | getServers => exact (getServers_responds _).settling (fun l o _ => trivial)
  | getServerChannels serverID => exact (getServerChannels_responds _ _).settling (fun l o _ => trivial)
  | getUsersOnline serverID =>
    cases serverID with
    | none => cases hc
    | some serverID => exact getUsersOnline_settling _ _ _
  | joinVoiceChannel channelID =>
    cases channelID with
    | none => cases hc
    | some channelID => exact joinVoiceChannel_settling _ _ _
  | leaveVoiceChannel => exact (leaveVoiceChannel_responds _).settling (fun l o _ => trivial)
  | sfuOffer payload =>
    cases payload with
    | none => cases hc
    | some payload => exact handleSfuOffer_settling rfl _
  | sfuAnswer payload =>
    cases payload with
    | none => cases hc
    | some payload => exact handleSfuAnswer_settling rfl _
  | sfuCandidate payload => cases hq
  | sfuSubscribeVideo payload =>
    cases payload with
    | none => cases hc
    | some payload => exact handleSfuSubscribeVideo_settling rfl _
  | sfuResume sessionID =>
    cases sessionID with
    | none => cases hc
    | some sessionID => exact handleSfuResume_settling _ rfl _
  | sfuPublishState payload =>
    cases payload with
    | none => cases hc
    | some payload => exact handleSfuPublishState_settling rfl _
  | searchServers payload => exact (searchServers_responds _ _).settling (fun l o _ => trivial)
  | getUserInfo userID => exact (getUserInfo_responds _ _).settling (fun l o _ => trivial)
  | changeVoiceStatus payload => exact (changeVoiceStatus_responds _ _ _).settling (fun l o _ => trivial)
  | typingStart channelID => cases hq
  | typingStop channelID => cases hq
  | getUnread => exact (getUnread_responds _).settling (fun l o _ => trivial)
  | markRead payload => cases hq
  | getServerMembers serverID => exact (getServerMembers_responds _ _).settling (fun l o _ => trivial)
  | getMessagesAround payload => exact (getMessagesAround_responds rfl _).settling (fun l o _ => trivial)
  | getMessagesAfter payload => exact (getMessagesAfter_responds rfl _).settling (fun l o _ => trivial)
  | searchMessages payload => exact (searchMessages_responds rfl _).settling (fun l o _ => trivial)
  | openDM peerUserID =>
    cases peerUserID with
    | none => cases hc
    | some peerUserID => exact openDM_settling _ _ _ rfl rfl
  | closeDM channelID => exact (closeDM_responds _ _ rfl).settling (fun l o _ => trivial)
  | listDMs => exact (listDMs_responds _ rfl).settling (fun l o _ => trivial)
  | searchUsers payload => exact (searchUsers_responds _ _ rfl).settling (fun l o _ => trivial)
  | unknown => cases hq

theorem settled_once (s3Host : String) {req : Request} {cmd : Command} {l : Exchange}
    {o : Option Unit} (h : Path (handleCommand s3Host req cmd) l o) (hc : cmd.parsed = true)
    (hq : cmd.queued = true) : settlements req cmd l = 1 ↔ Answered req l cmd := by
  unfold settlements
  rw [countP_receives]
  exact every_iff.mp (handleCommand_settling s3Host req cmd hc hq) l o h

/-- User 1 opens the channel 9 that it has with user 2. -/
def opensDM : Exchange :=
  [.asked (.getUserByID 2) (.ok (some ⟨2,"","","bob","","",false⟩)),
    .asked (.openDMChannel 1 2) (.ok 9),.asked (.listDMChannels 1) (.ok [⟨9,2,"bob","",none⟩]),
    .did (.pushEvent { event := .dmOpened, data := .dmChannel ⟨9,2,"bob","",none⟩ })]

theorem settled_once_openDM : settlements ⟨1,"r1"⟩ (.openDM (some 2)) opensDM = 1 := by
  have hpath : Path (handleCommand "" ⟨1,"r1"⟩ (.openDM (some 2))) opensDM (some ()) :=
    .ask _ (.ask _ (.ask _ (.act (.ret ()))))
  refine (settled_once "" hpath rfl rfl).mpr ?_
  intro channelID channels dm hopened hlisted hdm
  obtain rfl : channelID = 9 := by
    simpa [opensDM] using hopened
  obtain rfl : channels = [⟨9,2,"bob","",none⟩] := by
    simpa [opensDM] using hlisted
  obtain rfl := Option.some.inj hdm
  rfl

/-- A message is deleted, with its files, and the sender is told nothing. -/
theorem deleted_unanswered : ¬ ∀ (s3Host : String) (req : Request) (cmd : Command) (l : Exchange)
    (o : Option Unit), Path (handleCommand s3Host req cmd) l o → cmd.parsed = true →
      cmd.queued = true → settlements req cmd l = 1 := by
  intro h
  have hp : Path (handleCommand "" ⟨1,"r1"⟩ (.deleteMessage (some 5)))
      [.asked (.deleteMessage 5 1) (.ok []),.asked (.deleteAttachment []) (.ok ())] (some ()) :=
    .ask _ (.ask _ (.ret ()))
  exact absurd (h _ _ _ _ _ hp rfl rfl) (by decide)

end MiniDiscord.ChatHub
