import MiniDiscord.Notifications.Events
import MiniDiscord.Notifications.Sender

/-! # One decision, taken twice

The push sender and the client's rules decide alike about every recipient without a
connection. The sender leaves a recipient with a connection to the recipient's own tab.
-/
namespace MiniDiscord.Notifications
open ChatHub Effects Program

/-- What the client of a recipient decides at `now`, on the settings that it is sent. -/
def clientDecision (t : Tables) (ch : ChannelRow) (msg : WsMessage) (userID : UserID)
    (activeChannelID : ChannelID) (isPageVisible : Bool) (now : Time) : NotifyDecision :=
  shouldNotify (notifiable msg) ⟨some userID,activeChannelID,isPageVisible,ch.serverID.getD 0,
    some (toSettings (t.getNotificationSettings userID))⟩ now

/-! ## The settings, resolved on both sides -/

@[simp] theorem toSettings_eq (raw : NotificationSettings) : toSettings raw = raw := by
  unfold toSettings
  cases h : raw.defaultLevel <;> simp [← h]

/-- A mute of the later of two deadlines is a mute of one of them. -/
theorem isTimeInFuture_greatest (a b : Option Time) (now : Time) :
    isTimeInFuture (greatest a b) now = (isTimeInFuture a now || isTimeInFuture b now) := by
  cases a with
  | none => rfl
  | some a =>
    cases b with
    | none => simp [greatest,isTimeInFuture]
    | some b => simp [greatest,isTimeInFuture,Bool.decide_or]

theorem serverRow_getD (t : Tables) (userID : UserID) (ch : ChannelRow) :
    t.serverRow userID (ch.serverID.getD 0) = t.serverRowOf userID ch := by
  unfold Tables.serverRowOf
  cases ch.serverID with
  | none => exact serverRow_of_nonpos t userID (le_refl 0)
  | some serverID => rfl

/-- What is read of an override is what is read of its row. -/
theorem channelOverride_bind (t : Tables) (userID : UserID) (channelID : ChannelID) {B : Type}
    (f : ChannelNotificationOverride → Option B) :
    (channelOverride (t.getNotificationSettings userID) channelID).bind f =
      (t.channelSettingRow userID channelID).bind (fun r => f ⟨r.channelID,r.level,r.mutedUntil⟩) := by
  unfold channelOverride
  rw [find?_channels,Option.bind_map]
  rfl

theorem serverOverride_bind (t : Tables) (userID : UserID) (ch : ChannelRow) {B : Type}
    (f : ServerNotificationOverride → Option B) :
    (serverOverride (t.getNotificationSettings userID) (ch.serverID.getD 0)).bind f =
      (t.serverRowOf userID ch).bind (fun r => f ⟨r.serverID,r.level,r.mutedUntil⟩) := by
  unfold serverOverride
  rw [find?_servers,Option.bind_map,serverRow_getD]
  rfl

theorem isMuted_eq (t : Tables) (userID : UserID) (ch : ChannelRow) (now : Time) :
    isMuted (some (t.getNotificationSettings userID)) (ch.serverID.getD 0) ch.id now =
      isTimeInFuture (t.resolveTarget ch userID).mutedUntil now := by
  unfold isMuted Tables.resolveTarget
  dsimp only
  rw [isTimeInFuture_greatest,channelOverride_bind,serverOverride_bind]
  cases isTimeInFuture ((t.channelSettingRow userID ch.id).bind ChannelSettingRow.mutedUntil) now with
  | false => rfl
  | true => rfl

/-- The IDs of servers are positive, and 0 stands for none. -/
theorem getD_serverID_nonpos {t : Tables} {ch : ChannelRow} (hch : ch ∈ t.channels) :
    ch.serverID.getD 0 ≤ 0 ↔ ch.serverID = none := by
  cases h : ch.serverID with
  | none => simp
  | some serverID =>
    have hpos := t.channelServerIDs ch hch serverID h
    simpa using hpos

/-- The override of the channel, else `all` for a direct message, else the override of the
server, else the default. -/
theorem resolveLevel_eq {t : Tables} {ch : ChannelRow} (hch : ch ∈ t.channels) (userID : UserID) :
    resolveLevel (some (t.getNotificationSettings userID)) (ch.serverID.getD 0) ch.id =
      (t.resolveTarget ch userID).level := by
  unfold resolveLevel Tables.resolveTarget
  dsimp only
  rw [channelOverride_bind,serverOverride_bind]
  cases (t.channelSettingRow userID ch.id).bind ChannelSettingRow.level with
  | some level => rfl
  | none =>
    by_cases hs : ch.serverID = none
    · rw [if_pos ((getD_serverID_nonpos hch).mpr hs),if_pos hs]
      rfl
    · rw [if_neg (fun h => hs ((getD_serverID_nonpos hch).mp h)),if_neg hs]
      cases (t.serverRowOf userID ch).bind ServerRow.level with
      | some level => rfl
      | none => rfl

theorem isDoNotDisturb_eq (t : Tables) (userID : UserID) (ch : ChannelRow) (now : Time) :
    isDoNotDisturb (some (t.getNotificationSettings userID)) now =
      isTimeInFuture (t.resolveTarget ch userID).dndUntil now := rfl

/-- The two sides call a message a mention alike. -/
theorem isMention_eq {authorID : UserID} {event : PushEvent} (h : FromHub authorID event)
    {userID : UserID} (hu : userID ∈ event.recipientIDs) :
    isMention (notifiable event.message) (some userID) = event.isMention userID := by
  rw [h.mention]
  unfold isMention notifiable
  cases event.message.replyTo <;> simp [hu,Bool.decide_or,Bool.or_assoc]

/-! ## The decisions -/

/-- What a worker does for a target is what the target's client decides. -/
theorem processTarget_clientDecision {authorID : UserID} {event : PushEvent}
    (h : FromHub authorID event) {t : Tables} {ch : ChannelRow} (hch : ch ∈ t.channels)
    (hid : ch.id = event.channelID) (now : Time) {userID : UserID} (hu : userID ∈ event.recipientIDs)
    (hne : userID ≠ event.message.authorID) (hoff : userID ∉ event.onlineIDs)
    {activeChannelID : ChannelID} {isPageVisible : Bool}
    (hview : ¬ (event.channelID = activeChannelID ∧ isPageVisible = true)) :
    decision (processTarget event now (t.resolveTarget ch userID)) =
      clientDecision t ch event.message userID activeChannelID isPageVisible now := by
  have hchannel : event.message.channelID = ch.id := h.channel.trans hid.symm
  have hview' : ¬ (ch.id = activeChannelID ∧ isPageVisible = true) := by rwa [hid]
  have huser : (t.resolveTarget ch userID).userID = userID := rfl
  unfold clientDecision shouldNotify processTarget
  dsimp only
  rw [toSettings_eq,isMention_eq h hu]
  simp only [notifiable,hchannel]
  rw [resolveLevel_eq hch,isMuted_eq,isDoNotDisturb_eq t userID ch,huser]
  rw [if_neg (fun he => hne (Option.some.inj he)),if_neg hview',if_neg hoff]
  by_cases hdnd : isTimeInFuture (t.resolveTarget ch userID).dndUntil now = true
  · rw [if_pos hdnd,if_pos hdnd]
    rfl
  rw [if_neg hdnd,if_neg hdnd]
  -- the sender looks at the mute first, the client at the level
  by_cases hmute : isTimeInFuture (t.resolveTarget ch userID).mutedUntil now = true
  · rw [if_pos hmute,if_pos hmute,ite_self]
    rfl
  rw [if_neg hmute,if_neg hmute]
  by_cases hnone : (t.resolveTarget ch userID).level = .none
  · rw [if_pos hnone,if_pos hnone]
    rfl
  rw [if_neg hnone,if_neg hnone]
  by_cases hmentions : (t.resolveTarget ch userID).level = .mentions ∧ event.isMention userID = false
  · rw [if_pos hmentions,if_pos hmentions]
    rfl
  rw [if_neg hmentions,if_neg hmentions]
  rfl

/-- The sender's decision for a recipient is what comes of the recipient's own target. -/
theorem pushDecision_eq {t : Tables} {event : PushEvent} {ch : ChannelRow}
    (hch : t.channels.find? (fun ch => decide (ch.id = event.channelID)) = some ch) (now : Time)
    {userID : UserID} (hu : userID ∈ event.recipientIDs) :
    pushDecision t event now userID = decision (processTarget event now (t.resolveTarget ch userID)) := by
  unfold pushDecision processEvent Tables.resolveNotificationTargets
  rw [hch]
  dsimp only
  rw [find?_filterMap_userIDs (fun _ => rfl) event now hu]

/-- For a message of `sendMessage`, whatever its calls answered: a recipient other than the
author that is not viewing the channel gets the same decision from the push sender as from
the client, when it had no connection; else the push sender leaves it alone. -/
theorem pushDecision_sendMessage {s3Host : String} {req : Request}
    {payload : Option WsSendMessageRequest} {l : List (Entry Call Call.Answer Act)}
    {o : Option Unit} (h : Path (sendMessage s3Host req payload) l o) {event : PushEvent}
    (he : event ∈ pushEvents l) {t : Tables} {ch : ChannelRow}
    (hch : t.channels.find? (fun ch => decide (ch.id = event.channelID)) = some ch) (now : Time)
    {userID : UserID} (hu : userID ∈ event.recipientIDs) (hne : userID ≠ event.message.authorID)
    {activeChannelID : ChannelID} {isPageVisible : Bool}
    (hview : ¬ (event.channelID = activeChannelID ∧ isPageVisible = true)) :
    pushDecision t event now userID = if userID ∈ event.onlineIDs then .none else
      clientDecision t ch event.message userID activeChannelID isPageVisible now := by
  have hhub : FromHub req.userID event := (sendMessage_event h (fun _ _ => trivial) he).1
  have hid : ch.id = event.channelID := by simpa using List.find?_some hch
  rw [pushDecision_eq hch now hu]
  by_cases hon : userID ∈ event.onlineIDs
  · rw [if_pos hon,processTarget_online now hon]
    rfl
  · rw [if_neg hon]
    exact processTarget_clientDecision hhub (List.mem_of_find?_eq_some hch) hid now hu hne hon hview

/-! ## A greeting -/

/-- User 1 is let into channel 5, which user 2 reads too. -/
def answerGreeting (online : List UserID) : (c : Call) → c.Answer
  | .allow _ _ => true
  | .canUserAccessChannel _ _ => .ok true
  | .listChannelMemberUserIDs _ => .ok [1,2]
  | .getUserByID id => .ok (some ⟨id,"","","","","",false⟩)
  | .saveMessage _ => .ok (7,0)
  | .pushSender => true
  | .getChannelByID id => .ok (some ⟨id,3,"",.text,0⟩)
  | .clientsByUser => online
  | _ => default

/-- User 1 says hi in channel 5. -/
def greeting (online : List UserID) : List (Entry Call Call.Answer Act) × Option Unit :=
  run (fun _ => answerGreeting online) 0 (sendMessage "" ⟨1,""⟩ (some ⟨5,"hi",[],none⟩))

def greetingEvent (online : List UserID) : Option PushEvent := (pushEvents (greeting online).1).head?

/-- A server's channel 5, without any setting. -/
def noSettings : Tables :=
  { Tables.empty with
    channels := [⟨5,some 3⟩]
    channelServerIDs := by decide }

theorem pushDecision_sendMessage_offline : ∃ event, greetingEvent [1] = some event ∧
    pushDecision noSettings event 0 2 = if 2 ∈ event.onlineIDs then .none else
      clientDecision noSettings ⟨5,some 3⟩ event.message 2 0 false 0 := by
  have hsome : (greetingEvent [1]).isSome = true := by decide +kernel
  refine ⟨(greetingEvent [1]).get hsome,(Option.some_get hsome).symm,?_⟩
  refine pushDecision_sendMessage (path_run _ 0 _) (List.mem_of_head? (Option.some_get hsome).symm)
    ?_ 0 ?_ ?_ ?_ <;> decide +kernel +revert

/-- The client of a reader that looks at another channel shows what is not pushed to it. -/
theorem pushDecision_online : ¬ ∀ (s3Host : String) (req : Request)
    (payload : Option WsSendMessageRequest) (l : List (Entry Call Call.Answer Act))
    (o : Option Unit), Path (sendMessage s3Host req payload) l o → ∀ event ∈ pushEvents l,
    ∀ (t : Tables) (ch : ChannelRow),
      t.channels.find? (fun ch => decide (ch.id = event.channelID)) = some ch → ∀ (now : Time),
    ∀ userID ∈ event.recipientIDs, userID ≠ event.message.authorID →
    ∀ (activeChannelID : ChannelID) (isPageVisible : Bool),
      ¬ (event.channelID = activeChannelID ∧ isPageVisible = true) →
      pushDecision t event now userID =
        clientDecision t ch event.message userID activeChannelID isPageVisible now := by
  intro h
  have hsome : (greetingEvent [1,2]).isSome = true := by decide +kernel
  have hd := h "" ⟨1,""⟩ (some ⟨5,"hi",[],none⟩) _ _ (path_run _ 0 _)
    ((greetingEvent [1,2]).get hsome) (List.mem_of_head? (Option.some_get hsome).symm) noSettings
    ⟨5,some 3⟩ (by decide +kernel +revert) 0 2 (by decide +kernel +revert)
    (by decide +kernel +revert) 0 false (by decide +kernel +revert)
  revert hd
  decide +kernel +revert

end MiniDiscord.Notifications
