import MiniDiscord.Commands.Noninterference

/-! # The same events, or others

A run is the user's commands and the steps of their handlers in any order. Whatever a user's
own commands tell it is the same in two hubs that differ only where it may not see, exactly
as long as no command is one that asks before the check.
-/
namespace MiniDiscord.ChatHub
open SfuTrack Effects Program
variable {v : View} {decode : String → Except GoError (Option WsMessageCursor)} {req : Request}

/-! ## Runs -/

/-- What the rest of the hub answers to any call, after any history. -/
abbrev Answers := Surroundings Call Call.Answer Act

/-- A command of the user reaches the hub, or the `i`-th handler takes a step. -/
inductive Input where
  | command (req : Request) (cmd : Command)
  | step (i : ℕ)

def Input.turn (s3Host : String) : Input → Turn Call Call.Answer Act Unit
  | .command req cmd => .start (handleCommand s3Host req cmd)
  | .step i => .step i

/-- All that the handlers ask and do when they take their steps in this order. -/
def exchange (s3Host : String) (w : Answers) (inputs : List Input) :
    List (ℕ × Entry Call Call.Answer Act) :=
  (Turns.play w ⟨[],[]⟩ (inputs.map (Input.turn s3Host))).history

/-- The event that an action sends to the user whose commands are handled. -/
def Act.toldTo (userID : UserID) : Act → Option WsEvent
  | .pushEvent event => some event
  | .pushToUsers userIDs event => if userID ∈ userIDs then some event else none
  | .pushToUserID id event => if id = userID then some event else none
  | _ => none

/-- The events that the user gets, in order. -/
def told (userID : UserID) (history : List (ℕ × Entry Call Call.Answer Act)) : List WsEvent :=
  (actions (history.map Prod.snd)).filterMap (Act.toldTo userID)

theorem exchange_eq (s3Host : String) {w w' : Answers} {inputs : List Input}
    (hcommands : ∀ req cmd, .command req cmd ∈ inputs →
      req.userID = v.userID ∧ ¬cmd.Reveals v decode)
    (hpromises : ∀ h c, v.Shows c → v.Promises decode c (w h c))
    (hagree : ∀ h c, v.Shows c → w h c = w' h c) :
    exchange s3Host w inputs = exchange s3Host w' inputs := by
  have hmediated : ∀ p, .start p ∈ inputs.map (Input.turn s3Host) → Discreet v decode p := by
    intro p hp
    obtain ⟨input,hin,heq⟩ := List.mem_map.mp hp
    cases input with
    | command req cmd =>
      cases heq
      exact handleCommand_discreet s3Host (hcommands req cmd hin).1 (hcommands req cmd hin).2
    | step i => cases heq
  have hsame : Turns.play w ⟨[],[]⟩ (inputs.map (Input.turn s3Host)) =
      Turns.play w' ⟨[],[]⟩ (inputs.map (Input.turn s3Host)) :=
    Turns.play_eq (fun p hp => (List.not_mem_nil hp).elim) hmediated hpromises hagree
  exact congrArg Turns.history hsame

/-! ## Two hubs -/

open Classical in
/-- A hub that lets the user see what it may, and knows nothing else. -/
noncomputable def bareHub (v : View) (decode : String → Except GoError (Option WsMessageCursor)) :
    (c : Call) → c.Answer
  | .allow _ _ => true
  | .canUserAccessChannel _ channelID => .ok (decide (v.sees (.channel channelID)))
  | .decodeWsMessageCursor raw => decode raw
  | _ => default

theorem bareHub_promises (c : Call) : v.Promises decode c (bareHub v decode c) := by
  cases c with
  | canUserAccessChannel userID channelID =>
    intro _ h
    exact @of_decide_eq_true _ (Classical.propDecidable _) (Except.ok.inj h)
  | isServerMember => exact fun _ h => by cases h
  | userVoiceChannel => exact fun _ _ h => by cases h
  | sfuSessionByUser => exact fun _ _ h => by cases h
  | getChannelByID => exact fun _ h => by cases h
  | getServerChannels => exact fun _ h => by cases h
  | saveMessage => exact fun _ _ h => by cases h
  | editMessage => exact fun _ _ _ h => by cases h
  | decodeWsMessageCursor => rfl
  | _ => trivial

/-- The same hub, but for one answer that tells of what the user does not see. -/
noncomputable def otherHub (v : View) (decode : String → Except GoError (Option WsMessageCursor))
    (c : Call) (r : c.Answer) : Answers := fun _ => Function.update (bareHub v decode) c r

theorem otherHub_self (h : List (ℕ × Entry Call Call.Answer Act)) (c : Call) (r : c.Answer) :
    otherHub v decode c r h c = r := Function.update_self _ _ _

theorem otherHub_of_ne (h : List (ℕ × Entry Call Call.Answer Act)) {c c' : Call} (r : c.Answer)
    (hne : c' ≠ c) : otherHub v decode c r h c' = bareHub v decode c' :=
  Function.update_of_ne hne _ _

theorem not_shows {c : Call} {x : Resource} (hc : c.about = some x) (hx : ¬v.sees x) :
    ¬v.Shows c := fun h => hx (h x hc)

/-- A message that one of the two hubs has. -/
def secret (channelID : ChannelID) : WsMessage :=
  ⟨1,channelID,2,"","","","","secret",[],none,none,[],false,[],0,none⟩

/-- Two hubs that answer alike whatever tells of what the user sees tell it the same. -/
theorem same_events (s3Host : String) {w w' : Answers} {inputs : List Input}
    (hcommands : ∀ req cmd, .command req cmd ∈ inputs →
      req.userID = v.userID ∧ ¬cmd.Reveals v decode)
    (hpromises : ∀ h c, v.Shows c → v.Promises decode c (w h c))
    (hagree : ∀ h c, v.Shows c → w h c = w' h c) :
    told v.userID (exchange s3Host w inputs) = told v.userID (exchange s3Host w' inputs) := by
  rw [exchange_eq s3Host hcommands hpromises hagree]

/-- User 1 sees server 1 and its channel 1. -/
def outsider : View where
  userID := 1
  sees x := ¬x.Named ∨ x = .server 1 ∨ x = .channel 1
  nothing _ h := Or.inl h

/-- The handlers of two commands take turns. -/
def overview : List Input :=
  [.command ⟨1,""⟩ (.getMessages (some ⟨1,50,""⟩)),.step 0,.command ⟨1,""⟩ .getServers,.step 1,
    .step 0,.step 1,.step 0]

theorem same_events_outsider :
    otherHub outsider (fun _ => .ok none) (.getMessages 2 50 none) (.ok ([secret 2],none,false)) []
        (.getMessages 2 50 none) ≠ bareHub outsider (fun _ => .ok none) (.getMessages 2 50 none) ∧
      told 1 (exchange "" (fun _ => bareHub outsider (fun _ => .ok none)) overview) =
        told 1 (exchange "" (otherHub outsider (fun _ => .ok none) (.getMessages 2 50 none)
          (.ok ([secret 2],none,false))) overview) := by
  have hhidden : ¬outsider.Shows (.getMessages 2 50 none) := by
    refine not_shows rfl ?_
    rintro (h | h | h)
    · exact h (show (0 : ChannelID) < 2 by decide)
    · cases h
    · cases h
  have hcommands : ∀ req cmd, .command req cmd ∈ overview →
      req.userID = outsider.userID ∧ ¬cmd.Reveals outsider (fun _ => .ok none) := by
    intro req cmd h
    simp only [overview, List.mem_cons, Input.command.injEq, List.not_mem_nil, reduceCtorEq,
      or_false, false_or] at h
    rcases h with ⟨rfl,rfl⟩ | ⟨rfl,rfl⟩
    · exact ⟨rfl,fun h => h.1 (Or.inr (Or.inr rfl))⟩
    · exact ⟨rfl,id⟩
  refine ⟨?_,same_events "" hcommands (fun _ c _ => bareHub_promises c) (fun h c hc => ?_)⟩
  · rw [otherHub_self]
    exact nofun
  · refine (otherHub_of_ne h _ (fun he => ?_)).symm
    rw [he] at hc
    exact hhidden hc

/-! ## What a command that asks before the check tells -/

/-- Two hubs that the user may not tell apart, and yet it gets other events from them. -/
def Distinguishes (v : View) (decode : String → Except GoError (Option WsMessageCursor))
    (s3Host : String) (req : Request) (cmd : Command) : Prop :=
  ∃ w w' : Answers, (∀ h c, v.Shows c → v.Promises decode c (w h c)) ∧
    (∀ h c, v.Shows c → w h c = w' h c) ∧ ∃ n,
      told v.userID (exchange s3Host w (.command req cmd :: List.replicate n (.step 0))) ≠
        told v.userID (exchange s3Host w' (.command req cmd :: List.replicate n (.step 0)))

theorem distinguishes_of {s3Host : String} {cmd : Command} {c : Call} (r r' : c.Answer)
    (hc : ¬v.Shows c)
    (h : told v.userID (alone (otherHub v decode c r) 0 [] (handleCommand s3Host req cmd)) ≠
      told v.userID (alone (otherHub v decode c r') 0 [] (handleCommand s3Host req cmd))) :
    Distinguishes v decode s3Host req cmd := by
  have hne : ∀ {c'}, v.Shows c' → c' ≠ c := fun hs he => hc (he ▸ hs)
  obtain ⟨n,hn⟩ := Turns.play_alone (w := otherHub v decode c r) (handleCommand s3Host req cmd) []
  obtain ⟨n',hn'⟩ := Turns.play_alone (w := otherHub v decode c r') (handleCommand s3Host req cmd) []
  refine ⟨otherHub v decode c r,otherHub v decode c r',fun h c' hs => ?_,fun h c' hs => ?_,
    n + n',?_⟩
  · rw [otherHub_of_ne h r (hne hs)]
    exact bareHub_promises c'
  · rw [otherHub_of_ne h r (hne hs),otherHub_of_ne h r' (hne hs)]
  · have hturns : ∀ w : Answers, exchange s3Host w
        (.command req cmd :: List.replicate (n + n') (.step 0)) =
          (Turns.play w ⟨[],[handleCommand s3Host req cmd]⟩
            (List.replicate (n + n') (.step 0))).history := by
      intro w
      unfold exchange
      rw [List.map_cons,List.map_replicate]
      rfl
    rw [hturns,hturns,hn _ (Nat.le_add_right n n'),hn' _ (Nat.le_add_left n' n)]
    exact h

theorem pos_of_unseen {id : ChannelID} (h : ¬v.sees (.channel id)) : ¬id ≤ 0 :=
  fun hle => h (v.nothing _ (not_lt.mpr hle))

theorem told_asked (u : UserID) (h : List (ℕ × Entry Call Call.Answer Act)) (i : ℕ) (c : Call)
    (r : c.Answer) : told u (h ++ [(i,.asked c r)]) = told u h := by
  unfold told
  rw [List.map_append,actions_append,List.filterMap_append]
  exact List.append_nil _

/-- A handler that ends with an event for the user. -/
theorem told_pushEvent (w : Answers) (u : UserID) (h : List (ℕ × Entry Call Call.Answer Act))
    (i : ℕ) (e : WsEvent) : told u (alone w i h (act (.pushEvent e))) = told u h ++ [e] := by
  change told u (h ++ [(i,.did (.pushEvent e))]) = _
  unfold told
  rw [List.map_append,actions_append,List.filterMap_append]
  rfl

/-- Two handlers that end with different events, when the user was told the same before. -/
theorem told_pushEvent_ne {w w' : Answers} {u : UserID} {i : ℕ} {e e' : WsEvent}
    {h h' : List (ℕ × Entry Call Call.Answer Act)} (hbefore : told u h = told u h')
    (he : e ≠ e') :
    told u (alone w i h (act (.pushEvent e))) ≠ told u (alone w' i h' (act (.pushEvent e'))) := by
  rw [told_pushEvent,told_pushEvent,hbefore]
  intro heq
  exact he (List.singleton_injective (List.append_cancel_left heq))

theorem deleteChannel_distinguishes (s3Host : String) {channelID : ChannelID}
    (h : ¬v.sees (.channel channelID)) :
    Distinguishes v decode s3Host req (.deleteChannel (some channelID)) := by
  refine distinguishes_of (c := .deleteChannel channelID req.userID)
    (.error (.other "channel not found")) (.error (.other "user is not server owner"))
    (not_shows rfl h) ?_
  change told _ (alone _ 0 [] (deleteChannel req (some channelID))) ≠
    told _ (alone _ 0 [] (deleteChannel req (some channelID)))
  unfold deleteChannel
  dsimp only
  rw [if_neg (pos_of_unseen h),alone_ask,alone_ask,otherHub_self,otherHub_self]
  exact told_pushEvent_ne (by simp only [told_asked]) (by decide)

theorem deleteMessage_distinguishes (s3Host : String) {messageID : MessageID}
    (h : ¬v.sees (.message messageID)) :
    Distinguishes v decode s3Host req (.deleteMessage (some messageID)) := by
  refine distinguishes_of (c := .deleteMessage messageID req.userID)
    (.error (.other "message not found")) (.error (.other "user is not message owner"))
    (not_shows rfl h) ?_
  change told _ (alone _ 0 [] (deleteMessage req (some messageID))) ≠
    told _ (alone _ 0 [] (deleteMessage req (some messageID)))
  unfold deleteMessage
  dsimp only
  rw [if_neg (fun hle => h (v.nothing _ (not_lt.mpr hle))),alone_ask,alone_ask,otherHub_self,
    otherHub_self]
  exact told_pushEvent_ne (by simp only [told_asked]) (by decide)

theorem joinVoiceChannel_distinguishes (s3Host : String) {channelID : ChannelID}
    (h : ¬v.sees (.channel channelID)) :
    Distinguishes v decode s3Host req (.joinVoiceChannel (some channelID)) := by
  refine distinguishes_of (c := .getChannelByID channelID) (.error .noRows)
    (.ok (some ⟨channelID,1,"private",.text,0⟩)) (not_shows rfl h) ?_
  change told _ (alone _ 0 [] (joinVoiceChannel s3Host req (some channelID))) ≠
    told _ (alone _ 0 [] (joinVoiceChannel s3Host req (some channelID)))
  unfold joinVoiceChannel
  dsimp only
  rw [if_neg (pos_of_unseen h),alone_ask,alone_ask,otherHub_self,otherHub_self]
  change told _ (alone _ 0 _ (pushError "channel not found")) ≠
    told _ (alone _ 0 _ (act (.pushEvent _)))
  exact told_pushEvent_ne (by simp only [told_asked]) (by decide)

theorem otherHub_allow {c : Call} {r : c.Answer} (h : List (ℕ × Entry Call Call.Answer Act))
    {limiter : Limiter} {userID : UserID} (hne : Call.allow limiter userID ≠ c) :
    otherHub v decode c r h (.allow limiter userID) = true := otherHub_of_ne h r hne

theorem otherHub_access {c : Call} {r : c.Answer} (h : List (ℕ × Entry Call Call.Answer Act))
    {userID : UserID} {channelID : ChannelID} (hne : Call.canUserAccessChannel userID channelID ≠ c)
    (hsees : v.sees (.channel channelID)) :
    otherHub v decode c r h (.canUserAccessChannel userID channelID) = .ok true := by
  rw [otherHub_of_ne h r hne]
  exact congrArg Except.ok (@decide_eq_true _ (Classical.propDecidable _) hsees)

theorem otherHub_decode {c : Call} {r : c.Answer} (h : List (ℕ × Entry Call Call.Answer Act))
    {raw : String} (hne : Call.decodeWsMessageCursor raw ≠ c) :
    otherHub v decode c r h (.decodeWsMessageCursor raw) = decode raw := otherHub_of_ne h r hne

theorem editMessage_distinguishes (s3Host : String) {payload : WsEditMessageRequest}
    (h : (Command.editMessage (some payload)).Reveals v decode) :
    Distinguishes v decode s3Host req (.editMessage (some payload)) := by
  obtain ⟨hsees,hlength⟩ := h
  have hallow : ∀ r h, otherHub v decode
      (.editMessage payload.messageID req.userID (trimSpace payload.content)) r h
        (.allow .sendMessage req.userID) = true := fun r h => otherHub_allow h nofun
  refine distinguishes_of (c := .editMessage payload.messageID req.userID (trimSpace payload.content))
    (.error .messageNotFound) (.error .notMessageOwner) (not_shows rfl hsees) ?_
  change told _ (alone _ 0 [] (editMessage req (some payload))) ≠
    told _ (alone _ 0 [] (editMessage req (some payload)))
  unfold editMessage
  dsimp only
  rw [alone_ask,alone_ask,hallow,hallow,if_neg (by decide),
    if_neg (fun hle => hsees (v.nothing _ (not_lt.mpr hle))),if_neg (not_lt.mpr hlength),
    alone_ask,alone_ask,otherHub_self,otherHub_self]
  exact told_pushEvent_ne (by simp only [told_asked]) (by decide)

theorem getMessages_distinguishes (s3Host : String) {payload : WsGetMessagesRequest}
    (h : (Command.getMessages (some payload)).Reveals v decode) :
    Distinguishes v decode s3Host req (.getMessages (some payload)) := by
  obtain ⟨hsees,cursor,hdecode,hcursor⟩ := h
  have hmatch : ¬∃ c ∈ cursor, c.channelID ≠ payload.channelID := by
    rintro ⟨c,hc,hother⟩
    exact hother (hcursor c hc)
  have hraw : ∀ r h, otherHub v decode (.getMessages payload.channelID payload.limit cursor) r h
      (.decodeWsMessageCursor payload.cursor) = .ok cursor :=
    fun r h => (otherHub_decode (c := .getMessages payload.channelID payload.limit cursor) h
      nofun).trans hdecode
  refine distinguishes_of (c := .getMessages payload.channelID payload.limit cursor)
    (.ok ([],none,false)) (.ok ([secret payload.channelID],none,false)) (not_shows rfl hsees) ?_
  change told _ (alone _ 0 [] (getMessages (some payload))) ≠
    told _ (alone _ 0 [] (getMessages (some payload)))
  unfold getMessages
  dsimp only
  rw [if_neg (pos_of_unseen hsees),alone_ask,alone_ask,hraw,hraw]
  dsimp only
  rw [if_neg hmatch,alone_ask,alone_ask,otherHub_self,otherHub_self]
  change told _ (alone _ 0 _ (act (.pushEvent _))) ≠ told _ (alone _ 0 _ (act (.pushEvent _)))
  exact told_pushEvent_ne (by simp only [told_asked]) nofun

theorem sendMessage_distinguishes (s3Host : String) {payload : WsSendMessageRequest}
    (h : (Command.sendMessage (some payload)).Reveals v decode) :
    Distinguishes v decode s3Host req (.sendMessage (some payload)) := by
  obtain ⟨⟨m,hm,hsees⟩,hpos,hchannel,hlength⟩ := h
  have hreply : payload.replyToID = some m := hm
  have hm0 : ¬m ≤ 0 := fun hle => hsees (v.nothing _ (not_lt.mpr hle))
  have hallow : ∀ r h, otherHub v decode (.getReplyPreview m) r h
      (.allow .sendMessage req.userID) = true := fun r h => otherHub_allow h nofun
  have haccess : ∀ r h, otherHub v decode (.getReplyPreview m) r h
      (.canUserAccessChannel req.userID payload.channelID) = .ok true :=
    fun r h => otherHub_access h nofun hchannel
  refine distinguishes_of (c := .getReplyPreview m) (.ok none)
    (.ok (some ⟨m,payload.channelID + 1,2,"","","","secret",false⟩)) (not_shows rfl hsees) ?_
  change told _ (alone _ 0 [] (sendMessage s3Host req (some payload))) ≠
    told _ (alone _ 0 [] (sendMessage s3Host req (some payload)))
  unfold sendMessage
  dsimp only
  rw [alone_ask,alone_ask,hallow,hallow,if_neg (by decide),
    if_neg (not_le.mpr hpos),if_neg (fun hempty => hm0 (by simpa [hreply] using hempty.2.2)),
    if_neg (not_lt.mpr hlength)]
  unfold sendChecked
  rw [alone_ask,alone_ask,haccess,haccess]
  dsimp only
  rw [hreply]
  unfold resolveReply
  dsimp only
  rw [if_neg hm0,alone_ask_bind,alone_ask_bind,otherHub_self,otherHub_self]
  change told _ (alone _ 0 _ (act (.pushEvent _))) ≠ told _ (alone _ 0 _ ((if _ then _ else _) >>= _))
  rw [if_pos (by simp)]
  change told _ (alone _ 0 _ (act (.pushEvent _))) ≠ told _ (alone _ 0 _ (act (.pushEvent _)))
  exact told_pushEvent_ne (by simp only [told_asked]) (by decide)

/-- Nobody is in a voice channel of a server that has none. -/
theorem alone_textChannels (w : Answers) (s3Host : String) (i : ℕ)
    (h : List (ℕ × Entry Call Call.Answer Act)) {channels : List Channel}
    (ht : channels.filter (fun c => decide (c.type = .voice)) = [])
    (f : List WsVoiceChannelParticipants → HubM Unit) :
    alone w i h (buildVoiceParticipantsSnapshot s3Host channels >>= f) =
      alone w i (h ++ [(i,.did .rLock)] ++ [(i,.did .rUnlock)]) (f []) := by
  unfold buildVoiceParticipantsSnapshot
  rw [ht]
  dsimp only
  rw [List.map_nil,List.dedup_nil]
  change alone w i (h ++ [(i,.did .rLock)] ++ [(i,.did .rUnlock)]) (f (List.mergeSort [] _)) = _
  rw [List.mergeSort_nil]

theorem told_did (u : UserID) (h : List (ℕ × Entry Call Call.Answer Act)) (i : ℕ) {a : Act}
    (ha : a.toldTo u = none) : told u (h ++ [(i,.did a)]) = told u h := by
  unfold told
  rw [List.map_append,actions_append,List.filterMap_append]
  change _ ++ [a].filterMap (Act.toldTo u) = _
  rw [List.filterMap_cons_none ha]
  exact List.append_nil _

theorem getServerChannels_distinguishes (s3Host : String) {serverID : ServerID}
    (h : ¬v.sees (.server serverID)) :
    Distinguishes v decode s3Host req (.getServerChannels (some serverID)) := by
  refine distinguishes_of (c := .getServerChannels serverID) (.ok [])
    (.ok [⟨1,serverID,"private",.text,0⟩]) (not_shows rfl h) ?_
  change told _ (alone _ 0 [] (getServerChannels s3Host (some serverID))) ≠
    told _ (alone _ 0 [] (getServerChannels s3Host (some serverID)))
  unfold getServerChannels
  dsimp only
  rw [if_neg (fun hle => h (v.nothing _ (not_lt.mpr hle))),alone_ask,alone_ask,otherHub_self,
    otherHub_self]
  dsimp only
  rw [alone_textChannels _ _ _ _ rfl,alone_textChannels _ _ _ _ rfl]
  refine told_pushEvent_ne ?_ nofun
  rw [told_did _ _ _ rfl,told_did _ _ _ rfl,told_did _ _ _ rfl,told_did _ _ _ rfl,told_asked,
    told_asked]

/-- Every command that asks for what its user does not see distinguishes two hubs. -/
theorem revealed (s3Host : String) {cmd : Command} (h : cmd.Reveals v decode) :
    Distinguishes v decode s3Host req cmd := by
  cases cmd with
  | deleteChannel payload =>
    cases payload with
    | none => exact h.elim
    | some channelID => exact deleteChannel_distinguishes s3Host h
  | sendMessage payload =>
    cases payload with
    | none => exact h.elim
    | some payload => exact sendMessage_distinguishes s3Host h
  | deleteMessage payload =>
    cases payload with
    | none => exact h.elim
    | some messageID => exact deleteMessage_distinguishes s3Host h
  | editMessage payload =>
    cases payload with
    | none => exact h.elim
    | some payload => exact editMessage_distinguishes s3Host h
  | getMessages payload =>
    cases payload with
    | none => exact h.elim
    | some payload => exact getMessages_distinguishes s3Host h
  | getServerChannels payload =>
    cases payload with
    | none => exact h.elim
    | some serverID => exact getServerChannels_distinguishes s3Host h
  | joinVoiceChannel payload =>
    cases payload with
    | none => exact h.elim
    | some channelID => exact joinVoiceChannel_distinguishes s3Host h
  | _ => exact h.elim

/-- A command tells its user of what it may not see exactly if it asks for it unchecked. -/
theorem distinguishes_iff (s3Host requestID : String) (cmd : Command) :
    Distinguishes v decode s3Host ⟨v.userID,requestID⟩ cmd ↔ cmd.Reveals v decode := by
  refine ⟨fun ⟨w,w',hpromises,hagree,n,hne⟩ => ?_,revealed s3Host⟩
  by_contra hdiscreet
  have hcommands : ∀ req cmd', .command req cmd' ∈ Input.command ⟨v.userID,requestID⟩ cmd ::
      List.replicate n (.step 0) → req.userID = v.userID ∧ ¬cmd'.Reveals v decode := by
    intro req cmd' h
    rcases List.mem_cons.mp h with heq | h
    · cases heq
      exact ⟨rfl,hdiscreet⟩
    · cases List.eq_of_mem_replicate h
  exact hne (congrArg (told v.userID) (exchange_eq s3Host hcommands hpromises hagree))

end MiniDiscord.ChatHub
