import MiniDiscord.Commands.Dispatch
import Mathlib.Algebra.GroupWithZero.Nat

/-! # What settles a command

The client keeps one command pending and settles it with the first event it accepts:
an error or an ack whose request ID is empty or its own, or the event named after the
action. An event reaches the sender when it is pushed to its connection or to a list of
users it is in.
-/
namespace MiniDiscord.ChatHub
open SfuTrack Effects Program

def Command.action : Command → String
  | .createServer _ => "create_server"
  | .deleteServer _ => "delete_server"
  | .joinServer _ => "join_server"
  | .createChannel _ => "create_channel"
  | .deleteChannel _ => "delete_channel"
  | .sendMessage _ => "send_message"
  | .deleteMessage _ => "delete_message"
  | .editMessage _ => "edit_message"
  | .getMessages _ => "get_messages"
  | .getServers => "get_servers"
  | .getServerChannels _ => "get_server_channels"
  | .getUsersOnline _ => "get_users_online"
  | .joinVoiceChannel _ => "join_voice_channel"
  | .leaveVoiceChannel => "leave_voice_channel"
  | .sfuOffer _ => "sfu_offer"
  | .sfuAnswer _ => "sfu_answer"
  | .sfuCandidate _ => "sfu_candidate"
  | .sfuSubscribeVideo _ => "sfu_subscribe_video"
  | .sfuResume _ => "sfu_resume"
  | .sfuPublishState _ => "sfu_publish_state"
  | .searchServers _ => "search_servers"
  | .getUserInfo _ => "get_user_info"
  | .changeVoiceStatus _ => "change_voice_status"
  | .typingStart _ => "typing_start"
  | .typingStop _ => "typing_stop"
  | .getUnread => "get_unread"
  | .markRead _ => "mark_read"
  | .getServerMembers _ => "get_server_members"
  | .getMessagesAround _ => "get_messages_around"
  | .getMessagesAfter _ => "get_messages_after"
  | .searchMessages _ => "search_messages"
  | .openDM _ => "open_dm"
  | .closeDM _ => "close_dm"
  | .listDMs => "list_dms"
  | .searchUsers _ => "search_users"
  | .unknown => ""

/-- Sent through `sendCommand`, so that a response is waited for. -/
def Command.queued : Command → Bool
  | .sfuCandidate _ => false
  | .typingStart _ => false
  | .typingStop _ => false
  | .markRead _ => false
  | .unknown => false
  | _ => true

/-- `PendingCommand`, without its promise and its timer. -/
structure PendingCommand where
  action : String
  requestId : String
  openDMPeerUserId : Option UserID
  deriving DecidableEq

/-- What `flushQueue` makes of a command. -/
def pendingCommand (requestId : String) (cmd : Command) : PendingCommand where
  action := cmd.action
  requestId := requestId
  openDMPeerUserId := match cmd with
    | .openDM payload => payload
    | _ => none

/-- `ws.onmessage` resolves or rejects the pending command. -/
def PendingCommand.settles (pending : PendingCommand) (e : WsEvent) : Bool :=
  match e.event with
  | .ack => decide (e.requestID = "" ∨ e.requestID = pending.requestId)
  | .error => decide (e.requestID = "" ∨ e.requestID = pending.requestId)
  | .dmOpened =>
    match e.data with
    | .dmChannel dm =>
      decide (pending.action = "open_dm" ∧ pending.openDMPeerUserId = some dm.peerUserID)
    | _ => false
  | .dmList => decide (pending.action = "list_dms")
  | .dmClosed => decide (pending.action = "close_dm")
  | .userSearch => decide (pending.action = "search_users")
  | _ => false

/-- The event of an action, if it goes to user `u`. -/
def Act.received (u : UserID) : Act → Option WsEvent
  | .pushEvent e => some e
  | .pushToUsers userIDs e => if u ∈ userIDs then some e else none
  | .pushToUserID userID e => if userID = u then some e else none
  | _ => none

/-- The events the sender is pushed, in order. -/
def receives (u : UserID) (l : List (Entry Call Call.Answer Act)) : List WsEvent :=
  (actions l).filterMap (Act.received u)

/-- How many of them settle its command. -/
def settlements (req : Request) (cmd : Command) (l : List (Entry Call Call.Answer Act)) : ℕ :=
  (receives req.userID l).countP (pendingCommand req.requestID cmd).settles

/-! ## The lock and the count, together -/

inductive LockMode where
  | read
  | write
  deriving DecidableEq

/-- What a goroutine holds of `h.mu`, and how often the command has been settled. -/
structure Tally where
  held : Option LockMode
  settled : ℕ
  deriving DecidableEq

/-- An action moves what is held; `none` when it takes the lock while holding it, or
releases what it does not hold. -/
def Act.locks : Act → Option LockMode → Option (Option LockMode)
  | .lock, none => some (some .write)
  | .rLock, none => some (some .read)
  | .unlock, some .write => some none
  | .rUnlock, some .read => some none
  | .pushEvent _, none => some none
  | .pushToUsers _ _, none => some none
  | .pushToUserID _ _, none => some none
  | .lock, some _ => none
  | .rLock, some _ => none
  | .unlock, _ => none
  | .rUnlock, _ => none
  | .pushEvent _, some _ => none
  | .pushToUsers _ _, some _ => none
  | .pushToUserID _ _, some _ => none
  | _, held => some held

def Act.settles (u : UserID) (pending : PendingCommand) (a : Act) : ℕ :=
  match a.received u with
  | some e => if pending.settles e then 1 else 0
  | none => 0

def Tally.step (u : UserID) (pending : PendingCommand) (t : Tally) (a : Act) : Option Tally :=
  (a.locks t.held).map (fun held => ⟨held,t.settled + a.settles u pending⟩)

/-- The lock and the count are read off the same actions. -/
theorem follow_tally {u : UserID} {pending : PendingCommand} {l : List Act} {t t' : Tally}
    (h : follow (Tally.step u pending) t l = some t') :
    follow (fun held a => a.locks held) t.held l = some t'.held ∧
      t'.settled = t.settled + (l.map (Act.settles u pending)).sum := by
  induction l generalizing t with
  | nil =>
    cases h
    exact ⟨rfl,rfl⟩
  | cons a l ih =>
    obtain ⟨s,hs,hf⟩ := Option.bind_eq_some_iff.mp h
    obtain ⟨held,hl,rfl⟩ := Option.map_eq_some_iff.mp hs
    obtain ⟨h₁,h₂⟩ := ih hf
    refine ⟨?_,?_⟩
    · rw [follow,hl]
      exact h₁
    · rw [h₂,List.map_cons,List.sum_cons]
      exact Nat.add_assoc _ _ _

/-- How many events of an exchange settle the command, action by action. -/
def heard (u : UserID) (pending : PendingCommand) (l : List (Entry Call Call.Answer Act)) : ℕ :=
  ((actions l).map (Act.settles u pending)).sum

theorem countP_receives (u : UserID) (pending : PendingCommand)
    (l : List (Entry Call Call.Answer Act)) :
    (receives u l).countP pending.settles = heard u pending l := by
  unfold receives heard
  induction actions l with
  | nil => rfl
  | cons a as ih =>
    rw [List.map_cons,List.sum_cons,← ih]
    unfold Act.settles
    cases hr : a.received u with
    | none => simp [hr]
    | some e =>
      by_cases hp : pending.settles e = true
      · simp [hr, hp, Nat.add_comm]
      · simp [hr, hp]

end MiniDiscord.ChatHub
