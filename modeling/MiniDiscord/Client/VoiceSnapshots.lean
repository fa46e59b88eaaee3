import MiniDiscord.Commands.Types
import MiniDiscord.Hub.VoiceState
import Mathlib.Data.Finset.Sort

/-! # Voice snapshots

A participant on the way from the hub's maps to the tiles: the three responses that list
participants, the objects they are on the wire, what `ChatSocket` reads of them and what
`useVoice` and `SfuCallClient` keep.
-/
namespace MiniDiscord.VoiceSnapshots
open ChatHub

/-! ## The hub -/

/-- What one response is built from: the maps when the participants are listed, the maps when
each of them is resolved, and the profiles found. -/
structure Moment where
  hub : VoiceHub.Hub
  resolved : UserID → VoiceHub.Hub
  user : UserID → Option User

namespace Moment
variable (m : Moment)

/-- The user has a grace timer when it is resolved. -/
def Detached (userID : UserID) : Prop := ((m.resolved userID).sfuGraceTimers.lookup userID).isSome = true

def resolveVoiceParticipant (s3Host : String) (userID : UserID) : WsVoiceParticipant :=
  let p := (m.resolved userID).resolveVoiceParticipant userID
  match m.user userID with
  | none => ⟨userID,"","","",p.micEnabled,p.deafened,"",p.detached⟩
  | some user => ⟨userID,user.firstName,user.lastName,user.nickname,p.micEnabled,p.deafened,
      avatarURLFromKey user.avatarKey s3Host,p.detached⟩

/-- The voice channels that have participants. -/
def buildVoiceParticipantsSnapshot (s3Host : String) (channels : List Channel) :
    List WsVoiceChannelParticipants :=
  let voiceChannelIDs := ((channels.filter (fun c => decide (c.type = .voice))).map Channel.id).toFinset
  ((voiceChannelIDs.filter (fun c => m.hub.participants c ≠ ∅)).sort (· ≤ ·)).map (fun c =>
    ⟨c,((m.hub.participants c).sort (· ≤ ·)).map (m.resolveVoiceParticipant s3Host)⟩)

/-- Everyone in the channel but the user. The range over the map may take any order. -/
def peers (s3Host : String) (userID : UserID) (channelID : ChannelID) : List WsVoiceParticipant :=
  (((m.hub.participants channelID).erase userID).sort (· ≤ ·)).map (m.resolveVoiceParticipant s3Host)

end Moment

/-! ## The wire -/

inductive Json where
  | num (n : ℤ)
  | str (s : String)
  | bool (b : Bool)
  deriving DecidableEq

abbrev JsonObject := List (String × Json)

/-- `omitempty` of a string. -/
def omitEmpty (key value : String) : JsonObject := if value = "" then [] else [(key,.str value)]

def encodeParticipant (p : WsVoiceParticipant) : JsonObject :=
  [("user_id",.num p.userID)] ++ omitEmpty "first_name" p.firstName ++
    omitEmpty "last_name" p.lastName ++ omitEmpty "nickname" p.nickname ++
    [("mic_enabled",.bool p.micEnabled),("deafened",.bool p.deafened)] ++
    omitEmpty "avatar_url" p.avatarURL ++ (if p.detached then [("detached",.bool true)] else [])

/-! ## `ChatSocket` -/

structure VoiceParticipant where
  userId : UserID
  firstName : Option String
  lastName : Option String
  nickname : Option String
  avatarUrl : Option String
  micEnabled : Option Bool
  deafened : Option Bool
  detached : Option Bool
  deriving DecidableEq

/-- `typeof` is `"number"`. -/
def number : Option Json → Option ℤ
  | some (.num n) => some n
  | _ => none

def string : Option Json → Option String
  | some (.str s) => some s
  | _ => none

def boolean : Option Json → Option Bool
  | some (.bool b) => some b
  | _ => none

/-- An object that is used as it came. -/
def asParticipant (o : JsonObject) : VoiceParticipant where
  userId := (number (o.lookup "user_id")).getD 0
  firstName := string (o.lookup "first_name")
  lastName := string (o.lookup "last_name")
  nickname := string (o.lookup "nickname")
  avatarUrl := string (o.lookup "avatar_url")
  micEnabled := boolean (o.lookup "mic_enabled")
  deafened := boolean (o.lookup "deafened")
  detached := boolean (o.lookup "detached")

/-- What `getServerChannelsState` makes of an object; an object without ID is left out. -/
def parseParticipant (o : JsonObject) : Option VoiceParticipant :=
  (number (o.lookup "user_id")).map (fun userId => {
    userId := userId
    firstName := string (o.lookup "first_name")
    lastName := string (o.lookup "last_name")
    nickname := string (o.lookup "nickname")
    avatarUrl := string (o.lookup "avatar_url")
    micEnabled := boolean (o.lookup "mic_enabled")
    deafened := boolean (o.lookup "deafened")
    detached := none })

structure ServerChannelsState where
  channels : List ChannelID
  voiceParticipants : List (ChannelID × List VoiceParticipant)

/-- The response to `get_server_channels`, built, encoded and parsed. -/
def getServerChannelsState (s3Host : String) (channels : List Channel) (m : Moment) : ServerChannelsState where
  channels := channels.map Channel.id
  voiceParticipants := (m.buildVoiceParticipantsSnapshot s3Host channels).map (fun entry =>
    (entry.channelID,(entry.participants.map encodeParticipant).filterMap parseParticipant))

/-- The participants of an ack to `join_voice_channel` or `sfu_resume`. -/
def ackParticipants (s3Host : String) (userID : UserID) (channelID : ChannelID) (m : Moment) :
    List VoiceParticipant :=
  ((m.peers s3Host userID channelID).map encodeParticipant).map asParticipant

/-! ## `useVoice` and `SfuCallClient` -/

/-- The last two fields are the call client's, which there is only for a known user. -/
structure Client where
  currentUserId : Option UserID
  voiceChannelId : ChannelID
  voiceParticipantsByChannel : ChannelID → Option (List VoiceParticipant)
  detachedUserIdsFromEvents : Finset UserID
  currentChannelID : ChannelID
  participants : List VoiceParticipant

namespace Client
variable (s : Client)

def voiceParticipantsInChannel : List VoiceParticipant :=
  (s.voiceParticipantsByChannel s.voiceChannelId).getD []

def detachedUserIds : Finset UserID :=
  s.detachedUserIdsFromEvents ∪
    ((s.voiceParticipantsInChannel.filter (fun p => p.detached = some true)).map
      VoiceParticipant.userId).toFinset

/-- One response for each of the user's servers replaces all lists. -/
def syncServersAndChannels (states : List ServerChannelsState) : Client :=
  let validChannelIds := states.flatMap ServerChannelsState.channels
  { s with
    voiceParticipantsByChannel := (states.flatMap ServerChannelsState.voiceParticipants).foldl
      (fun next entry =>
        if entry.1 ∈ validChannelIds then Function.update next entry.1 (some entry.2) else next)
      (fun _ => none) }

/-- `applySession`, as far as the participants go. -/
def applySession (channelID : ChannelID) (participants : List VoiceParticipant) : Client :=
  { s with currentChannelID := channelID, participants := participants }

/-- `join`, from the ack on: the participants it returns, unless opening the peer connection
fails. A call that is in the channel already when the ack comes returns what it has. -/
def join (channelID : ChannelID) (peers : List VoiceParticipant) (opens : Bool) :
    Client × Option (List VoiceParticipant) :=
  if s.currentChannelID = channelID then (s,some s.participants)
  else (s.applySession channelID peers,if opens then some peers else none)

/-- The user's own entry, without the profile. -/
def selfParticipant (userId : UserID) : VoiceParticipant :=
  ⟨userId,none,none,none,none,some true,some false,none⟩

/-- The channel that was left loses its entry with the last participant. -/
def dropSelf (lists : ChannelID → Option (List VoiceParticipant)) (channelID : ChannelID)
    (userId : UserID) : ChannelID → Option (List VoiceParticipant) :=
  match lists channelID with
  | none => lists
  | some list =>
    let filtered := list.filter (fun p => p.userId ≠ userId)
    Function.update lists channelID (if filtered = [] then none else some filtered)

/-- What `handleJoinVoice` sets once the call has joined. -/
def joined (userId : UserID) (channelID : ChannelID) (participants : List VoiceParticipant) : Client :=
  let previousChannelId := s.voiceChannelId
  let lists :=
    if 0 < previousChannelId ∧ previousChannelId ≠ channelID then
      dropSelf s.voiceParticipantsByChannel previousChannelId userId
    else s.voiceParticipantsByChannel
  { s with
    voiceChannelId := channelID
    detachedUserIdsFromEvents := ∅
    voiceParticipantsByChannel := Function.update lists channelID
      (some (selfParticipant userId :: participants.filter (fun p => p.userId ≠ userId))) }

/-- `handleJoinVoice`, from the ack on. -/
def handleJoinVoice (userId : UserID) (channelID : ChannelID) (peers : List VoiceParticipant)
    (opens : Bool) : Client :=
  match s.join channelID peers opens with
  | (s,none) => s
  | (s,some participants) => s.joined userId channelID participants

end Client

/-- A response, with what the hub builds it from. -/
inductive Response where
  /-- One for each server, in one synchronisation. -/
  | getServerChannels (responses : List (List Channel × Moment))
  /-- To `handleJoinVoice`. -/
  | joinVoiceChannel (channelID : ChannelID) (m : Moment) (opens : Bool)
  /-- To `rejoin`, which opens a new session. -/
  | rejoin (channelID : ChannelID) (m : Moment)
  | sfuResume (m : Moment)

/-- The channel of the user's session. -/
def Moment.channelOf (m : Moment) (userID : UserID) : ChannelID :=
  (m.hub.userVoiceChannel.lookup userID).getD 0

/-- Without a known user no call client has asked for an ack. -/
def process (s3Host : String) (s : Client) : Response → Option Client
  | .getServerChannels responses => some (s.syncServersAndChannels
      (responses.map (fun r => getServerChannelsState s3Host r.1 r.2)))
  | .joinVoiceChannel channelID m opens => s.currentUserId.map (fun userId =>
      s.handleJoinVoice userId channelID (ackParticipants s3Host userId channelID m) opens)
  | .rejoin channelID m => s.currentUserId.map (fun userId =>
      s.applySession channelID (ackParticipants s3Host userId channelID m))
  | .sfuResume m => s.currentUserId.map (fun userId =>
      { s with participants := ackParticipants s3Host userId (m.channelOf userId) m })

end MiniDiscord.VoiceSnapshots
