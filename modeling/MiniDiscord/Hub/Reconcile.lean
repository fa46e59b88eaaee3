import MiniDiscord.Hub.VoiceState

/-! # The reconciliation sweep

`reconcileTick` compares the hub's voice maps with the router's session table and
tears down what has no counterpart. The tests it makes are shared with the
interleaved hub; the tick itself is given here as one computation, run while
nothing else writes either side.
-/
namespace MiniDiscord.VoiceHub

/-- `pc.ConnectionState()`. -/
inductive ConnectionState where
  | new
  | connecting
  | connected
  | disconnected
  | failed
  | closed
  deriving DecidableEq

def ConnectionState.isDead : ConnectionState → Bool
  | .failed => true
  | .closed => true
  | _ => false

/-- A `Peer` as the hub can see it through the router. -/
structure Session where
  userID : UserID
  channelID : ChannelID
  connectionState : ConnectionState
  joinedAt : Time
  detached : Bool
  deriving DecidableEq

/-- `Router.peers`. -/
abbrev RouterTable := GoMap SessionID Session

structure LiveSession where
  sessionID : SessionID
  userID : UserID
  channelID : ChannelID
  connectionState : ConnectionState
  age : Time
  deriving DecidableEq

/-- `Router.LiveSessions`, ranging over the table in the given order. -/
def liveSessions (r : RouterTable) (now : Time) (order : List SessionID) : List LiveSession :=
  order.filterMap (fun sid => (r.lookup sid).map
    (fun p => ⟨sid,p.userID,p.channelID,p.connectionState,now - p.joinedAt⟩))

structure HubVoiceEntry where
  userID : UserID
  channelID : ChannelID
  sessionID : SessionID
  hasSession : Bool
  inParticipant : Bool
  joinedAt : Option Time
  deriving DecidableEq

def hubVoiceEntry (h : Hub) (userID : UserID) (channelID : ChannelID) : HubVoiceEntry where
  userID := userID
  channelID := channelID
  sessionID := (h.sfuSessionByUser.lookup userID).getD ""
  hasSession := (h.sfuSessionByUser.lookup userID).isSome
  inParticipant := decide (userID ∈ h.participants channelID)
  joinedAt := h.voiceJoinedAt.lookup userID

/-- The `entries` of one snapshot, ranging over `userVoiceChannel` in the given order. -/
def voiceEntries (h : Hub) (order : List UserID) : List HubVoiceEntry :=
  order.filterMap (fun u => (h.userVoiceChannel.lookup u).map (hubVoiceEntry h u))

/-- `currentSessions`; of two users with one session the one ranged over last is kept. -/
def currentSessions (h : Hub) (order : List UserID) : GoMap SessionID UserID :=
  GoMap.collect Prod.swap
    (order.filterMap (fun u => (h.sfuSessionByUser.lookup u).map (fun sid => (u,sid))))

def liveBySession (live : List LiveSession) : GoMap SessionID LiveSession :=
  GoMap.collect (fun ls => (ls.sessionID,ls)) live

/-- `time.Since(e.joinedAt) < minAge`; a missing record reads as the zero time. -/
def HubVoiceEntry.isYoung (e : HubVoiceEntry) (minAge now : Time) : Bool :=
  match e.joinedAt with
  | none => false
  | some joinedAt => decide (now - joinedAt < minAge)

/-- The two cases in which an entry old enough is torn down. -/
def HubVoiceEntry.isStale (e : HubVoiceEntry) (live : GoMap SessionID LiveSession) : Bool :=
  match live.lookup e.sessionID with
  | none => true
  | some ls => !e.hasSession || !e.inParticipant || ls.connectionState.isDead

def HubVoiceEntry.removes (e : HubVoiceEntry) (minAge now : Time)
    (live : GoMap SessionID LiveSession) : Bool :=
  !e.isYoung minAge now && e.isStale live

/-- A live session the sweep closes: old enough, and not its user's current one. -/
def LiveSession.isOrphan (ls : LiveSession) (minAge : Time) (current : GoMap SessionID UserID) :
    Bool :=
  decide (minAge ≤ ls.age) && decide (current.lookup ls.sessionID ≠ some ls.userID)

/-- The two sides the sweep compares. -/
structure Voice where
  hub : Hub
  router : RouterTable

/-- `leaveVoiceChannelInternal` without interference: zero when the user was in no channel. -/
def Voice.leaveVoiceChannelInternal (v : Voice) (userID : UserID) : Voice × ChannelID :=
  match v.hub.userVoiceChannel.lookup userID with
  | none => (v,0)
  | some channelID =>
    (⟨v.hub.leaveLocked userID channelID,
      match v.hub.sfuSessionByUser.lookup userID with
      | none => v.router
      | some sid => v.router.erase sid⟩,channelID)

/-- The orders in which one tick ranges over the three Go maps it reads. -/
structure SweepOrder where
  sessions : List SessionID
  users : List UserID
  owners : List UserID

/-- Every key is ranged over exactly once. -/
structure SweepOrder.Enumerates (o : SweepOrder) (v : Voice) : Prop where
  sessions : o.sessions.Nodup ∧ ∀ sid, sid ∈ o.sessions ↔ sid ∈ v.router
  users : o.users.Nodup ∧ ∀ u, u ∈ o.users ↔ u ∈ v.hub.userVoiceChannel
  owners : o.owners.Nodup ∧ ∀ u, u ∈ o.owners ↔ u ∈ v.hub.sfuSessionByUser

/-- The hub to router half of the tick. -/
def Voice.removeEntries (v : Voice) (minAge now : Time) (live : GoMap SessionID LiveSession)
    (entries : List HubVoiceEntry) : Voice :=
  entries.foldl (fun v e =>
    if e.removes minAge now live then (v.leaveVoiceChannelInternal e.userID).1 else v) v

/-- The router to hub half of the tick. -/
def Voice.closeOrphans (v : Voice) (minAge : Time) (current : GoMap SessionID UserID)
    (live : List LiveSession) : Voice :=
  let close := fun (r : RouterTable) (ls : LiveSession) =>
    if ls.isOrphan minAge current then r.erase ls.sessionID else r
  { v with router := live.foldl close v.router }

def reconcileTick (minAge now : Time) (o : SweepOrder) (v : Voice) : Voice :=
  let live := liveSessions v.router now o.sessions
  (v.removeEntries minAge now (liveBySession live) (voiceEntries v.hub o.users)).closeOrphans minAge
    (currentSessions v.hub o.owners) live

theorem mem_liveSessions {r : RouterTable} {now : Time} {order : List SessionID}
    {ls : LiveSession} : ls ∈ liveSessions r now order ↔ ls.sessionID ∈ order ∧
      ∃ p, r.lookup ls.sessionID = some p ∧
        ls = ⟨ls.sessionID,p.userID,p.channelID,p.connectionState,now - p.joinedAt⟩ := by
  unfold liveSessions
  rw [List.mem_filterMap]
  constructor
  · rintro ⟨sid,hsid,h⟩
    obtain ⟨p,hp,rfl⟩ := Option.map_eq_some_iff.mp h
    exact ⟨hsid,p,hp,rfl⟩
  · rintro ⟨hsid,p,hp,h⟩
    exact ⟨ls.sessionID,hsid,Option.map_eq_some_iff.mpr ⟨p,hp,h.symm⟩⟩

theorem mem_voiceEntries {h : Hub} {order : List UserID} {e : HubVoiceEntry} :
    e ∈ voiceEntries h order ↔ ∃ u ∈ order, ∃ c, h.userVoiceChannel.lookup u = some c ∧
      e = hubVoiceEntry h u c := by
  unfold voiceEntries
  simp only [List.mem_filterMap, Option.map_eq_some_iff]
  exact exists_congr (fun u => and_congr_right (fun _ => exists_congr (fun c => and_congr_right
    (fun _ => eq_comm))))

/-- `liveBySession` is the session table, seen through `LiveSession`. -/
theorem lookup_liveBySession {r : RouterTable} {now : Time} {order : List SessionID}
    (ho : ∀ sid, sid ∈ order ↔ sid ∈ r) (sid : SessionID) :
    (liveBySession (liveSessions r now order)).lookup sid = (r.lookup sid).map
      (fun p => ⟨sid,p.userID,p.channelID,p.connectionState,now - p.joinedAt⟩) := by
  cases hp : r.lookup sid with
  | none =>
    rw [Option.map_none,← Option.not_isSome_iff_eq_none]
    intro hs
    obtain ⟨ls,hls⟩ := Option.isSome_iff_exists.mp hs
    obtain ⟨a,ha,hf⟩ := GoMap.exists_of_lookup_collect hls
    cases hf
    obtain ⟨-,p,hp',-⟩ := mem_liveSessions.mp ha
    rw [hp] at hp'
    cases hp'
  | some p =>
    have hmem : (⟨sid,p.userID,p.channelID,p.connectionState,now - p.joinedAt⟩ : LiveSession) ∈
        liveSessions r now order :=
      mem_liveSessions.mpr ⟨(ho sid).mpr (Finmap.mem_of_lookup_eq_some hp),p,hp,rfl⟩
    refine GoMap.lookup_collect hmem ?_
    intro b hb hk
    obtain ⟨-,q,hq,hbq⟩ := mem_liveSessions.mp hb
    simp only at hk
    rw [hk,hp] at hq
    cases hq
    rw [hbq]
    simp only [hk]

theorem lookup_currentSessions {h : Hub} {order : List UserID} {sid : SessionID} {u : UserID}
    (hc : (currentSessions h order).lookup sid = some u) :
    h.sfuSessionByUser.lookup u = some sid := by
  obtain ⟨⟨v,s⟩,ha,hf⟩ := GoMap.exists_of_lookup_collect hc
  obtain ⟨w,-,hw⟩ := List.mem_filterMap.mp ha
  obtain ⟨t,ht,hwt⟩ := Option.map_eq_some_iff.mp hw
  cases hf
  cases hwt
  exact ht

/-- The sole user with a session is its current owner, whatever the order. -/
theorem lookup_currentSessions_of_unique {h : Hub} {order : List UserID}
    (ho : ∀ u, u ∈ order ↔ u ∈ h.sfuSessionByUser) {sid : SessionID} {u : UserID}
    (hu : h.sfuSessionByUser.lookup u = some sid)
    (huniq : ∀ v, h.sfuSessionByUser.lookup v = some sid → v = u) :
    (currentSessions h order).lookup sid = some u := by
  have hmem : (u,sid) ∈
      order.filterMap (fun u => (h.sfuSessionByUser.lookup u).map (fun sid => (u,sid))) :=
    List.mem_filterMap.mpr ⟨u,(ho u).mpr (Finmap.mem_of_lookup_eq_some hu),by rw [hu]; rfl⟩
  refine GoMap.lookup_collect (f := Prod.swap) hmem ?_
  rintro ⟨v,t⟩ hb hk
  obtain ⟨w,-,hw⟩ := List.mem_filterMap.mp hb
  obtain ⟨t',ht',hwt⟩ := Option.map_eq_some_iff.mp hw
  cases hwt
  simp only [Prod.fst_swap] at hk
  subst hk
  rw [huniq v ht']

end MiniDiscord.VoiceHub
