import MiniDiscord.Sfu.Room

/-! # The hub's voice maps

The fields of `Hub` that `h.mu` guards and that voice membership is made of,
with one function for the body of each locked section that writes them. What a
section reads for the events it sends to clients is left out: no map depends on it.
-/
namespace MiniDiscord

/-- One WebSocket connection; a second connection of the same user is another client. -/
abbrev ClientID := ℕ
/-- The `*time.Timer` of one `time.AfterFunc` call. -/
abbrev TimerID := ℕ

namespace VoiceHub

structure VoiceStatus where
  micEnabled : Bool
  deafened : Bool
  deriving DecidableEq

structure Hub where
  clientsByUser : GoMap UserID ClientID
  voiceParticipants : GoMap ChannelID (Finset UserID)
  userVoiceChannel : GoMap UserID ChannelID
  voiceStatusByUser : GoMap UserID VoiceStatus
  sfuSessionByUser : GoMap UserID SessionID
  sfuGraceTimers : GoMap UserID TimerID
  voiceJoinedAt : GoMap UserID Time

def newHub : Hub := ⟨∅,∅,∅,∅,∅,∅,∅⟩

/-- `h.voiceParticipants[channelID]`, a nil set when the channel has no entry. -/
def Hub.participants (h : Hub) (channelID : ChannelID) : Finset UserID :=
  (h.voiceParticipants.lookup channelID).getD ∅

/-- `delete(participants, userID)`, and the channel's entry with its last participant. -/
def dropParticipant (vp : GoMap ChannelID (Finset UserID)) (channelID : ChannelID)
    (userID : UserID) : GoMap ChannelID (Finset UserID) :=
  match vp.lookup channelID with
  | none => vp
  | some ps => if ps.erase userID = ∅ then vp.erase channelID else vp.insert channelID (ps.erase userID)

/-- `registerClient`: the old client is returned when the new one evicts it. -/
def Hub.registerClient (h : Hub) (userID : UserID) (cl : ClientID) : Hub × Option ClientID :=
  let old := h.clientsByUser.lookup userID
  ({ h with clientsByUser := h.clientsByUser.insert userID cl },
    if old = some cl then none else old)

/-- `unregisterClient`: only the current client of the user is removed. -/
def Hub.unregisterClient (h : Hub) (userID : UserID) (cl : ClientID) : Hub × Bool :=
  if h.clientsByUser.lookup userID = some cl then
    ({ h with clientsByUser := h.clientsByUser.erase userID },true)
  else (h,false)

/-- The last locked section of `joinVoiceChannel`. -/
def Hub.joinLocked (h : Hub) (userID : UserID) (channelID : ChannelID) (sessionID : SessionID)
    (now : Time) : Hub :=
  { h with
    voiceParticipants :=
      h.voiceParticipants.insert channelID (insert userID (h.participants channelID))
    userVoiceChannel := h.userVoiceChannel.insert userID channelID
    voiceStatusByUser := h.voiceStatusByUser.insert userID ⟨true,false⟩
    sfuSessionByUser := h.sfuSessionByUser.insert userID sessionID
    voiceJoinedAt := h.voiceJoinedAt.insert userID now }

/-- The locked section of `leaveVoiceChannelInternal`, the user being in a channel. -/
def Hub.leaveLocked (h : Hub) (userID : UserID) (channelID : ChannelID) : Hub :=
  { h with
    userVoiceChannel := h.userVoiceChannel.erase userID
    voiceStatusByUser := h.voiceStatusByUser.erase userID
    voiceJoinedAt := h.voiceJoinedAt.erase userID
    sfuSessionByUser := h.sfuSessionByUser.erase userID
    sfuGraceTimers := h.sfuGraceTimers.erase userID
    voiceParticipants := dropParticipant h.voiceParticipants channelID userID }

/-- The locked section of `changeVoiceStatus`, with its two error returns. -/
def Hub.changeVoiceStatus (h : Hub) (userID : UserID) (status : VoiceStatus) : Hub :=
  match h.userVoiceChannel.lookup userID with
  | none => h
  | some channelID =>
    match h.voiceParticipants.lookup channelID with
    | none => h
    | some _ => { h with voiceStatusByUser := h.voiceStatusByUser.insert userID status }

/-- `h.sfuGraceTimers[userID] = timer`. -/
def Hub.storeTimer (h : Hub) (userID : UserID) (timer : TimerID) : Hub :=
  { h with sfuGraceTimers := h.sfuGraceTimers.insert userID timer }

/-- `delete(h.sfuGraceTimers, userID)`. -/
def Hub.dropTimer (h : Hub) (userID : UserID) : Hub :=
  { h with sfuGraceTimers := h.sfuGraceTimers.erase userID }

/-- `ownsSfuSession`; an empty session ID belongs to nobody. -/
def Hub.ownsSfuSession (h : Hub) (userID : UserID) (sessionID : SessionID) : Bool :=
  decide (sessionID ≠ "") && decide (h.sfuSessionByUser.lookup userID = some sessionID)

/-- What a voice snapshot says about a user, apart from the profile in storage. -/
structure WsVoiceParticipant where
  userID : UserID
  micEnabled : Bool
  deafened : Bool
  detached : Bool

def Hub.resolveVoiceParticipant (h : Hub) (userID : UserID) : WsVoiceParticipant :=
  let status := (h.voiceStatusByUser.lookup userID).getD ⟨true,false⟩
  ⟨userID,status.micEnabled,status.deafened,(h.sfuGraceTimers.lookup userID).isSome⟩

theorem mem_dropParticipant (vp : GoMap ChannelID (Finset UserID)) (c c' : ChannelID)
    (u u' : UserID) : u' ∈ ((dropParticipant vp c u).lookup c').getD ∅ ↔
      u' ∈ (vp.lookup c').getD ∅ ∧ ¬ (c' = c ∧ u' = u) := by
  unfold dropParticipant
  cases h : vp.lookup c with
  | none =>
    have hc : u' ∈ (vp.lookup c').getD ∅ → c' ≠ c := by
      rintro hm rfl
      simp [h] at hm
    dsimp only
    exact ⟨fun hm => ⟨hm,fun hcu => hc hm hcu.1⟩,And.left⟩
  | some ps =>
    dsimp only
    split
    · rename_i he
      rw [GoMap.lookup_erase_eq]
      by_cases hc : c' = c
      · subst hc
        have hu : u' ∈ ps → u' = u := by
          intro hm
          by_contra hne
          exact Finset.notMem_empty u' (he ▸ Finset.mem_erase.mpr ⟨hne,hm⟩)
        simp only [if_true, h, Option.getD_none, Option.getD_some, Finset.notMem_empty, true_and,
          false_iff, not_and, not_not]
        exact hu
      · simp [hc]
    · rw [GoMap.lookup_insert_eq]
      by_cases hc : c' = c
      · subst hc
        simp only [if_true, h, Option.getD_some, Finset.mem_erase, true_and]
        exact and_comm
      · simp [hc]

theorem dropParticipant_ne_empty {vp : GoMap ChannelID (Finset UserID)} (c c' : ChannelID)
    (u : UserID) (h : vp.lookup c' ≠ some ∅) : (dropParticipant vp c u).lookup c' ≠ some ∅ := by
  unfold dropParticipant
  cases hc : vp.lookup c with
  | none => exact h
  | some ps =>
    dsimp only
    split
    · rw [GoMap.lookup_erase_eq]
      split
      · simp
      · exact h
    · rename_i hne
      rw [GoMap.lookup_insert_eq]
      split
      · simpa using hne
      · exact h

@[simp] theorem Hub.mem_participants_joinLocked (h : Hub) (u u' : UserID) (c c' : ChannelID)
    (sid : SessionID) (now : Time) : u' ∈ (h.joinLocked u c sid now).participants c' ↔
      u' ∈ h.participants c' ∨ (c' = c ∧ u' = u) := by
  unfold Hub.participants Hub.joinLocked
  rw [GoMap.lookup_insert_eq]
  by_cases hc : c' = c
  · subst hc
    simp [Hub.participants, or_comm]
  · simp [hc]

@[simp] theorem Hub.mem_participants_leaveLocked (h : Hub) (u u' : UserID) (c c' : ChannelID) :
    u' ∈ (h.leaveLocked u c).participants c' ↔ u' ∈ h.participants c' ∧ ¬ (c' = c ∧ u' = u) :=
  mem_dropParticipant _ _ _ _ _

theorem Hub.leaveLocked_other {h : Hub} {u v : UserID} (c : ChannelID) (hv : v ≠ u) :
    (h.leaveLocked u c).userVoiceChannel.lookup v = h.userVoiceChannel.lookup v ∧
      (h.leaveLocked u c).sfuSessionByUser.lookup v = h.sfuSessionByUser.lookup v := by
  simp [Hub.leaveLocked, hv]

theorem Hub.joinLocked_other {h : Hub} {u v : UserID} (c : ChannelID) (sid : SessionID) (now : Time)
    (hv : v ≠ u) :
    (h.joinLocked u c sid now).userVoiceChannel.lookup v = h.userVoiceChannel.lookup v ∧
      (h.joinLocked u c sid now).sfuSessionByUser.lookup v = h.sfuSessionByUser.lookup v := by
  simp [Hub.joinLocked, hv]

/-- `changeVoiceStatus` writes the status map only, and there only a key that is in voice. -/
theorem Hub.changeVoiceStatus_eq (h : Hub) (u : UserID) (st : VoiceStatus) :
    h.changeVoiceStatus u st = h ∨
      (∃ c, h.userVoiceChannel.lookup u = some c) ∧ h.changeVoiceStatus u st =
        { h with voiceStatusByUser := h.voiceStatusByUser.insert u st } := by
  unfold Hub.changeVoiceStatus
  split
  · exact Or.inl rfl
  · split
    · exact Or.inl rfl
    · exact Or.inr ⟨⟨_,‹_›⟩,rfl⟩

end VoiceHub
end MiniDiscord
