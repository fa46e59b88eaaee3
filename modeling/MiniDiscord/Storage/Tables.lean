import MiniDiscord.Sfu.Room

/-! # Tables

The tables that membership is decided by, as sets of rows, and the queries over them. A
serial column never gives an ID twice.
-/
namespace MiniDiscord.Storage

abbrev ServerID := Int

structure Server where
  id : ServerID
  name : String
  ownerID : UserID
  deriving DecidableEq

structure ServerMember where
  userID : UserID
  serverID : ServerID
  deriving DecidableEq

def ChannelTypeText : String := "text"
def ChannelTypeVoice : String := "voice"
def ChannelTypeDM : String := "dm"

/-- A direct-message channel has no server. -/
structure Channel where
  id : ChannelID
  serverID : Option ServerID
  name : String
  type : String
  deriving DecidableEq

structure DMChannel where
  channelID : ChannelID
  userA : UserID
  userB : UserID
  deriving DecidableEq

structure DMVisibility where
  channelID : ChannelID
  userID : UserID
  hidden : Bool
  deriving DecidableEq

/-- `serverIDs` and `channelIDs` are the IDs given so far. -/
structure Tables where
  users : Finset UserID
  servers : Finset Server
  serverMembers : Finset ServerMember
  channels : Finset Channel
  dmChannels : Finset DMChannel
  dmVisibility : Finset DMVisibility
  serverIDs : Finset ServerID
  channelIDs : Finset ChannelID

namespace Tables

/-- Accounts and nothing else. -/
def ofUsers (users : Finset UserID) : Tables := ⟨users,∅,∅,∅,∅,∅,∅,∅⟩

/-- What the keys and references of the schema keep. -/
structure Referential (db : Tables) : Prop where
  servers : ∀ s ∈ db.servers, s.id ∈ db.serverIDs
  channels : ∀ c ∈ db.channels, c.id ∈ db.channelIDs
  channelKey : ∀ c ∈ db.channels, ∀ c' ∈ db.channels, c.id = c'.id → c = c'
  channelServers : ∀ c ∈ db.channels, ∀ s ∈ c.serverID, s ∈ db.serverIDs
  members : ∀ m ∈ db.serverMembers, m.serverID ∈ db.serverIDs
  dmChannels : ∀ d ∈ db.dmChannels, d.channelID ∈ db.channelIDs

def hasServer (db : Tables) (serverID : ServerID) : Prop := ∃ s ∈ db.servers, s.id = serverID

def owns (db : Tables) (userID : UserID) (serverID : ServerID) : Prop :=
  ∃ s ∈ db.servers, s.id = serverID ∧ s.ownerID = userID

/-- The channel is one of the server's. -/
def inServer (db : Tables) (channelID : ChannelID) (serverID : ServerID) : Prop :=
  ∃ c ∈ db.channels, c.id = channelID ∧ c.serverID = some serverID

instance (db : Tables) (s : ServerID) : Decidable (db.hasServer s) := by
  unfold hasServer
  infer_instance

instance (db : Tables) (u : UserID) (s : ServerID) : Decidable (db.owns u s) := by
  unfold owns
  infer_instance

instance (db : Tables) (c : ChannelID) (s : ServerID) : Decidable (db.inServer c s) := by
  unfold inServer
  infer_instance

/-! ## Queries -/

def isServerMember (db : Tables) (userID : UserID) (serverID : ServerID) : Bool :=
  decide (⟨userID,serverID⟩ ∈ db.serverMembers)

def canUserAccessChannel (db : Tables) (userID : UserID) (channelID : ChannelID) : Bool :=
  decide ((∃ m ∈ db.serverMembers, m.userID = userID ∧ db.inServer channelID m.serverID) ∨
    ∃ d ∈ db.dmChannels, d.channelID = channelID ∧ (userID = d.userA ∨ userID = d.userB))

def serverMembersUserIDs (db : Tables) (serverID : ServerID) : Finset UserID :=
  (db.serverMembers.filter (fun m => m.serverID = serverID)).image ServerMember.userID

/-- The two sides of a direct-message channel. -/
def dmParticipants (db : Tables) (channelID : ChannelID) : Finset UserID :=
  (db.dmChannels.filter (fun d => d.channelID = channelID)).image DMChannel.userA ∪
    (db.dmChannels.filter (fun d => d.channelID = channelID)).image DMChannel.userB

def channelMemberUserIDs (db : Tables) (channelID : ChannelID) : Finset UserID :=
  (db.serverMembers.filter (fun m => db.inServer channelID m.serverID)).image ServerMember.userID ∪
    db.dmParticipants channelID

/-- `LOWER(TRIM(type))` is the voice type, or the channel is read as a text channel. -/
def normalizedType (type : String) : String :=
  let trimmed := ((type.toList.dropWhile (· = ' ')).reverse.dropWhile (· = ' ')).reverse
  if trimmed.map Char.toLower = ChannelTypeVoice.toList then ChannelTypeVoice else ChannelTypeText

def serverChannels (db : Tables) (serverID : ServerID) : Finset Channel :=
  (db.channels.filter (fun c => c.serverID = some serverID)).image
    (fun c => { c with type := normalizedType c.type })

def serversByUserID (db : Tables) (userID : UserID) : Finset Server :=
  db.servers.filter (fun s => ⟨userID,s.id⟩ ∈ db.serverMembers)

def channelByID (db : Tables) (channelID : ChannelID) : Finset Channel :=
  db.channels.filter (fun c => c.id = channelID)

def sharesServer (db : Tables) (a b : UserID) : Prop :=
  ∃ m ∈ db.serverMembers, m.userID = a ∧ ⟨b,m.serverID⟩ ∈ db.serverMembers

instance (db : Tables) (a b : UserID) : Decidable (db.sharesServer a b) := by
  unfold sharesServer
  infer_instance

/-! ## Statements -/

def insertServer (db : Tables) (row : Server) : Tables :=
  { db with servers := insert row db.servers, serverIDs := insert row.id db.serverIDs }

def insertMember (db : Tables) (row : ServerMember) : Tables :=
  { db with serverMembers := insert row db.serverMembers }

def insertChannel (db : Tables) (row : Channel) : Tables :=
  { db with channels := insert row db.channels, channelIDs := insert row.id db.channelIDs }

def insertDMChannel (db : Tables) (row : DMChannel) : Tables :=
  { db with dmChannels := insert row db.dmChannels }

def insertVisibility (db : Tables) (row : DMVisibility) : Tables :=
  { db with dmVisibility := insert row db.dmVisibility }

/-- `hidden_at` of one side's row is set. -/
def hideVisibility (db : Tables) (userID : UserID) (channelID : ChannelID) : Tables :=
  { db with
    dmVisibility := db.dmVisibility.image
      (fun v => if v.channelID = channelID ∧ v.userID = userID then { v with hidden := true } else v) }

/-- Both sides have a row, and it is not hidden. -/
def revealVisibility (db : Tables) (channelID : ChannelID) : Tables :=
  let participants := db.dmParticipants channelID
  { db with
    dmVisibility :=
      db.dmVisibility.filter (fun v => ¬ (v.channelID = channelID ∧ v.userID ∈ participants)) ∪
        participants.image (fun userID => ⟨channelID,userID,false⟩) }

/-- What refers to a deleted channel goes with it. -/
def deleteChannels (db : Tables) (p : Channel → Prop) [DecidablePred p] : Tables :=
  let gone := (db.channels.filter p).image Channel.id
  { db with
    channels := db.channels.filter (fun c => ¬ p c)
    dmChannels := db.dmChannels.filter (fun d => d.channelID ∉ gone)
    dmVisibility := db.dmVisibility.filter (fun v => v.channelID ∉ gone) }

/-- The server's members and channels go with it. -/
def deleteServer (db : Tables) (serverID : ServerID) : Tables :=
  { db with
    servers := db.servers.filter (fun s => s.id ≠ serverID)
    serverMembers := db.serverMembers.filter (fun m => m.serverID ≠ serverID) }.deleteChannels
      (fun c => c.serverID = some serverID)

/-! ## The schema is kept -/

theorem referential_ofUsers (users : Finset UserID) : (ofUsers users).Referential where
  servers _ h := absurd h (Finset.notMem_empty _)
  channels _ h := absurd h (Finset.notMem_empty _)
  channelKey _ h := absurd h (Finset.notMem_empty _)
  channelServers _ h := absurd h (Finset.notMem_empty _)
  members _ h := absurd h (Finset.notMem_empty _)
  dmChannels _ h := absurd h (Finset.notMem_empty _)

section Schema
variable {db : Tables} (h : db.Referential)
include h

theorem Referential.createServer (row : Server) : ((db.insertServer row).insertMember
    ⟨row.ownerID,row.id⟩).Referential := by
  constructor
  case channels => exact h.channels
  case channelKey => exact h.channelKey
  case dmChannels => exact h.dmChannels
  case servers =>
    intro s hs
    obtain rfl | hs := Finset.mem_insert.mp hs
    · exact Finset.mem_insert_self _ _
    · exact Finset.mem_insert_of_mem (h.servers s hs)
  case channelServers => exact fun c hc s hs => Finset.mem_insert_of_mem (h.channelServers c hc s hs)
  case members =>
    intro m hm
    obtain rfl | hm := Finset.mem_insert.mp hm
    · exact Finset.mem_insert_self _ _
    · exact Finset.mem_insert_of_mem (h.members m hm)

theorem Referential.insertMember {row : ServerMember} (hs : db.hasServer row.serverID) :
    (db.insertMember row).Referential where
  servers := h.servers
  channels := h.channels
  channelKey := h.channelKey
  channelServers := h.channelServers
  dmChannels := h.dmChannels
  members := by
    intro m hm
    obtain rfl | hm := Finset.mem_insert.mp hm
    · obtain ⟨s,hs,he⟩ := hs
      rw [← he]
      exact h.servers s hs
    · exact h.members m hm

theorem Referential.insertChannel {row : Channel} (hid : row.id ∉ db.channelIDs)
    (hs : ∀ s ∈ row.serverID, s ∈ db.serverIDs) : (db.insertChannel row).Referential where
  servers := h.servers
  members := h.members
  dmChannels d hd := Finset.mem_insert_of_mem (h.dmChannels d hd)
  channels := by
    intro c hc
    obtain rfl | hc := Finset.mem_insert.mp hc
    · exact Finset.mem_insert_self _ _
    · exact Finset.mem_insert_of_mem (h.channels c hc)
  channelKey := by
    intro c hc c' hc' he
    obtain rfl | hold := Finset.mem_insert.mp hc
    · obtain rfl | hold' := Finset.mem_insert.mp hc'
      · rfl
      · exact absurd (he ▸ h.channels c' hold') hid
    · obtain rfl | hold' := Finset.mem_insert.mp hc'
      · exact absurd (he ▸ h.channels c hold) hid
      · exact h.channelKey c hold c' hold' he
  channelServers := by
    intro c hc
    obtain rfl | hc := Finset.mem_insert.mp hc
    · exact hs
    · exact h.channelServers c hc

theorem Referential.insertDMChannel {row : DMChannel} (hid : row.channelID ∈ db.channelIDs) :
    (db.insertDMChannel row).Referential where
  servers := h.servers
  channels := h.channels
  channelKey := h.channelKey
  channelServers := h.channelServers
  members := h.members
  dmChannels := by
    intro d hd
    obtain rfl | hd := Finset.mem_insert.mp hd
    · exact hid
    · exact h.dmChannels d hd

theorem Referential.deleteChannels (p : Channel → Prop) [DecidablePred p] :
    (db.deleteChannels p).Referential where
  servers := h.servers
  members := h.members
  channels c hc := h.channels c (Finset.mem_filter.mp hc).1
  channelKey c hc c' hc' := h.channelKey c (Finset.mem_filter.mp hc).1 c' (Finset.mem_filter.mp hc').1
  channelServers c hc := h.channelServers c (Finset.mem_filter.mp hc).1
  dmChannels d hd := h.dmChannels d (Finset.mem_filter.mp hd).1

theorem Referential.deleteServer (serverID : ServerID) : (db.deleteServer serverID).Referential := by
  refine Referential.deleteChannels ?_ _
  constructor
  case channels => exact h.channels
  case channelKey => exact h.channelKey
  case channelServers => exact h.channelServers
  case dmChannels => exact h.dmChannels
  case servers => exact fun s hs => h.servers s (Finset.mem_filter.mp hs).1
  case members => exact fun m hm => h.members m (Finset.mem_filter.mp hm).1

end Schema

/-! ## What a statement changes -/

section Changes
variable {db db' : Tables} {u : UserID} {c : ChannelID} {serverID : ServerID}

theorem isServerMember_iff : db.isServerMember u serverID = true ↔ ⟨u,serverID⟩ ∈ db.serverMembers :=
  decide_eq_true_iff

theorem isServerMember_insertMember {row : ServerMember} :
    (db.insertMember row).isServerMember u serverID = true ↔
      db.isServerMember u serverID = true ∨ row = ⟨u,serverID⟩ := by
  rw [isServerMember_iff,isServerMember_iff,insertMember,Finset.mem_insert,or_comm,eq_comm]

theorem isServerMember_deleteServer {serverID' : ServerID} :
    (db.deleteServer serverID).isServerMember u serverID' = true ↔
      db.isServerMember u serverID' = true ∧ serverID' ≠ serverID := by
  rw [isServerMember_iff,isServerMember_iff]
  exact Finset.mem_filter

theorem canUserAccessChannel_iff : db.canUserAccessChannel u c = true ↔
    (∃ serverID, ⟨u,serverID⟩ ∈ db.serverMembers ∧ db.inServer c serverID) ∨
      ∃ d ∈ db.dmChannels, d.channelID = c ∧ (u = d.userA ∨ u = d.userB) := by
  rw [canUserAccessChannel,decide_eq_true_iff]
  refine or_congr_left ⟨?_,?_⟩
  · rintro ⟨⟨u',serverID⟩,hm,rfl,hc⟩
    exact ⟨serverID,hm,hc⟩
  · rintro ⟨serverID,hm,hc⟩
    exact ⟨⟨u,serverID⟩,hm,rfl,hc⟩

theorem mem_serverMembersUserIDs :
    u ∈ db.serverMembersUserIDs serverID ↔ ⟨u,serverID⟩ ∈ db.serverMembers := by
  simp only [serverMembersUserIDs,Finset.mem_image,Finset.mem_filter]
  constructor
  · rintro ⟨⟨u',serverID'⟩,⟨hm,rfl⟩,rfl⟩
    exact hm
  · intro hm
    exact ⟨⟨u,serverID⟩,⟨hm,rfl⟩,rfl⟩

theorem exists_mem_serverChannels {row : Channel} (h : row ∈ db.channels)
    (hs : row.serverID = some serverID) : ∃ channel ∈ db.serverChannels serverID, channel.id = row.id := by
  have hrow : row ∈ db.channels.filter (fun c => c.serverID = some serverID) :=
    Finset.mem_filter.mpr ⟨h,hs⟩
  refine ⟨{ row with type := normalizedType row.type },?_,rfl⟩
  exact Finset.mem_image_of_mem (fun c : Channel => { c with type := normalizedType c.type }) hrow

/-- The list of a channel and the access to it agree. -/
theorem mem_channelMemberUserIDs :
    u ∈ db.channelMemberUserIDs c ↔ db.canUserAccessChannel u c = true := by
  rw [canUserAccessChannel,decide_eq_true_iff]
  simp only [channelMemberUserIDs,dmParticipants,Finset.mem_union,Finset.mem_image,Finset.mem_filter]
  constructor
  · rintro (⟨m,⟨hm,hc⟩,hu⟩ | ⟨d,⟨hd,hc⟩,hu⟩ | ⟨d,⟨hd,hc⟩,hu⟩)
    · exact Or.inl ⟨m,hm,hu,hc⟩
    · exact Or.inr ⟨d,hd,hc,Or.inl hu.symm⟩
    · exact Or.inr ⟨d,hd,hc,Or.inr hu.symm⟩
  · rintro (⟨m,hm,hu,hc⟩ | ⟨d,hd,hc,hu | hu⟩)
    · exact Or.inl ⟨m,⟨hm,hc⟩,hu⟩
    · exact Or.inr (Or.inl ⟨d,⟨hd,hc⟩,hu.symm⟩)
    · exact Or.inr (Or.inr ⟨d,⟨hd,hc⟩,hu.symm⟩)

theorem channelMemberUserIDs_congr
    (h : ∀ u, db'.canUserAccessChannel u c = true ↔ db.canUserAccessChannel u c = true) :
    db'.channelMemberUserIDs c = db.channelMemberUserIDs c := by
  apply Finset.ext
  intro u
  rw [mem_channelMemberUserIDs,mem_channelMemberUserIDs]
  exact h u

theorem inServer_insertChannel {row : Channel} : (db.insertChannel row).inServer c serverID ↔
    db.inServer c serverID ∨ row.id = c ∧ row.serverID = some serverID := by
  simp only [inServer,insertChannel,Finset.exists_mem_insert]
  exact or_comm

theorem inServer_deleteChannels {p : Channel → Prop} [DecidablePred p]
    (h : ∀ row ∈ db.channels, row.id = c → ¬ p row) :
    (db.deleteChannels p).inServer c serverID ↔ db.inServer c serverID := by
  simp only [inServer,deleteChannels,Finset.mem_filter]
  constructor
  · rintro ⟨row,⟨hrow,_⟩,hc⟩
    exact ⟨row,hrow,hc⟩
  · rintro ⟨row,hrow,hc,hs⟩
    exact ⟨row,⟨hrow,h row hrow hc⟩,hc,hs⟩

theorem inServer_of_deleteChannels {p : Channel → Prop} [DecidablePred p]
    (h : (db.deleteChannels p).inServer c serverID) : db.inServer c serverID := by
  obtain ⟨row,hrow,hc⟩ := h
  exact ⟨row,(Finset.mem_filter.mp hrow).1,hc⟩

theorem access_insertMember {row : ServerMember} :
    (db.insertMember row).canUserAccessChannel u c = true ↔
      db.canUserAccessChannel u c = true ∨ u = row.userID ∧ db.inServer c row.serverID := by
  obtain ⟨v,serverID⟩ := row
  rw [canUserAccessChannel_iff,canUserAccessChannel_iff]
  constructor
  · rintro (⟨serverID',hm,hc⟩ | h)
    · obtain hm | hm := Finset.mem_insert.mp hm
      · cases hm
        exact Or.inr ⟨rfl,hc⟩
      · exact Or.inl (Or.inl ⟨serverID',hm,hc⟩)
    · exact Or.inl (Or.inr h)
  · rintro ((⟨serverID',hm,hc⟩ | h) | ⟨rfl,hc⟩)
    · exact Or.inl ⟨serverID',Finset.mem_insert_of_mem hm,hc⟩
    · exact Or.inr h
    · exact Or.inl ⟨serverID,Finset.mem_insert_self _ _,hc⟩

theorem access_insertChannel {row : Channel} :
    (db.insertChannel row).canUserAccessChannel u c = true ↔ db.canUserAccessChannel u c = true ∨
      row.id = c ∧ ∃ serverID, row.serverID = some serverID ∧ ⟨u,serverID⟩ ∈ db.serverMembers := by
  rw [canUserAccessChannel_iff,canUserAccessChannel_iff]
  constructor
  · rintro (⟨serverID,hm,hc⟩ | h)
    · obtain hc | ⟨hid,hs⟩ := inServer_insertChannel.mp hc
      · exact Or.inl (Or.inl ⟨serverID,hm,hc⟩)
      · exact Or.inr ⟨hid,serverID,hs,hm⟩
    · exact Or.inl (Or.inr h)
  · rintro ((⟨serverID,hm,hc⟩ | h) | ⟨hid,serverID,hs,hm⟩)
    · exact Or.inl ⟨serverID,hm,inServer_insertChannel.mpr (Or.inl hc)⟩
    · exact Or.inr h
    · exact Or.inl ⟨serverID,hm,inServer_insertChannel.mpr (Or.inr ⟨hid,hs⟩)⟩

theorem access_insertDMChannel {row : DMChannel} :
    (db.insertDMChannel row).canUserAccessChannel u c = true ↔ db.canUserAccessChannel u c = true ∨
      row.channelID = c ∧ (u = row.userA ∨ u = row.userB) := by
  have h : (∃ d ∈ (db.insertDMChannel row).dmChannels, d.channelID = c ∧ (u = d.userA ∨ u = d.userB)) ↔
      (∃ d ∈ db.dmChannels, d.channelID = c ∧ (u = d.userA ∨ u = d.userB)) ∨
        row.channelID = c ∧ (u = row.userA ∨ u = row.userB) := by
    simp only [insertDMChannel,Finset.exists_mem_insert]
    exact or_comm
  rw [canUserAccessChannel_iff,canUserAccessChannel_iff,h,or_assoc]
  exact Iff.rfl

/-- A channel that keeps its row keeps its members. -/
theorem access_deleteChannels {p : Channel → Prop} [DecidablePred p]
    (h : ∀ row ∈ db.channels, row.id = c → ¬ p row) :
    (db.deleteChannels p).canUserAccessChannel u c = true ↔ db.canUserAccessChannel u c = true := by
  have hd : (∃ d ∈ (db.deleteChannels p).dmChannels, d.channelID = c ∧ (u = d.userA ∨ u = d.userB)) ↔
      ∃ d ∈ db.dmChannels, d.channelID = c ∧ (u = d.userA ∨ u = d.userB) := by
    constructor
    · rintro ⟨d,hd,hc⟩
      exact ⟨d,(Finset.mem_filter.mp hd).1,hc⟩
    · rintro ⟨d,hd,hc,hu⟩
      refine ⟨d,Finset.mem_filter.mpr ⟨hd,?_⟩,hc,hu⟩
      intro hg
      obtain ⟨row,hrow,hid⟩ := Finset.mem_image.mp hg
      obtain ⟨hrow,hp⟩ := Finset.mem_filter.mp hrow
      exact h row hrow (hid.trans hc) hp
  rw [canUserAccessChannel_iff,canUserAccessChannel_iff,hd]
  refine or_congr_left ⟨?_,?_⟩
  · rintro ⟨serverID,hm,hc⟩
    exact ⟨serverID,hm,(inServer_deleteChannels h).mp hc⟩
  · rintro ⟨serverID,hm,hc⟩
    exact ⟨serverID,hm,(inServer_deleteChannels h).mpr hc⟩

theorem access_of_deleteChannels {p : Channel → Prop} [DecidablePred p]
    (h : (db.deleteChannels p).canUserAccessChannel u c = true) :
    db.canUserAccessChannel u c = true := by
  rw [canUserAccessChannel_iff] at h ⊢
  rcases h with ⟨serverID,hm,hc⟩ | ⟨d,hd,hc⟩
  · exact Or.inl ⟨serverID,hm,inServer_of_deleteChannels hc⟩
  · exact Or.inr ⟨d,(Finset.mem_filter.mp hd).1,hc⟩

theorem access_of_deleteServer (h : (db.deleteServer serverID).canUserAccessChannel u c = true) :
    db.canUserAccessChannel u c = true := by
  have h' := access_of_deleteChannels h
  rw [canUserAccessChannel_iff] at h' ⊢
  rcases h' with ⟨serverID',hm,hc⟩ | h'
  · exact Or.inl ⟨serverID',(Finset.mem_filter.mp hm).1,hc⟩
  · exact Or.inr h'

theorem access_deleteServer (h : ¬ db.inServer c serverID) :
    (db.deleteServer serverID).canUserAccessChannel u c = true ↔
      db.canUserAccessChannel u c = true := by
  refine ⟨access_of_deleteServer,?_⟩
  intro ha
  refine (access_deleteChannels ?_).mpr ?_
  · intro row hrow hid hs
    exact h ⟨row,hrow,hid,hs⟩
  · rw [canUserAccessChannel_iff] at ha ⊢
    rcases ha with ⟨serverID',hm,hc⟩ | ha
    · refine Or.inl ⟨serverID',Finset.mem_filter.mpr ⟨hm,?_⟩,hc⟩
      intro he
      exact h (by rwa [← show serverID' = serverID from he])
    · exact Or.inr ha

/-- A channel that nobody has seen goes without a trace in the rows of the others. -/
theorem deleteChannels_insertChannel (h : db.Referential) {row : Channel} (hid : row.id ∉ db.channelIDs) :
    ((db.insertChannel row).deleteChannels (fun c => c.id = row.id)).channels = db.channels ∧
      ((db.insertChannel row).deleteChannels (fun c => c.id = row.id)).dmChannels = db.dmChannels := by
  constructor
  · apply Finset.ext
    intro c
    rw [deleteChannels,Finset.mem_filter,insertChannel,Finset.mem_insert]
    constructor
    · rintro ⟨rfl | hc,hn⟩
      · exact absurd rfl hn
      · exact hc
    · intro hc
      refine ⟨Or.inr hc,?_⟩
      intro he
      exact hid (he ▸ h.channels c hc)
  · apply Finset.filter_true_of_mem
    intro d hd hg
    obtain ⟨c,hc,he⟩ := Finset.mem_image.mp hg
    have hid' := (Finset.mem_filter.mp hc).2
    exact hid (by rw [← hid',he]; exact h.dmChannels d hd)

end Changes

end Tables
end MiniDiscord.Storage
