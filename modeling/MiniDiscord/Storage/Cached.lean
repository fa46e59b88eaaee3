import MiniDiscord.Caching.ReadThrough
import MiniDiscord.Storage.Tables
import MiniDiscord.Transition.LabelledRuns

/-! # Operations on the tables and the cache beside them

The operations one after the other, with the reads between them. An entry of the cache may
be gone at any moment. An operation that fails changes no table, and drops no entry that
could not have expired.
-/
namespace MiniDiscord.Storage
open Transition ReadThrough

/-- The keys of the cache. No two have the same text. -/
inductive Key where
  | serversUser (userID : UserID)
  | channelsServer (serverID : ServerID)
  | channel (channelID : ChannelID)
  | member (userID : UserID) (serverID : ServerID)
  | access (channelID : ChannelID) (userID : UserID)
  | membersServer (serverID : ServerID)
  | members (channelID : ChannelID)
  deriving DecidableEq

/-- The key as `fmt.Sprintf` writes it. -/
def Key.text : Key → String
  | .serversUser userID => "servers:user:" ++ toString userID
  | .channelsServer serverID => "channels:server:" ++ toString serverID
  | .channel channelID => "channel:" ++ toString channelID
  | .member userID serverID => "member:" ++ toString userID ++ ":" ++ toString serverID
  | .access channelID userID => "access:" ++ toString channelID ++ ":" ++ toString userID
  | .membersServer serverID => "members:server:" ++ toString serverID
  | .members channelID => "members:" ++ toString channelID

/-- What is kept under a key. -/
@[reducible] def Key.Value : Key → Type
  | .serversUser _ => Finset Server
  | .channelsServer _ => Finset Channel
  | .channel _ => Finset Channel
  | .member _ _ => Bool
  | .access _ _ => Bool
  | .membersServer _ => Finset UserID
  | .members _ => Finset UserID

/-- What the database answers when the cache does not. -/
def query (db : Tables) : (k : Key) → k.Value
  | .serversUser userID => db.serversByUserID userID
  | .channelsServer serverID => db.serverChannels serverID
  | .channel channelID => db.channelByID channelID
  | .member userID serverID => db.isServerMember userID serverID
  | .access channelID userID => db.canUserAccessChannel userID channelID
  | .membersServer serverID => db.serverMembersUserIDs serverID
  | .members channelID => db.channelMemberUserIDs channelID

structure State where
  db : Tables
  cache : Cache Key.Value

/-- The cache of a process that has just started is empty. -/
def start (db : Tables) : State := ⟨db,ReadThrough.empty⟩

/-- The longest name a server or a channel may have. -/
def nameCap : ℕ := 16

def normalizeDMPair (userID peerID : UserID) : UserID × UserID :=
  if userID < peerID then (userID,peerID) else (peerID,userID)

/-- The pair has the same two sides. -/
theorem mem_normalizeDMPair {userID peerID a b : UserID} (h : normalizeDMPair userID peerID = (a,b))
    (u : UserID) : u = a ∨ u = b ↔ u = userID ∨ u = peerID := by
  unfold normalizeDMPair at h
  split at h
  · cases h
    exact Iff.rfl
  · cases h
    exact or_comm

namespace State

def delete (s : State) (k : Key) : State := { s with cache := s.cache.delete k }

def deleteWhere (s : State) (p : Key → Prop) [DecidablePred p] : State :=
  { s with cache := s.cache.deleteWhere p }

def deleteByPrefix (s : State) (start : String) : State :=
  s.deleteWhere (fun k => start.toList.isPrefixOf k.text.toList = true)

/-! ## Reads -/

def read (s : State) (k : Key) : k.Value × State :=
  ((ReadThrough.read query s.db s.cache k).1,
    { s with cache := (ReadThrough.read query s.db s.cache k).2 })

def isServerMember (s : State) (userID : UserID) (serverID : ServerID) : Bool × State :=
  s.read (.member userID serverID)

def canUserAccessChannel (s : State) (userID : UserID) (channelID : ChannelID) : Bool × State :=
  s.read (.access channelID userID)

def listServerMembersUserIDs (s : State) (serverID : ServerID) : Finset UserID × State :=
  s.read (.membersServer serverID)

def listChannelMemberUserIDs (s : State) (channelID : ChannelID) : Finset UserID × State :=
  s.read (.members channelID)

def getServerChannels (s : State) (serverID : ServerID) : Finset Channel × State :=
  s.read (.channelsServer serverID)

def getServersByUserID (s : State) (userID : UserID) : Finset Server × State :=
  s.read (.serversUser userID)

/-- That there is no such channel is an error, and not cached. -/
def getChannelByID (s : State) (channelID : ChannelID) : Finset Channel × State :=
  if s.cache (.channel channelID) = none ∧ s.db.channelByID channelID = ∅ then (∅,s)
  else s.read (.channel channelID)

/-! ## Operations -/

/-- The new server has the next ID of its sequence. -/
def createServer (s : State) (id : ServerID) (name : String) (ownerID : UserID) : Option State :=
  if id ∉ s.db.serverIDs ∧ ownerID ∈ s.db.users ∧ name.length ≤ nameCap then
    some ({ s with db := (s.db.insertServer ⟨id,name,ownerID⟩).insertMember ⟨ownerID,id⟩ }.delete
      (.serversUser ownerID))
  else none

/-- `scanned` are the rows of the member query that come through, none when it fails: the
error is logged and the server deleted all the same. -/
def deleteServer (s : State) (serverID : ServerID) (userID : UserID) (scanned : Finset UserID) :
    Option State :=
  if s.db.owns userID serverID then
    some ((({ s with db := s.db.deleteServer serverID }.deleteWhere (fun k : Key =>
      ∃ memberID ∈ s.db.serverMembersUserIDs serverID ∩ scanned,
        k = Key.serversUser memberID ∨ k = Key.member memberID serverID)).delete
      (.channelsServer serverID)).delete (.membersServer serverID))
  else none

def createChannel (s : State) (id : ChannelID) (serverID : ServerID) (name channelType : String) :
    Option State :=
  if id ∉ s.db.channelIDs ∧ s.db.hasServer serverID ∧ name.length ≤ nameCap then
    some ({ s with
      db := s.db.insertChannel
        ⟨id,some serverID,name,if channelType = "" then ChannelTypeText else channelType⟩ }.delete
      (.channelsServer serverID))
  else none

/-- `serverID` is the server that the channel's row names. -/
def deleteChannel (s : State) (channelID : ChannelID) (serverID : ServerID) (userID : UserID) :
    Option State :=
  if s.db.inServer channelID serverID ∧ s.db.owns userID serverID then
    some (((({ s with db := s.db.deleteChannels (fun c => c.id = channelID) }.delete
      (.channel channelID)).delete (.channelsServer serverID)).deleteByPrefix
        ("members:" ++ toString channelID)).deleteByPrefix ("access:" ++ toString channelID))
  else none

/-- `fetched` says whether `GetServerChannels` answers when its answer is not cached. -/
def addMemberToServer (s : State) (userID : UserID) (serverID : ServerID) (fetched : Bool) :
    Option State :=
  if userID ∈ s.db.users ∧ s.db.hasServer serverID ∧ ⟨userID,serverID⟩ ∉ s.db.serverMembers then
    let s' := (({ s with db := s.db.insertMember ⟨userID,serverID⟩ }.delete
      (.serversUser userID)).delete (.membersServer serverID)).delete (.member userID serverID)
    if fetched = true ∨ s'.cache (.channelsServer serverID) ≠ none then
      let r := s'.getServerChannels serverID
      some (r.2.deleteWhere (fun k => ∃ channel ∈ r.1, k = .access channel.id userID))
    else some s'
  else none

/-- A conversation that exists is found; the new channel has the next ID of its sequence. -/
def openDMChannel (s : State) (userID peerID : UserID) (id : ChannelID) : Option State :=
  let a := (normalizeDMPair userID peerID).1
  let b := (normalizeDMPair userID peerID).2
  if ∃ d ∈ s.db.dmChannels, d.userA = a ∧ d.userB = b then some s
  else if s.db.sharesServer a b ∧ id ∉ s.db.channelIDs ∧ a ∈ s.db.users ∧ b ∈ s.db.users ∧ a < b then
    some { s with
      db := ((s.db.insertChannel ⟨id,none,"",ChannelTypeDM⟩).insertDMChannel ⟨id,a,b⟩).insertVisibility
        ⟨id,userID,false⟩ }
  else none

def hideDMChannel (s : State) (userID : UserID) (channelID : ChannelID) : State :=
  { s with db := s.db.hideVisibility userID channelID }

def revealDMChannel (s : State) (channelID : ChannelID) : State :=
  { s with db := s.db.revealVisibility channelID }

end State

inductive Event where
  | createServer (id : ServerID) (name : String) (ownerID : UserID)
  | deleteServer (serverID : ServerID) (userID : UserID) (scanned : Finset UserID)
  | createChannel (id : ChannelID) (serverID : ServerID) (name channelType : String)
  | deleteChannel (channelID : ChannelID) (serverID : ServerID) (userID : UserID)
  | addMemberToServer (userID : UserID) (serverID : ServerID) (fetched : Bool)
  | openDMChannel (userID peerID : UserID) (id : ChannelID)
  | hideDMChannel (userID : UserID) (channelID : ChannelID)
  | revealDMChannel (channelID : ChannelID)
  /-- A query that is answered from this entry, where there is one. -/
  | read (k : Key)
  /-- An entry expires, or the collector removes it. -/
  | expire (k : Key)

def step (s : State) : Event → Option State
  | .createServer id name ownerID => s.createServer id name ownerID
  | .deleteServer serverID userID scanned => s.deleteServer serverID userID scanned
  | .createChannel id serverID name channelType => s.createChannel id serverID name channelType
  | .deleteChannel channelID serverID userID => s.deleteChannel channelID serverID userID
  | .addMemberToServer userID serverID fetched => s.addMemberToServer userID serverID fetched
  | .openDMChannel userID peerID id => s.openDMChannel userID peerID id
  | .hideDMChannel userID channelID => some (s.hideDMChannel userID channelID)
  | .revealDMChannel channelID => some (s.revealDMChannel channelID)
  | .read (.channel channelID) => some (s.getChannelByID channelID).2
  | .read k => some (s.read k).2
  | .expire k => some (s.delete k)

/-! ## What an operation does -/

section Specs
variable {s s' : State} {p : Key → Prop} {id : ChannelID} {serverID : ServerID} {userID : UserID}
  {k k' : Key}

theorem delete_within : (s.delete k).cache.Within p s.cache := Cache.delete_within _ _

theorem delete_self : (s.delete k).cache k = none := Cache.delete_self _ _

theorem delete_of_none (h : s.cache k' = none) : (s.delete k).cache k' = none :=
  (delete_within (p := fun _ => True)).eq_none trivial h

section
variable {q : Key → Prop} [DecidablePred q]

theorem deleteWhere_within : (s.deleteWhere q).cache.Within p s.cache :=
  Cache.deleteWhere_within _ _

theorem deleteWhere_of (h : q k) : (s.deleteWhere q).cache k = none := Cache.deleteWhere_of _ _ h

theorem deleteWhere_of_none (h : s.cache k = none) : (s.deleteWhere q).cache k = none :=
  (deleteWhere_within (p := fun _ => True)).eq_none trivial h

end

/-- An entry goes whose key starts with the prefix. -/
theorem deleteByPrefix_of {start : String} (rest : String) (h : k.text = start ++ rest) :
    (s.deleteByPrefix start).cache k = none := by
  apply deleteWhere_of
  rw [h,String.toList_append,List.isPrefixOf_iff_prefix]
  exact List.prefix_append _ _

theorem createServer_spec {name : String} (h : s.createServer serverID name userID = some s') :
    serverID ∉ s.db.serverIDs ∧ s'.cache.Within p s.cache ∧
      s'.db = (s.db.insertServer ⟨serverID,name,userID⟩).insertMember ⟨userID,serverID⟩ := by
  unfold State.createServer at h
  split at h
  · rename_i hg
    cases h
    exact ⟨hg.1,Cache.delete_within _ _,rfl⟩
  · cases h

theorem deleteServer_spec {scanned : Finset UserID}
    (h : s.deleteServer serverID userID scanned = some s') :
    s'.db = s.db.deleteServer serverID ∧ s'.cache.Within p s.cache ∧
      s'.cache (.channelsServer serverID) = none ∧
      ∀ u ∈ s.db.serverMembersUserIDs serverID, u ∈ scanned → s'.cache (.member u serverID) = none := by
  unfold State.deleteServer at h
  split at h
  · cases h
    refine ⟨rfl,?_,delete_of_none delete_self,?_⟩
    · exact (delete_within.trans delete_within).trans deleteWhere_within
    · intro u hu hsc
      apply delete_of_none
      apply delete_of_none
      exact deleteWhere_of ⟨u,Finset.mem_inter.mpr ⟨hu,hsc⟩,Or.inr rfl⟩
  · cases h

theorem createChannel_spec {name channelType : String}
    (h : s.createChannel id serverID name channelType = some s') :
    id ∉ s.db.channelIDs ∧ s.db.hasServer serverID ∧ s'.cache.Within p s.cache ∧
      s'.cache (.channelsServer serverID) = none ∧
      ∃ type, s'.db = s.db.insertChannel ⟨id,some serverID,name,type⟩ := by
  unfold State.createChannel at h
  split at h
  · rename_i hg
    cases h
    exact ⟨hg.1,hg.2.1,Cache.delete_within _ _,Cache.delete_self _ _,_,rfl⟩
  · cases h

theorem deleteChannel_spec (h : s.deleteChannel id serverID userID = some s') :
    s.db.inServer id serverID ∧ s'.db = s.db.deleteChannels (fun c => c.id = id) ∧
      s'.cache.Within p s.cache ∧ s'.cache (.channelsServer serverID) = none ∧
      s'.cache (.members id) = none ∧ ∀ u, s'.cache (.access id u) = none := by
  unfold State.deleteChannel at h
  split at h
  · rename_i hg
    cases h
    refine ⟨hg.1,rfl,?_,?_,?_,?_⟩
    · exact deleteWhere_within.trans
        (deleteWhere_within.trans (delete_within.trans delete_within))
    · exact deleteWhere_of_none (deleteWhere_of_none delete_self)
    · exact deleteWhere_of_none (deleteByPrefix_of "" String.append_empty.symm)
    · intro u
      exact deleteByPrefix_of (":" ++ toString u) (String.append_assoc ..)
  · cases h

/-- The channels whose entries go are those that `GetServerChannels` answers. -/
theorem addMemberToServer_spec {fetched : Bool}
    (h : s.addMemberToServer userID serverID fetched = some s')
    (hp : ¬ p (.channelsServer serverID)) :
    s.db.hasServer serverID ∧ s'.db = s.db.insertMember ⟨userID,serverID⟩ ∧
      s'.cache.Within p s.cache ∧
      (∀ rows, s'.cache (.channelsServer serverID) = some rows →
        rows = (s.getServerChannels serverID).1) ∧
      s'.cache (.member userID serverID) = none ∧
      (fetched = true ∨ s.cache (.channelsServer serverID) ≠ none →
        ∀ channel ∈ (s.getServerChannels serverID).1, s'.cache (.access channel.id userID) = none) := by
  unfold State.addMemberToServer at h
  dsimp only at h
  split at h
  · rename_i hg
    obtain ⟨s₁,hs₁⟩ : ∃ s₁, s₁ = (({ s with db := s.db.insertMember ⟨userID,serverID⟩ }.delete
      (.serversUser userID)).delete (.membersServer serverID)).delete (.member userID serverID) := ⟨_,rfl⟩
    rw [← hs₁] at h
    have hdb : s₁.db = s.db.insertMember ⟨userID,serverID⟩ := by rw [hs₁]; rfl
    have hw : s₁.cache.Within p s.cache := by
      rw [hs₁]
      exact delete_within.trans (delete_within.trans delete_within)
    have hm : s₁.cache (.member userID serverID) = none := by rw [hs₁]; exact delete_self
    have hc : s₁.cache (.channelsServer serverID) = s.cache (.channelsServer serverID) := by
      rw [hs₁]
      rfl
    have hr : (s₁.getServerChannels serverID).1 = (s.getServerChannels serverID).1 := by
      change (ReadThrough.read query s₁.db s₁.cache _).1 = (ReadThrough.read query s.db s.cache _).1
      rw [read_fst,read_fst,hc,hdb]
      rfl
    split at h
    · obtain rfl := Option.some.inj h
      refine ⟨hg.2.1,hdb,deleteWhere_within.trans ?_,?_,?_,?_⟩
      · intro k hk v hv
        have hne : k ≠ .channelsServer serverID := fun he => hp (he ▸ hk)
        apply hw k hk v
        rwa [← read_snd_of_ne query s₁.db s₁.cache hne]
      · intro rows hrows
        have hv := deleteWhere_within (p := fun _ => True) _ trivial _ hrows
        rw [← hr]
        exact (Option.some.inj ((read_snd_self query s₁.db s₁.cache _).symm.trans hv)).symm
      · apply deleteWhere_of_none
        exact (read_snd_of_ne query s₁.db s₁.cache (by simp)).trans hm
      · intro _ channel hch
        apply deleteWhere_of
        rw [hr]
        exact ⟨channel,hch,rfl⟩
    · rename_i hn
      obtain rfl := Option.some.inj h
      rw [not_or,not_not,hc] at hn
      refine ⟨hg.2.1,hdb,hw,?_,hm,?_⟩
      · intro rows hrows
        rw [hc,hn.2] at hrows
        cases hrows
      · intro hf
        rcases hf with hf | hf
        · exact absurd hf hn.1
        · exact absurd hn.2 hf
  · cases h

theorem openDMChannel_spec {peerID : UserID} (h : s.openDMChannel userID peerID id = some s') :
    s'.cache = s.cache ∧ (s'.db = s.db ∨ ∃ a b, normalizeDMPair userID peerID = (a,b) ∧
      (¬ ∃ d ∈ s.db.dmChannels, d.userA = a ∧ d.userB = b) ∧ id ∉ s.db.channelIDs ∧
      s'.db = ((s.db.insertChannel ⟨id,none,"",ChannelTypeDM⟩).insertDMChannel ⟨id,a,b⟩).insertVisibility
        ⟨id,userID,false⟩) := by
  unfold State.openDMChannel at h
  dsimp only at h
  split at h
  · cases h
    exact ⟨rfl,Or.inl rfl⟩
  · rename_i hn
    split at h
    · rename_i hg
      cases h
      exact ⟨rfl,Or.inr ⟨_,_,rfl,hn,hg.2.1,rfl⟩⟩
    · cases h

/-- A read leaves the tables as they are. -/
theorem step_read (he : step s (.read k) = some s') :
    s'.db = s.db ∧ (s'.cache = s.cache ∨ s'.cache = (ReadThrough.read query s.db s.cache k).2) := by
  cases k with
  | channel channelID =>
    obtain rfl := Option.some.inj he
    unfold State.getChannelByID
    split
    · exact ⟨rfl,Or.inl rfl⟩
    · exact ⟨rfl,Or.inr rfl⟩
  | serversUser | channelsServer | member | access | membersServer | members =>
    obtain rfl := Option.some.inj he
    exact ⟨rfl,Or.inr rfl⟩

theorem coherentOn_step_read (h : CoherentOn p query s.db s.cache)
    (he : step s (.read k) = some s') :
    CoherentOn p query s'.db s'.cache := by
  obtain ⟨hdb,hc | hc⟩ := step_read he
  · rw [hdb,hc]
    exact h
  · rw [hdb,hc]
    exact h.read k

theorem step_referential {e : Event} (h : s.db.Referential) (he : step s e = some s') :
    s'.db.Referential := by
  cases e with
  | createServer id name ownerID =>
    obtain ⟨-,-,hdb⟩ := createServer_spec (p := fun _ => True) he
    rw [hdb]
    exact h.createServer _
  | deleteServer serverID userID scanned =>
    rw [(deleteServer_spec (p := fun _ => True) he).1]
    exact h.deleteServer serverID
  | createChannel id serverID name channelType =>
    obtain ⟨hid,⟨srv,hsrv,hsid⟩,-,-,type,hdb⟩ := createChannel_spec (p := fun _ => True) he
    rw [hdb]
    refine h.insertChannel hid ?_
    intro s hs
    obtain rfl := Option.some.inj hs
    rw [← hsid]
    exact h.servers srv hsrv
  | deleteChannel channelID serverID userID =>
    rw [(deleteChannel_spec (p := fun _ => True) he).2.1]
    exact h.deleteChannels _
  | addMemberToServer userID serverID fetched =>
    obtain ⟨hs,hdb,-⟩ := addMemberToServer_spec (p := fun _ => False) he id
    rw [hdb]
    exact h.insertMember hs
  | openDMChannel userID peerID id =>
    obtain ⟨-,hdb | ⟨a,b,-,-,hid,hdb⟩⟩ := openDMChannel_spec he
    · rwa [hdb]
    · have hc : (s.db.insertChannel ⟨id,none,"",ChannelTypeDM⟩).Referential :=
        h.insertChannel hid (fun _ hs => nomatch hs)
      have hd : ((s.db.insertChannel ⟨id,none,"",ChannelTypeDM⟩).insertDMChannel ⟨id,a,b⟩).Referential :=
        hc.insertDMChannel (Finset.mem_insert_self _ _)
      rw [hdb]
      exact ⟨hd.servers,hd.channels,hd.channelKey,hd.channelServers,hd.members,hd.dmChannels⟩
  | hideDMChannel userID channelID =>
    obtain rfl := Option.some.inj he
    exact ⟨h.servers,h.channels,h.channelKey,h.channelServers,h.members,h.dmChannels⟩
  | revealDMChannel channelID =>
    obtain rfl := Option.some.inj he
    exact ⟨h.servers,h.channels,h.channelKey,h.channelServers,h.members,h.dmChannels⟩
  | read k =>
    obtain ⟨hdb,-⟩ := step_read he
    rwa [hdb]
  | expire k =>
    obtain rfl := Option.some.inj he
    exact h

end Specs

end MiniDiscord.Storage
