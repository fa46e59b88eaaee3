import MiniDiscord.Commands.Calls

/-! # Notification settings

The settings rows of a user, global, for a server and for a channel, and the two queries
over them: what a client is sent, and what the push sender resolves for each recipient.
Times are in milliseconds.
-/
namespace MiniDiscord.Notifications
open ChatHub

inductive NotificationLevel where
  | all
  | mentions
  | none
  deriving DecidableEq

structure ChannelRow where
  id : ChannelID
  serverID : Option ServerID
  deriving DecidableEq

structure UserRow where
  userID : UserID
  defaultLevel : NotificationLevel
  hideMessagePreview : Bool
  dndUntil : Option Time
  deriving DecidableEq

structure ServerRow where
  userID : UserID
  serverID : ServerID
  level : Option NotificationLevel
  mutedUntil : Option Time
  deriving DecidableEq

structure ChannelSettingRow where
  userID : UserID
  channelID : ChannelID
  level : Option NotificationLevel
  mutedUntil : Option Time
  deriving DecidableEq

/-- The rows, with the primary keys; the IDs of servers come from a sequence. -/
structure Tables where
  channels : List ChannelRow
  users : List UserRow
  servers : List ServerRow
  channelSettings : List ChannelSettingRow
  userKey : ∀ r ∈ users, ∀ r' ∈ users, r.userID = r'.userID → r = r'
  serverKey : ∀ r ∈ servers, ∀ r' ∈ servers, r.userID = r'.userID → r.serverID = r'.serverID → r = r'
  channelKey : ∀ r ∈ channelSettings, ∀ r' ∈ channelSettings, r.userID = r'.userID →
    r.channelID = r'.channelID → r = r'
  serverIDs : ∀ r ∈ servers, 0 < r.serverID
  channelServerIDs : ∀ r ∈ channels, ∀ serverID ∈ r.serverID, 0 < serverID

/-- Tables without a row. -/
def Tables.empty : Tables := ⟨[],[],[],[],nofun,nofun,nofun,nofun,nofun⟩

structure ServerNotificationOverride where
  serverID : ServerID
  level : Option NotificationLevel
  mutedUntil : Option Time

structure ChannelNotificationOverride where
  channelID : ChannelID
  level : Option NotificationLevel
  mutedUntil : Option Time

structure NotificationSettings where
  defaultLevel : NotificationLevel
  hideMessagePreview : Bool
  dndUntil : Option Time
  servers : List ServerNotificationOverride
  channels : List ChannelNotificationOverride

structure ResolvedNotificationTarget where
  userID : UserID
  level : NotificationLevel
  mutedUntil : Option Time
  dndUntil : Option Time
  hideMessagePreview : Bool

/-- `GREATEST`, which passes over NULL. -/
def greatest : Option Time → Option Time → Option Time
  | some a, some b => some (max a b)
  | some a, none => some a
  | none, b => b

namespace Tables

def userRow (t : Tables) (userID : UserID) : Option UserRow :=
  t.users.find? (fun r => decide (r.userID = userID))

def serverRow (t : Tables) (userID : UserID) (serverID : ServerID) : Option ServerRow :=
  t.servers.find? (fun r => decide (r.userID = userID ∧ r.serverID = serverID))

def channelSettingRow (t : Tables) (userID : UserID) (channelID : ChannelID) :
    Option ChannelSettingRow :=
  t.channelSettings.find? (fun r => decide (r.userID = userID ∧ r.channelID = channelID))

def getNotificationSettings (t : Tables) (userID : UserID) : NotificationSettings where
  defaultLevel := ((t.userRow userID).map UserRow.defaultLevel).getD .all
  hideMessagePreview := ((t.userRow userID).map UserRow.hideMessagePreview).getD false
  dndUntil := (t.userRow userID).bind UserRow.dndUntil
  servers := (t.servers.filter (fun r => decide (r.userID = userID))).map
    (fun r => ⟨r.serverID,r.level,r.mutedUntil⟩)
  channels := (t.channelSettings.filter (fun r => decide (r.userID = userID))).map
    (fun r => ⟨r.channelID,r.level,r.mutedUntil⟩)

/-- A join on the server of a direct message, which is NULL, finds no row. -/
def serverRowOf (t : Tables) (userID : UserID) (ch : ChannelRow) : Option ServerRow :=
  ch.serverID.bind (fun serverID => t.serverRow userID serverID)

def resolveTarget (t : Tables) (ch : ChannelRow) (userID : UserID) : ResolvedNotificationTarget where
  userID := userID
  level := (((t.channelSettingRow userID ch.id).bind ChannelSettingRow.level).orElse (fun _ =>
    (if ch.serverID = none then some .all else none).orElse (fun _ =>
      ((t.serverRowOf userID ch).bind ServerRow.level).orElse (fun _ =>
        (t.userRow userID).map UserRow.defaultLevel)))).getD .all
  mutedUntil := greatest ((t.channelSettingRow userID ch.id).bind ChannelSettingRow.mutedUntil)
    ((t.serverRowOf userID ch).bind ServerRow.mutedUntil)
  dndUntil := (t.userRow userID).bind UserRow.dndUntil
  hideMessagePreview := ((t.userRow userID).map UserRow.hideMessagePreview).getD false

def resolveNotificationTargets (t : Tables) (channelID : ChannelID) (userIDs : List UserID) :
    List ResolvedNotificationTarget :=
  match t.channels.find? (fun ch => decide (ch.id = channelID)) with
  | none => []
  | some ch => userIDs.map (t.resolveTarget ch)

end Tables

/-! ## Rows and overrides -/

/-- The first row of a user under a key is the first of the user's rows under the key. -/
theorem find?_map_filter {R O : Type} (rows : List R) (mine p : R → Bool) (f : R → O) (q : O → Bool)
    (h : ∀ r ∈ rows, q (f r) = p r) :
    ((rows.filter mine).map f).find? q = (rows.find? (fun r => mine r && p r)).map f := by
  induction rows with
  | nil => rfl
  | cons r rows ih =>
    have htail := ih (fun r' hr' => h r' (List.mem_cons_of_mem _ hr'))
    have hr := h r List.mem_cons_self
    cases hm : mine r with
    | false =>
      rw [List.filter_cons_of_neg (by rw [hm]; exact Bool.false_ne_true),htail,
        List.find?_cons_of_neg (by rw [hm]; exact Bool.false_ne_true)]
    | true =>
      rw [List.filter_cons_of_pos hm,List.map_cons]
      cases hp : p r with
      | false =>
        rw [List.find?_cons_of_neg (by rw [hr,hp]; exact Bool.false_ne_true),htail,
          List.find?_cons_of_neg (by rw [hm,hp]; exact Bool.false_ne_true)]
      | true =>
        rw [List.find?_cons_of_pos (by rw [hr,hp]),
          List.find?_cons_of_pos (by rw [hm,hp]; rfl)]
        rfl

theorem find?_servers (t : Tables) (userID : UserID) (serverID : ServerID) :
    (t.getNotificationSettings userID).servers.find? (fun o => decide (o.serverID = serverID)) =
      (t.serverRow userID serverID).map (fun r => ⟨r.serverID,r.level,r.mutedUntil⟩) := by
  refine (find?_map_filter t.servers _ (fun r => decide (r.serverID = serverID)) _ _
    (fun _ _ => rfl)).trans ?_
  unfold Tables.serverRow
  congr 2
  funext r
  exact (Bool.decide_and _ _).symm

theorem find?_channels (t : Tables) (userID : UserID) (channelID : ChannelID) :
    (t.getNotificationSettings userID).channels.find? (fun o => decide (o.channelID = channelID)) =
      (t.channelSettingRow userID channelID).map (fun r => ⟨r.channelID,r.level,r.mutedUntil⟩) := by
  refine (find?_map_filter t.channelSettings _ (fun r => decide (r.channelID = channelID)) _ _
    (fun _ _ => rfl)).trans ?_
  unfold Tables.channelSettingRow
  congr 2
  funext r
  exact (Bool.decide_and _ _).symm

/-- No server has the ID that stands for a direct message. -/
theorem serverRow_of_nonpos (t : Tables) (userID : UserID) {serverID : ServerID} (h : serverID ≤ 0) :
    t.serverRow userID serverID = none := by
  apply List.find?_eq_none.mpr
  intro r hr hd
  obtain ⟨-,rfl⟩ := of_decide_eq_true hd
  exact absurd (t.serverIDs r hr) (not_lt.mpr h)

end MiniDiscord.Notifications
