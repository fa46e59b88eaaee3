import MiniDiscord.Notifications.Rules

/-! # The push sender

What a worker does with an event: the settings of every recipient are resolved, a mention
is sent at once, an ordinary message goes into the recipient's aggregate for the channel.
-/
namespace MiniDiscord.Notifications
open ChatHub

/-- What is to be sent to a user, at once when it is a mention. -/
structure Delivery where
  userID : UserID
  mention : Bool
  hidePreview : Bool
  deriving DecidableEq

/-- The loop body of `processEvent`. -/
def processTarget (event : PushEvent) (now : Time) (target : ResolvedNotificationTarget) :
    Option Delivery :=
  if target.userID ∈ event.onlineIDs then none
  else if isTimeInFuture target.dndUntil now = true then none
  else if isTimeInFuture target.mutedUntil now = true then none
  else if target.level = .none then none
  else
    let mention := event.isMention target.userID
    if target.level = .mentions ∧ mention = false then none
    else some ⟨target.userID,mention,target.hideMessagePreview⟩

/-- What `processEvent` sends or folds, in order. -/
def processEvent (t : Tables) (event : PushEvent) (now : Time) : List Delivery :=
  (t.resolveNotificationTargets event.channelID event.recipientIDs).filterMap
    (processTarget event now)

def decision : Option Delivery → NotifyDecision
  | none => .none
  | some d => if d.mention = true then .mention else .message

/-- The decision that is taken for one of the users. -/
def pushDecision (t : Tables) (event : PushEvent) (now : Time) (userID : UserID) : NotifyDecision :=
  decision ((processEvent t event now).find? (fun d => decide (d.userID = userID)))

/-- A delivery is for the target it was made for. -/
theorem processTarget_userID {event : PushEvent} {now : Time} {target : ResolvedNotificationTarget}
    {d : Delivery} (h : processTarget event now target = some d) : d.userID = target.userID := by
  unfold processTarget at h
  dsimp only at h
  split at h
  · cases h
  split at h
  · cases h
  split at h
  · cases h
  split at h
  · cases h
  split at h
  · cases h
  · obtain rfl := Option.some.inj h
    rfl

/-- A recipient with a connection is left to its own tab. -/
theorem processTarget_online {event : PushEvent} {target : ResolvedNotificationTarget} (now : Time)
    (h : target.userID ∈ event.onlineIDs) : processTarget event now target = none := if_pos h

/-- Among targets made for different users, what is found for a user is its own. -/
theorem find?_filterMap_userIDs {T : UserID → ResolvedNotificationTarget}
    (hT : ∀ u, (T u).userID = u) (event : PushEvent) (now : Time) {u : UserID} {us : List UserID}
    (hu : u ∈ us) :
    ((us.map T).filterMap (processTarget event now)).find? (fun d => decide (d.userID = u)) =
      processTarget event now (T u) := by
  induction us with
  | nil => cases hu
  | cons v us ih =>
    rw [List.map_cons]
    cases hv : processTarget event now (T v) with
    | none =>
      rw [List.filterMap_cons_none hv]
      by_cases huv : u = v
      · subst huv
        rw [hv]
        apply List.find?_eq_none.mpr
        intro d hd hdu
        obtain ⟨target,htarget,hd⟩ := List.mem_filterMap.mp hd
        obtain ⟨w,-,rfl⟩ := List.mem_map.mp htarget
        have hw := processTarget_userID hd
        rw [of_decide_eq_true hdu,hT] at hw
        rw [← hw,hv] at hd
        cases hd
      · exact ih ((List.mem_cons.mp hu).resolve_left huv)
    | some d =>
      have hd := processTarget_userID hv
      rw [hT] at hd
      rw [List.filterMap_cons_some hv]
      by_cases huv : u = v
      · subst huv
        rw [List.find?_cons_of_pos (by simpa using hd),hv]
      · rw [List.find?_cons_of_neg (by rw [hd]; simpa using Ne.symm huv)]
        exact ih ((List.mem_cons.mp hu).resolve_left huv)

end MiniDiscord.Notifications
