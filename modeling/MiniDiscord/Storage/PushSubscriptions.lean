import Mathlib.Data.List.Nodup
import MiniDiscord.Sfu.Room
import MiniDiscord.Transition.LabelledRuns

/-! # Web Push subscriptions

Any number of subscribe requests, each an upsert by endpoint and then a `DELETE` that
keeps the user's ten newest rows, each statement a transaction of its own. The `DELETE`
chooses its rows in the snapshot it began with and looks again at each of them when it
has locked it. Unsubscribing and a dead endpoint delete a row. Every statement may fail.
-/
namespace MiniDiscord.Storage.PushSubscriptions
open Transition

abbrev CallID := ℕ

/-- `types.PushSubscribeRequest`. -/
structure PushSubscribeRequest where
  endpoint : String
  p256dh : String
  auth : String
  deriving DecidableEq, Repr

/-- `types.PushSubscription`, without the ID. -/
structure PushSubscription where
  userID : UserID
  endpoint : String
  p256dh : String
  auth : String
  userAgent : String
  deriving DecidableEq, Repr

/-- `handlePushSubscribe`, up to the storage call. -/
def handlePushSubscribe (userID : UserID) (payload : PushSubscribeRequest) (userAgent : String) :
    Except String PushSubscription :=
  if payload.endpoint = "" ∨ payload.p256dh = "" ∨ payload.auth = "" then
    .error "endpoint and keys are required"
  else .ok ⟨userID,payload.endpoint,payload.p256dh,payload.auth,userAgent⟩

/-- A row of `push_subscriptions`. -/
structure Row where
  id : ℕ
  sub : PushSubscription
  createdAt : ℤ
  deriving DecidableEq

/-- The table, and the next value of the sequence of its IDs. -/
structure Table where
  rows : List Row
  nextID : ℕ

def maxPushSubscriptionsPerUser : ℕ := 10

namespace Table

/-- `INSERT … ON CONFLICT (endpoint) DO UPDATE`: a row that exists keeps its ID and its
`created_at`. The sequence advances in both cases. -/
def upsert (db : Table) (sub : PushSubscription) (now : ℤ) : Table where
  rows :=
    if db.rows.any (fun r => decide (r.sub.endpoint = sub.endpoint)) then
      db.rows.map (fun r => if r.sub.endpoint = sub.endpoint then { r with sub := sub } else r)
    else db.rows ++ [⟨db.nextID,sub,now⟩]
  nextID := db.nextID + 1

/-- `DELETE … WHERE endpoint = $1`. -/
def deleteByEndpoint (db : Table) (endpoint : String) : Table :=
  { db with rows := db.rows.filter (fun r => r.sub.endpoint ≠ endpoint) }

/-- `SELECT … WHERE user_id = $1`. -/
def ofUser (db : Table) (userID : UserID) : List Row :=
  db.rows.filter (fun r => r.sub.userID = userID)

/-- `kept` may be what `ORDER BY created_at DESC LIMIT 10` returns: PostgreSQL is free to
order rows of one time. -/
def isNewest (db : Table) (userID : UserID) (kept : List ℕ) : Bool :=
  decide (kept.length = min maxPushSubscriptionsPerUser (db.ofUser userID).length) &&
    kept.all (fun id => (db.ofUser userID).any (fun r => decide (r.id = id))) &&
    (db.ofUser userID).all (fun r => decide (r.id ∈ kept) ||
      (db.ofUser userID).all (fun r' => decide (r'.id ∉ kept) || decide (r.createdAt ≤ r'.createdAt)))

/-- The rows of the user that are not `kept`. -/
def surplus (db : Table) (userID : UserID) (kept : List ℕ) : List ℕ :=
  ((db.ofUser userID).filter (fun r => r.id ∉ kept)).map Row.id

/-- The rows chosen before are deleted where they still are the user's. -/
def deleteSurplus (db : Table) (userID : UserID) (chosen : List ℕ) : Table :=
  { db with rows := db.rows.filter (fun r => ¬ (r.sub.userID = userID ∧ r.id ∈ chosen)) }

end Table

/-- Where a subscribe request is: before its upsert, between the statements, in the `DELETE`
with the rows it chose, returned, or returned with the error of its second statement. -/
inductive Phase where
  | idle
  | stored (userID : UserID)
  | trimming (userID : UserID) (chosen : List ℕ)
  | done
  | failed (userID : UserID)
  deriving DecidableEq

structure State where
  db : Table
  calls : CallID → Phase

def start : State := ⟨⟨[],0⟩,fun _ => .idle⟩

inductive Event where
  | upsert (c : CallID) (userID : UserID) (payload : PushSubscribeRequest) (userAgent : String) (now : ℤ)
  | beginTrim (c : CallID) (kept : List ℕ)
  | endTrim (c : CallID)
  | fail (c : CallID)
  | delete (endpoint : String)
  deriving DecidableEq

namespace State

def setPhase (s : State) (c : CallID) (phase : Phase) : State :=
  { s with calls := Function.update s.calls c phase }

def step (s : State) : Event → Option State
  | .upsert c userID payload userAgent now =>
    match s.calls c, handlePushSubscribe userID payload userAgent with
    | .idle, .ok sub => some ({ s with db := s.db.upsert sub now }.setPhase c (.stored userID))
    | _, _ => none
  | .beginTrim c kept =>
    match s.calls c with
    | .stored userID =>
      if s.db.isNewest userID kept then
        some (s.setPhase c (.trimming userID (s.db.surplus userID kept)))
      else none
    | _ => none
  | .endTrim c =>
    match s.calls c with
    | .trimming userID chosen =>
      some ({ s with db := s.db.deleteSurplus userID chosen }.setPhase c .done)
    | _ => none
  | .fail c =>
    match s.calls c with
    | .stored userID => some (s.setPhase c (.failed userID))
    | .trimming userID _ => some (s.setPhase c (.failed userID))
    | _ => none
  | .delete endpoint => some { s with db := s.db.deleteByEndpoint endpoint }

end State

/-- Everything one step can do. -/
theorem State.step_cases {s s' : State} {e : Event} (h : s.step e = some s') :
    (∃ c userID payload userAgent now sub, e = .upsert c userID payload userAgent now ∧
      s.calls c = .idle ∧ handlePushSubscribe userID payload userAgent = .ok sub ∧
      s' = { s with db := s.db.upsert sub now }.setPhase c (.stored userID)) ∨
    (∃ c kept userID, e = .beginTrim c kept ∧ s.calls c = .stored userID ∧
      s.db.isNewest userID kept = true ∧
      s' = s.setPhase c (.trimming userID (s.db.surplus userID kept))) ∨
    (∃ c userID chosen, e = .endTrim c ∧ s.calls c = .trimming userID chosen ∧
      s' = { s with db := s.db.deleteSurplus userID chosen }.setPhase c .done) ∨
    (∃ c userID, e = .fail c ∧
      (s.calls c = .stored userID ∨ ∃ chosen, s.calls c = .trimming userID chosen) ∧
      s' = s.setPhase c (.failed userID)) ∨
    (∃ endpoint, e = .delete endpoint ∧ s' = { s with db := s.db.deleteByEndpoint endpoint }) := by
  cases e with
  | upsert c userID payload userAgent now =>
    simp only [step] at h
    split at h
    · cases h
      exact .inl ⟨c,userID,payload,userAgent,now,_,rfl,‹_›,‹_›,rfl⟩
    · cases h
  | beginTrim c kept =>
    simp only [step] at h
    split at h
    · obtain ⟨hn,h⟩ := Option.ite_none_right_eq_some.mp h
      cases h
      exact .inr (.inl ⟨c,kept,_,rfl,‹_›,hn,rfl⟩)
    · cases h
  | endTrim c =>
    simp only [step] at h
    split at h
    · cases h
      exact .inr (.inr (.inl ⟨c,_,_,rfl,‹_›,rfl⟩))
    · cases h
  | fail c =>
    simp only [step] at h
    split at h
    · cases h
      exact .inr (.inr (.inr (.inl ⟨c,_,rfl,.inl ‹_›,rfl⟩)))
    · cases h
      exact .inr (.inr (.inr (.inl ⟨c,_,rfl,.inr ⟨_,‹_›⟩,rfl⟩)))
    · cases h
  | delete endpoint =>
    cases h
    exact .inr (.inr (.inr (.inr ⟨endpoint,rfl,rfl⟩)))

/-- The request that an event is a statement of. -/
def Event.call : Event → Option CallID
  | .upsert c _ _ _ _ => some c
  | .beginTrim c _ => some c
  | .endTrim c => some c
  | .fail c => some c
  | .delete _ => none

theorem State.setPhase_self (s : State) (c : CallID) (phase : Phase) :
    (s.setPhase c phase).calls c = phase := Function.update_self _ _ _

theorem State.setPhase_of_ne (s : State) {c d : CallID} (phase : Phase) (h : d ≠ c) :
    (s.setPhase c phase).calls d = s.calls d := Function.update_of_ne h _ _

/-- A statement of one request leaves the others where they are. -/
theorem State.step_calls {s s' : State} {e : Event} {c : CallID} (h : s.step e = some s')
    (hc : e.call ≠ some c) : s'.calls c = s.calls c := by
  obtain ⟨d,_,_,_,_,_,rfl,_,_,rfl⟩ | ⟨d,_,_,rfl,_,_,rfl⟩ | ⟨d,_,_,rfl,_,rfl⟩ |
    ⟨d,_,rfl,_,rfl⟩ | ⟨_,rfl,rfl⟩ := State.step_cases h
  · exact State.setPhase_of_ne _ _ (fun he => hc (congrArg some he.symm))
  · exact State.setPhase_of_ne _ _ (fun he => hc (congrArg some he.symm))
  · exact State.setPhase_of_ne _ _ (fun he => hc (congrArg some he.symm))
  · exact State.setPhase_of_ne _ _ (fun he => hc (congrArg some he.symm))
  · rfl

theorem handlePushSubscribe_ok {userID : UserID} {payload : PushSubscribeRequest}
    {userAgent : String} {sub : PushSubscription}
    (h : handlePushSubscribe userID payload userAgent = .ok sub) :
    sub = ⟨userID,payload.endpoint,payload.p256dh,payload.auth,userAgent⟩ ∧
      sub.endpoint ≠ "" ∧ sub.p256dh ≠ "" ∧ sub.auth ≠ "" := by
  rw [handlePushSubscribe] at h
  split at h
  · cases h
  · rename_i hne
    cases h
    exact ⟨rfl,fun he => hne (.inl he),fun he => hne (.inr (.inl he)),
      fun he => hne (.inr (.inr he))⟩

/-- The unique keys of the table, and the sequence ahead of the IDs it gave. -/
structure Table.Keyed (db : Table) : Prop where
  ids : (db.rows.map Row.id).Nodup
  below : ∀ r ∈ db.rows, r.id < db.nextID
  endpoints : (db.rows.map (fun r => r.sub.endpoint)).Nodup

theorem Table.Keyed.filter {db : Table} (h : db.Keyed) (p : Row → Bool) :
    Table.Keyed { db with rows := db.rows.filter p } :=
  ⟨h.ids.sublist (List.filter_sublist.map _),fun r hr => h.below r (List.mem_of_mem_filter hr),
    h.endpoints.sublist (List.filter_sublist.map _)⟩

theorem Table.Keyed.upsert {db : Table} (h : db.Keyed) (sub : PushSubscription) (now : ℤ) :
    (db.upsert sub now).Keyed := by
  simp only [Table.upsert]
  split
  · have hid : ((db.rows.map (fun r => if r.sub.endpoint = sub.endpoint then { r with sub := sub }
        else r)).map Row.id) = db.rows.map Row.id := by
      rw [List.map_map]
      refine List.map_congr_left (fun r _ => ?_)
      simp only [Function.comp_apply]
      split <;> rfl
    have hend : ((db.rows.map (fun r => if r.sub.endpoint = sub.endpoint then { r with sub := sub }
        else r)).map (fun r => r.sub.endpoint)) = db.rows.map (fun r => r.sub.endpoint) := by
      rw [List.map_map]
      refine List.map_congr_left (fun r _ => ?_)
      simp only [Function.comp_apply]
      split
      · exact Eq.symm ‹_›
      · rfl
    refine ⟨hid ▸ h.ids,fun r hr => ?_,hend ▸ h.endpoints⟩
    obtain ⟨q,hq,rfl⟩ := List.mem_map.mp hr
    have := h.below q hq
    split <;> exact Nat.lt_succ_of_lt this
  · rename_i hnew
    have hne : ∀ r ∈ db.rows, r.sub.endpoint ≠ sub.endpoint := by
      intro r hr he
      exact hnew (List.any_eq_true.mpr ⟨r,hr,decide_eq_true he⟩)
    refine ⟨?_,fun r hr => ?_,?_⟩
    · rw [List.map_append,List.map_singleton]
      refine List.nodup_append.mpr ⟨h.ids,List.nodup_singleton _,?_⟩
      intro id hid id' hid' he
      obtain ⟨r,hr,rfl⟩ := List.mem_map.mp hid
      exact (h.below r hr).ne (he.trans (List.mem_singleton.mp hid'))
    · rcases List.mem_append.mp hr with hr | hr
      · exact Nat.lt_succ_of_lt (h.below r hr)
      · rw [List.mem_singleton.mp hr]
        exact Nat.lt_succ_self _
    · rw [List.map_append,List.map_singleton]
      refine List.nodup_append.mpr ⟨h.endpoints,List.nodup_singleton _,?_⟩
      intro a ha b hb he
      obtain ⟨r,hr,rfl⟩ := List.mem_map.mp ha
      exact hne r hr (he.trans (List.mem_singleton.mp hb))

theorem Table.Keyed.start : start.db.Keyed :=
  ⟨List.nodup_nil,fun _ hr => (List.not_mem_nil hr).elim,List.nodup_nil⟩

theorem Table.Keyed.step {s s' : State} {e : Event} (h : s.db.Keyed) (he : s.step e = some s') :
    s'.db.Keyed := by
  obtain ⟨c,u,_,_,now,sub,_,_,_,rfl⟩ | ⟨_,_,_,_,_,_,rfl⟩ | ⟨_,_,_,_,_,rfl⟩ | ⟨_,_,_,_,rfl⟩ |
    ⟨_,_,rfl⟩ := State.step_cases he
  · exact h.upsert sub now
  · exact h
  · exact h.filter _
  · exact h
  · exact h.filter _

/-! ## At most ten of each user -/

/-- The number of the user's rows that are not `chosen`. -/
def Table.others (db : Table) (userID : UserID) (chosen : List ℕ) : ℕ :=
  db.rows.countP (fun r => decide (r.sub.userID = userID ∧ r.id ∉ chosen))

theorem Table.length_ofUser (db : Table) (userID : UserID) :
    (db.ofUser userID).length = db.others userID [] := by
  rw [Table.ofUser,← List.countP_eq_length_filter,Table.others]
  exact List.countP_congr (fun r _ => by simp)

/-- Deleting rows leaves no more of anyone's. -/
theorem Table.others_filter_le (db : Table) (p : Row → Bool) (userID : UserID) (chosen : List ℕ) :
    Table.others { db with rows := db.rows.filter p } userID chosen ≤ db.others userID chosen :=
  List.Sublist.countP_le List.filter_sublist

/-- A row stored for one user is no other user's. -/
theorem Table.others_upsert_le (db : Table) (sub : PushSubscription) (now : ℤ) {userID : UserID}
    (hu : sub.userID ≠ userID) (chosen : List ℕ) :
    (db.upsert sub now).others userID chosen ≤ db.others userID chosen := by
  simp only [Table.others,Table.upsert]
  split
  · rw [List.countP_map]
    refine List.countP_mono_left (fun r _ hr => ?_)
    simp only [Function.comp_apply] at hr
    split at hr
    · exact absurd (of_decide_eq_true hr).1 hu
    · exact hr
  · rw [List.countP_append,List.countP_singleton,if_neg]
    · exact le_rfl
    · exact fun h => hu (of_decide_eq_true h).1

/-- The rows that a `DELETE` did not choose are at most ten. -/
theorem Table.others_surplus_le {db : Table} (h : db.Keyed) {userID : UserID} {kept : List ℕ}
    (hn : db.isNewest userID kept = true) :
    db.others userID (db.surplus userID kept) ≤ maxPushSubscriptionsPerUser := by
  have hlen : kept.length ≤ maxPushSubscriptionsPerUser := by
    simp only [Table.isNewest,Bool.and_eq_true,decide_eq_true_eq] at hn
    rw [hn.1.1]
    exact Nat.min_le_left _ _
  have hkept : db.others userID (db.surplus userID kept) ≤
      db.rows.countP (fun r => decide (r.id ∈ kept)) := by
    refine List.countP_mono_left (fun r hr hr' => ?_)
    obtain ⟨hu,hs⟩ := of_decide_eq_true hr'
    by_contra hk
    refine hs (List.mem_map.mpr ⟨r,List.mem_filter.mpr ⟨?_,?_⟩,rfl⟩)
    · exact List.mem_filter.mpr ⟨hr,decide_eq_true hu⟩
    · exact decide_eq_true (fun hm => hk (decide_eq_true hm))
  have hcount : db.rows.countP (fun r => decide (r.id ∈ kept)) ≤ kept.length := by
    rw [List.countP_eq_length_filter,← List.length_map Row.id]
    refine (List.Nodup.subperm ?_ ?_).length_le
    · exact h.ids.sublist (List.filter_sublist.map _)
    · intro id hid
      obtain ⟨r,hr,rfl⟩ := List.mem_map.mp hid
      exact of_decide_eq_true (List.mem_filter.mp hr).2
  exact (hkept.trans hcount).trans hlen

theorem Table.others_deleteSurplus (db : Table) (userID : UserID) (chosen : List ℕ) :
    (db.deleteSurplus userID chosen).others userID [] = db.others userID chosen := by
  rw [Table.others,Table.deleteSurplus,List.countP_filter,Table.others]
  refine List.countP_congr (fun r _ => ?_)
  simp only [List.not_mem_nil,not_false_eq_true,and_true,Bool.and_eq_true,decide_eq_true_eq,not_and]
  tauto

/-- The user's rows are ten at most, or they will be: a request that stored a row has yet to
choose the surplus, or gave up, or has chosen all but ten. -/
def State.Bounded (s : State) (userID : UserID) : Prop :=
  (∃ c, s.calls c = .stored userID ∨ s.calls c = .failed userID) ∨
    (∃ c chosen, s.calls c = .trimming userID chosen ∧
      s.db.others userID chosen ≤ maxPushSubscriptionsPerUser) ∨
    s.db.others userID [] ≤ maxPushSubscriptionsPerUser

/-- The user's requests go on as they were, and no row becomes the user's. -/
theorem State.Bounded.frame {s s' : State} {userID : UserID} (h : s.Bounded userID)
    (hdb : ∀ chosen, s'.db.others userID chosen ≤ s.db.others userID chosen)
    (hcalls : ∀ c, s.calls c = .stored userID ∨ s.calls c = .failed userID ∨
      (∃ chosen, s.calls c = .trimming userID chosen) → s'.calls c = s.calls c) :
    s'.Bounded userID := by
  rcases h with ⟨c,hc⟩ | ⟨c,chosen,hc,hle⟩ | hle
  · refine .inl ⟨c,?_⟩
    rw [hcalls c (by tauto)]
    exact hc
  · refine .inr (.inl ⟨c,chosen,?_,(hdb chosen).trans hle⟩)
    rw [hcalls c (.inr (.inr ⟨chosen,hc⟩))]
    exact hc
  · exact .inr (.inr ((hdb []).trans hle))

/-- The user's `DELETE` is done: what it did not choose is left, or another request counts. -/
theorem State.Bounded.endTrim {s : State} {userID : UserID} {c : CallID} {chosen : List ℕ}
    (h : s.Bounded userID) (hc : s.calls c = .trimming userID chosen) :
    ({ s with db := s.db.deleteSurplus userID chosen }.setPhase c .done).Bounded userID := by
  have hdb : ∀ l, (s.db.deleteSurplus userID chosen).others userID l ≤ s.db.others userID l :=
    s.db.others_filter_le _ userID
  rcases h with ⟨d,hd⟩ | ⟨d,l,hd,hle⟩ | hle
  · have hdc : d ≠ c := by
      rintro rfl
      rw [hc] at hd
      rcases hd with hd | hd <;> cases hd
    refine .inl ⟨d,?_⟩
    rw [State.setPhase_of_ne _ _ hdc]
    exact hd
  · by_cases hdc : d = c
    · subst hdc
      rw [hc,Phase.trimming.injEq] at hd
      obtain ⟨_,rfl⟩ := hd
      exact .inr (.inr ((s.db.others_deleteSurplus userID chosen).trans_le hle))
    · refine .inr (.inl ⟨d,l,?_,(hdb l).trans hle⟩)
      rw [State.setPhase_of_ne _ _ hdc]
      exact hd
  · exact .inr (.inr ((hdb []).trans hle))

theorem State.Bounded.step {s s' : State} {e : Event} {userID : UserID} (h : s.Bounded userID)
    (hk : s.db.Keyed) (he : s.step e = some s') : s'.Bounded userID := by
  obtain ⟨c,u,payload,agent,now,sub,_,hc,hsub,rfl⟩ | ⟨c,kept,u,_,hc,hn,rfl⟩ |
    ⟨c,u,chosen,_,hc,rfl⟩ | ⟨c,u,_,hc,rfl⟩ | ⟨_,_,rfl⟩ := State.step_cases he
  · by_cases hu : u = userID
    · subst hu
      exact .inl ⟨c,.inl (State.setPhase_self _ _ _)⟩
    · have hown : sub.userID ≠ userID := by
        rw [(handlePushSubscribe_ok hsub).1]
        exact hu
      refine h.frame (s.db.others_upsert_le sub now hown) (fun d hd => ?_)
      refine State.setPhase_of_ne _ _ ?_
      rintro rfl
      rw [hc] at hd
      rcases hd with hd | hd | ⟨_,hd⟩ <;> cases hd
  · by_cases hu : u = userID
    · subst hu
      exact .inr (.inl ⟨c,_,State.setPhase_self _ _ _,Table.others_surplus_le hk hn⟩)
    · refine h.frame (fun _ => le_rfl) (fun d hd => State.setPhase_of_ne _ _ ?_)
      rintro rfl
      rw [hc] at hd
      rcases hd with hd | hd | ⟨_,hd⟩ <;> cases hd
      exact hu rfl
  · by_cases hu : u = userID
    · subst hu
      exact h.endTrim hc
    · refine h.frame (s.db.others_filter_le _ userID) (fun d hd => State.setPhase_of_ne _ _ ?_)
      rintro rfl
      rw [hc] at hd
      rcases hd with hd | hd | ⟨_,hd⟩ <;> cases hd
      exact hu rfl
  · by_cases hu : u = userID
    · subst hu
      exact .inl ⟨c,.inr (State.setPhase_self _ _ _)⟩
    · refine h.frame (fun _ => le_rfl) (fun d hd => State.setPhase_of_ne _ _ ?_)
      rintro rfl
      rcases hc with hc | ⟨chosen,hc⟩
      all_goals
        rw [hc] at hd
        rcases hd with hd | hd | ⟨_,hd⟩ <;> cases hd
        exact hu rfl
  · exact h.frame (s.db.others_filter_le _ userID) (fun _ _ => rfl)

/-- In every interleaving of subscribe and unsubscribe requests, dead endpoints and failures:
when each request of the user that stored a row has also finished its `DELETE`, the user has ten
subscriptions at most. -/
theorem atMostTen {s : State} {es : List Event} (hr : Runs State.step start es s) (userID : UserID)
    (hdone : ∀ c, s.calls c ≠ .stored userID ∧ s.calls c ≠ .failed userID ∧
      ∀ chosen, s.calls c ≠ .trimming userID chosen) :
    (s.db.ofUser userID).length ≤ maxPushSubscriptionsPerUser := by
  have hb : s.Bounded userID := by
    refine hr.invariant_of (Q := fun s : State => s.db.Keyed) (P := fun s => s.Bounded userID)
      ?_ ?_ ?_ ?_
    · exact Table.Keyed.start
    · exact .inr (.inr (Nat.zero_le _))
    · exact fun hk _ he => hk.step he
    · exact fun hk hb _ he => hb.step hk he
  rw [Table.length_ofUser]
  rcases hb with ⟨c,hc⟩ | ⟨c,chosen,hc,_⟩ | hle
  · rcases hc with hc | hc
    · exact absurd hc (hdone c).1
    · exact absurd hc (hdone c).2.1
  · exact absurd hc ((hdone c).2.2 chosen)
  · exact hle

/-- The `c`-th subscription of user 7, at time `c`. -/
def subscribe (c : ℕ) : Event :=
  .upsert c 7 ⟨String.singleton (Char.ofNat (97 + c)),"key","secret"⟩ "browser" c

/-- Ten requests one after the other, then two whose statements interleave. -/
def twelveSubscribe : List Event :=
  (List.range 10).flatMap (fun c => [subscribe c,.beginTrim c (List.range (c + 1)),.endTrim c]) ++
    [subscribe 10,subscribe 11,.beginTrim 10 ((List.range 12).drop 2),
      .beginTrim 11 ((List.range 12).drop 2),.endTrim 11,.endTrim 10]

theorem atMostTen_twelveSubscribe :
    ((after State.step start twelveSubscribe).db.ofUser 7).length ≤ maxPushSubscriptionsPerUser := by
  have hr : Runs State.step start twelveSubscribe (after State.step start twelveSubscribe) :=
    runs_after (by decide)
  refine atMostTen hr 7 (fun c => ?_)
  by_cases hc : c < 12
  · have hdone : ∀ c < 12, (after State.step start twelveSubscribe).calls c = .done := by decide
    simp [hdone c hc]
  · have hcalls : ∀ e ∈ twelveSubscribe, e.call.all (fun d => decide (d < 12)) = true := by decide
    have hidle : (after State.step start twelveSubscribe).calls c = .idle := by
      refine hr.frame (f := fun s => s.calls c) (fun hm he => State.step_calls he (fun h => hc ?_))
      have := hcalls _ hm
      rw [h,Option.all_some] at this
      exact of_decide_eq_true this
    simp [hidle]

/-! ## Whose a subscription is -/

/-- The subscription that an event stores. -/
def Event.subscription : Event → Option PushSubscription
  | .upsert _ userID payload userAgent _ => (handlePushSubscribe userID payload userAgent).toOption
  | _ => none

/-- The last subscription stored for the endpoint. -/
def lastSubscription (endpoint : String) (es : List Event) : Option PushSubscription :=
  ((es.filterMap Event.subscription).filter (fun sub => sub.endpoint = endpoint)).getLast?

theorem lastSubscription_append_none {e : Event} (h : e.subscription = none) (endpoint : String)
    (es : List Event) : lastSubscription endpoint (es ++ [e]) = lastSubscription endpoint es := by
  simp only [lastSubscription,List.filterMap_append,List.filterMap_cons,h,List.filterMap_nil,
    List.append_nil]

theorem lastSubscription_append_some {e : Event} {sub : PushSubscription}
    (h : e.subscription = some sub) (endpoint : String) (es : List Event) :
    lastSubscription endpoint (es ++ [e]) =
      if sub.endpoint = endpoint then some sub else lastSubscription endpoint es := by
  simp only [lastSubscription,List.filterMap_append,List.filterMap_cons,h,List.filterMap_nil,
    List.filter_append,List.filter_cons,List.filter_nil,decide_eq_true_eq]
  split
  · rw [List.getLast?_concat]
  · rw [List.append_nil]

/-- Every row is what the last subscription of its endpoint stored. -/
def Current (es : List Event) (s : State) : Prop :=
  ∀ r ∈ s.db.rows, lastSubscription r.sub.endpoint es = some r.sub

theorem Current.upsert {es : List Event} {s : State} (h : Current es s) {e : Event}
    {sub : PushSubscription} (hsub : e.subscription = some sub) (now : ℤ) :
    ∀ r ∈ (s.db.upsert sub now).rows, lastSubscription r.sub.endpoint (es ++ [e]) = some r.sub := by
  intro r hr
  rw [lastSubscription_append_some hsub]
  simp only [Table.upsert] at hr
  split at hr
  · obtain ⟨q,hq,rfl⟩ := List.mem_map.mp hr
    by_cases he : q.sub.endpoint = sub.endpoint
    · rw [if_pos he,if_pos rfl]
    · rw [if_neg he,if_neg (Ne.symm he)]
      exact h q hq
  · rename_i hnew
    rcases List.mem_append.mp hr with hr | hr
    · rw [if_neg]
      · exact h r hr
      · exact fun he => hnew (List.any_eq_true.mpr ⟨r,hr,decide_eq_true he.symm⟩)
    · rw [List.mem_singleton.mp hr,if_pos rfl]

theorem Current.step {es : List Event} {s s' : State} {e : Event} (h : Current es s)
    (he : s.step e = some s') : Current (es ++ [e]) s' := by
  have hdel : ∀ (p : Row → Bool), e.subscription = none →
      ∀ r ∈ s.db.rows.filter p, lastSubscription r.sub.endpoint (es ++ [e]) = some r.sub := by
    intro p hnone r hr
    rw [lastSubscription_append_none hnone]
    exact h r (List.mem_of_mem_filter hr)
  have hsame : e.subscription = none →
      ∀ r ∈ s.db.rows, lastSubscription r.sub.endpoint (es ++ [e]) = some r.sub := by
    intro hnone r hr
    rw [lastSubscription_append_none hnone]
    exact h r hr
  obtain ⟨c,u,payload,agent,now,sub,rfl,_,hsub,rfl⟩ | ⟨_,_,_,rfl,_,_,rfl⟩ | ⟨_,_,_,rfl,_,rfl⟩ |
    ⟨_,_,rfl,_,rfl⟩ | ⟨_,rfl,rfl⟩ := State.step_cases he
  · exact h.upsert (by rw [Event.subscription,hsub]; rfl) now
  · exact hsame rfl
  · exact hdel _ rfl
  · exact hsame rfl
  · exact hdel _ rfl

/-- In every interleaving: the subscriptions that a push to a user goes to have different
endpoints, and each of them is, with its keys, what the last subscribe request for its endpoint
stored; that request was the user's. A browser that has changed hands is no longer pushed to. -/
theorem listed_lastSubscribed {s : State} {es : List Event} (hr : Runs State.step start es s)
    (userID : UserID) :
    ((s.db.ofUser userID).map (fun r => r.sub.endpoint)).Nodup ∧
      ∀ r ∈ s.db.ofUser userID,
        lastSubscription r.sub.endpoint es = some r.sub ∧ r.sub.userID = userID := by
  have hk : s.db.Keyed := hr.invariant (P := fun s : State => s.db.Keyed) Table.Keyed.start
    (fun hk _ he => hk.step he)
  have hc : Current es s := hr.history (P := Current) (fun _ hm => (List.not_mem_nil hm).elim)
    (fun _ hc _ he => hc.step he)
  refine ⟨hk.endpoints.sublist (List.filter_sublist.map _),fun r hm => ?_⟩
  obtain ⟨hm,hu⟩ := List.mem_filter.mp hm
  exact ⟨hc r hm,of_decide_eq_true hu⟩

/-- A browser subscribes for user 1 and then for user 2. -/
def changesHands : List Event :=
  [.upsert 0 1 ⟨"e","k","a"⟩ "browser" 0,.upsert 1 2 ⟨"e","l","b"⟩ "browser" 1]

theorem listed_lastSubscribed_changesHands :
    (((after State.step start changesHands).db.ofUser 2).map (fun r => r.sub.endpoint)).Nodup ∧
      ∀ r ∈ (after State.step start changesHands).db.ofUser 2,
        lastSubscription r.sub.endpoint changesHands = some r.sub ∧ r.sub.userID = 2 :=
  listed_lastSubscribed (runs_after (by decide)) 2

end MiniDiscord.Storage.PushSubscriptions
