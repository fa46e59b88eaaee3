import Mathlib.Data.List.Induction
import MiniDiscord.Sfu.Room

/-! # What the clients are told about active speakers

The calls on the speakers of a room, each at its time, and the set that the clients got last.
-/
namespace MiniDiscord.SfuRoom

inductive SpeakerCall
  | markLoud (userID : UserID)
  | removeUser (userID : UserID)
  | sweep
deriving DecidableEq

structure TimedCall where
  time : Time
  call : SpeakerCall

/-- The speakers of a room and the set that was broadcast last. -/
structure SpeakerReports where
  speakers : ActiveSpeakers
  reported : Finset UserID

def SpeakerReports.step (s : SpeakerReports) (e : TimedCall) : SpeakerReports :=
  match e.call with
  | .markLoud userID => { s with speakers := s.speakers.markLoud userID e.time }
  | .removeUser userID => { s with speakers := s.speakers.removeUser userID }
  | .sweep =>
    { speakers := (s.speakers.sweep e.time).1
      reported := (s.speakers.sweep e.time).2.getD s.reported }

def reportsAfter (calls : List TimedCall) : SpeakerReports :=
  calls.foldl SpeakerReports.step ⟨newActiveSpeakers,∅⟩

/-- The user was marked less than the hold time ago and has not been removed since. -/
def LoudAt (calls : List TimedCall) (userID : UserID) (now : Time) : Prop :=
  ∃ before t after, calls = before ++ ⟨t,.markLoud userID⟩ :: after ∧
    (∀ e ∈ after, e.call ≠ .removeUser userID) ∧ now - t < activeSpeakerHoldDuration

/-- The calls come at nondecreasing times. -/
def Ordered (calls : List TimedCall) : Prop := calls.Pairwise fun e e' => e.time ≤ e'.time

theorem reportsAfter_concat (calls : List TimedCall) (e : TimedCall) :
    reportsAfter (calls ++ [e]) = (reportsAfter calls).step e := by
  rw [reportsAfter,List.foldl_append]
  rfl

theorem Ordered.init {calls : List TimedCall} {e : TimedCall} (h : Ordered (calls ++ [e])) :
    Ordered calls ∧ ∀ e' ∈ calls, e'.time ≤ e.time := by
  obtain ⟨hcalls,-,hlast⟩ := List.pairwise_append.mp h
  exact ⟨hcalls,fun e' he' => hlast e' he' e List.mem_cons_self⟩

/-! ## A sweep -/

theorem mem_loudAt {a : ActiveSpeakers} {now : Time} {userID : UserID} :
    userID ∈ a.loudAt now ↔
      ∃ t, a.lastLoudAt.lookup userID = some t ∧ now - t < activeSpeakerHoldDuration := by
  rw [ActiveSpeakers.loudAt,Finset.mem_filter,GoMap.mem_keys_iff]
  cases h : a.lastLoudAt.lookup userID with
  | none => simp
  | some t => simp

/-- Two sets of one size, the one within the other, are equal. -/
theorem sweep_changed_iff (a : ActiveSpeakers) (now : Time) :
    (a.sweep now).2 = if a.loudAt now = a.current then none else some (a.loudAt now) := by
  rw [ActiveSpeakers.sweep]
  by_cases h : a.loudAt now = a.current
  · have hsame : ¬ (a.current.card ≠ a.current.card ∨ ∃ id ∈ a.current, id ∉ a.current) := by
      simp
    simp only [h,hsame,decide_false,if_true,Bool.false_eq_true,if_false]
  · have hchanged : (a.loudAt now).card ≠ a.current.card ∨
        ∃ id ∈ a.loudAt now, id ∉ a.current := by
      by_contra hno
      rw [not_or,not_not] at hno
      obtain ⟨hcard,hmem⟩ := hno
      have hsub : a.loudAt now ⊆ a.current := by
        intro id hid
        by_contra hnot
        exact hmem ⟨id,hid,hnot⟩
      exact h (Finset.eq_of_subset_of_card_le hsub hcard.ge)
    simp only [hchanged,decide_true,h,if_true,if_false]

/-- What the clients got last is what the last sweep kept. -/
theorem reported_eq_current (calls : List TimedCall) :
    (reportsAfter calls).reported = (reportsAfter calls).speakers.current := by
  induction calls using List.reverseRecOn with
  | nil => rfl
  | append_singleton calls e ih =>
    rw [reportsAfter_concat,SpeakerReports.step]
    split
    · exact ih
    · exact ih
    · change ((reportsAfter calls).speakers.sweep e.time).2.getD (reportsAfter calls).reported =
        (reportsAfter calls).speakers.loudAt e.time
      rw [sweep_changed_iff,ih]
      split
      · rename_i hsame
        exact hsame.symm
      · rfl

/-! ## The last marks -/

theorem loudAt_concat {calls : List TimedCall} {e : TimedCall} {userID : UserID} {now : Time} :
    LoudAt (calls ++ [e]) userID now ↔
      e.call = .markLoud userID ∧ now - e.time < activeSpeakerHoldDuration ∨
        e.call ≠ .removeUser userID ∧ LoudAt calls userID now := by
  constructor
  · rintro ⟨before,t,after,heq,hkept,hhold⟩
    induction after using List.reverseRecOn with
    | nil =>
      obtain ⟨-,he⟩ := List.append_inj' heq rfl
      obtain rfl := (List.cons.inj he).1
      exact Or.inl ⟨rfl,hhold⟩
    | append_singleton after e' _ =>
      rw [← List.cons_append,← List.append_assoc] at heq
      obtain ⟨hcalls,he⟩ := List.append_inj' heq rfl
      obtain rfl := (List.cons.inj he).1
      refine Or.inr ⟨hkept e (by simp),before,t,after,hcalls,?_,hhold⟩
      exact fun e' he' => hkept e' (List.mem_append_left _ he')
  · rintro (⟨hcall,hhold⟩ | ⟨hcall,before,t,after,rfl,hkept,hhold⟩)
    · refine ⟨calls,e.time,[],?_,by simp,hhold⟩
      rw [← hcall]
    · refine ⟨before,t,after ++ [e],by simp,?_,hhold⟩
      intro e' he'
      rcases List.mem_append.mp he' with he' | he'
      · exact hkept e' he'
      · obtain rfl : e' = e := by simpa using he'
        exact hcall

theorem step_lookup (s : SpeakerReports) (e : TimedCall) (userID : UserID) :
    (s.step e).speakers.lastLoudAt.lookup userID =
      if e.call = .markLoud userID then some e.time
      else if e.call = .removeUser userID then none
      else s.speakers.lastLoudAt.lookup userID := by
  rcases e with ⟨t,call⟩
  cases call with
  | markLoud u =>
    change (s.speakers.lastLoudAt.insert u t).lookup userID = _
    rw [GoMap.lookup_insert_eq]
    by_cases h : userID = u
    · subst h
      simp
    · have hne : ¬ u = userID := fun heq => h heq.symm
      simp [h,hne]
  | removeUser u =>
    change (s.speakers.lastLoudAt.erase u).lookup userID = _
    rw [GoMap.lookup_erase_eq]
    by_cases h : userID = u
    · subst h
      simp
    · have hne : ¬ u = userID := fun heq => h heq.symm
      simp [h,hne]
  | sweep => simp [SpeakerReports.step,ActiveSpeakers.sweep]

/-- As long as time does not go back, the last mark of a user tells whether one of them is
recent enough. -/
theorem loudAt_iff {calls : List TimedCall} (h : Ordered calls) (userID : UserID) (now : Time) :
    LoudAt calls userID now ↔ userID ∈ (reportsAfter calls).speakers.loudAt now := by
  rw [mem_loudAt]
  induction calls using List.reverseRecOn with
  | nil =>
    constructor
    · rintro ⟨before,t,after,heq,-,-⟩
      cases before <;> cases heq
    · rintro ⟨t,ht,-⟩
      cases (Finmap.lookup_empty userID).symm.trans ht
  | append_singleton calls e ih =>
    obtain ⟨hcalls,hlast⟩ := h.init
    rw [loudAt_concat,reportsAfter_concat,step_lookup,ih hcalls]
    by_cases hmark : e.call = .markLoud userID
    · rw [if_pos hmark]
      constructor
      · rintro (⟨-,hhold⟩ | ⟨-,hloud⟩)
        · exact ⟨e.time,rfl,hhold⟩
        · obtain ⟨before,t,after,rfl,-,hhold⟩ := (ih hcalls).mpr hloud
          have hle : t ≤ e.time := hlast ⟨t,.markLoud userID⟩ (by simp)
          exact ⟨e.time,rfl,Int.lt_of_le_of_lt (Int.sub_le_sub_left hle now) hhold⟩
      · rintro ⟨t,ht,hhold⟩
        cases ht
        exact Or.inl ⟨hmark,hhold⟩
    · rw [if_neg hmark]
      by_cases hremove : e.call = .removeUser userID
      · rw [if_pos hremove]
        simp [hremove]
      · rw [if_neg hremove]
        simp [hmark,hremove]

/-- After a sweep the clients have exactly the users who are loud then, and it reports a change
exactly when they had another set before. -/
theorem sweep_reports_exactly {calls : List TimedCall} {now : Time}
    (h : Ordered (calls ++ [⟨now,.sweep⟩])) :
    (∀ userID, userID ∈ (reportsAfter (calls ++ [⟨now,.sweep⟩])).reported ↔
      LoudAt calls userID now) ∧
    (((reportsAfter calls).speakers.sweep now).2 ≠ none ↔
      (reportsAfter (calls ++ [⟨now,.sweep⟩])).reported ≠ (reportsAfter calls).reported) := by
  have hcurrent : (reportsAfter (calls ++ [⟨now,.sweep⟩])).reported =
      (reportsAfter calls).speakers.loudAt now := by
    rw [reported_eq_current,reportsAfter_concat]
    rfl
  constructor
  · intro userID
    rw [hcurrent]
    exact (loudAt_iff h.init.1 userID now).symm
  · rw [hcurrent,reported_eq_current,sweep_changed_iff]
    split
    · rename_i hsame
      simp [hsame]
    · rename_i hdiffers
      simp [hdiffers]

/-- User 1 is marked, a sweep follows, user 1 leaves, and the next sweep is at the same time. -/
theorem sweep_reports_exactly_left :
    (∀ userID, userID ∈ (reportsAfter ([⟨0,.markLoud 1⟩,⟨5,.sweep⟩,⟨5,.removeUser 1⟩] ++
        [⟨5,.sweep⟩])).reported ↔
      LoudAt [⟨0,.markLoud 1⟩,⟨5,.sweep⟩,⟨5,.removeUser 1⟩] userID 5) ∧
    (((reportsAfter [⟨0,.markLoud 1⟩,⟨5,.sweep⟩,⟨5,.removeUser 1⟩]).speakers.sweep 5).2 ≠ none ↔
      (reportsAfter ([⟨0,.markLoud 1⟩,⟨5,.sweep⟩,⟨5,.removeUser 1⟩] ++ [⟨5,.sweep⟩])).reported ≠
        (reportsAfter [⟨0,.markLoud 1⟩,⟨5,.sweep⟩,⟨5,.removeUser 1⟩]).reported) :=
  sweep_reports_exactly (by simp [Ordered])

end MiniDiscord.SfuRoom
