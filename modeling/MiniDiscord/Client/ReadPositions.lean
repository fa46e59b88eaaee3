import MiniDiscord.Client.MarkRead

/-! # The greatest ID is not lost

Once an ID is dropped the client remembers it as sent, so the position is kept as long as
nothing drops the greatest ID of a channel, and lost with the first step that does.
-/
namespace MiniDiscord.MarkRead
open SfuTrack ChatHub RateLimit Transition

/-- The greatest ID of the channel has been stored, or is on its way. -/
def Positioned (s : State) (c : ChannelID) : Prop :=
  s.passed c ≤ s.lastRead c ∨ (c,s.passed c) ∈ s.inFlight ∨ s.pendingByChannel c = some (s.passed c)

/-- The ID may be dropped: a greater one was passed, or one as great is stored. -/
def Spare (s : State) (c : ChannelID) (id : MessageID) : Prop := id < s.passed c ∨ id ≤ s.lastRead c

/-- What waits is sent on an open socket. -/
def Sends (s : State) (c : ChannelID) : Prop :=
  ∀ id ∈ s.pendingByChannel c, s.isOpen = true ∨ Spare s c id

/-- The hub stores the ID of the frame. -/
def Admits (userID : UserID) (s : State) (now : ℚ) (canAccess fails : Bool) : Prop :=
  (s.markReadLimiter.allow now (toString userID)).1 = true ∧ canAccess = true ∧ fails = false

/-- The step drops no ID that is still needed. -/
def Keeps (userID : UserID) (s : State) : Event → Prop
  | .markChannelRead c id force now => 0 < c → 0 < id → s.lastSent c < id →
      (∀ p ∈ s.pendingByChannel c, p ≤ id ∨ Spare s c p) ∧
      (force = true ∨ MARK_READ_THROTTLE_MS ≤ now - s.lastSentAt c → s.isOpen = true ∨ Spare s c id)
  | .timer c _ => Sends s c
  | .flushChannel c _ => Sends s c
  | .flushAll _ => ∀ c ∈ s.timerByChannel, Sends s c
  | .connect => True
  | .disconnect arrived => ∀ f ∈ s.inFlight.drop arrived, Spare s f.1 f.2
  | .handle i now canAccess fails => ∀ f ∈ s.inFlight[i]?,
      Admits userID s now canAccess fails ∨ Spare s f.1 f.2
  | .cleanup _ => True

instance (s : State) (c : ChannelID) (id : MessageID) : Decidable (Spare s c id) := by
  unfold Spare
  infer_instance

instance (s : State) (c : ChannelID) : Decidable (Sends s c) := by
  unfold Sends
  infer_instance

instance (u : UserID) (s : State) (now : ℚ) (a f : Bool) : Decidable (Admits u s now a f) := by
  unfold Admits
  infer_instance

instance (u : UserID) (s : State) (e : Event) : Decidable (Keeps u s e) := by
  cases e <;> unfold Keeps <;> infer_instance

/-- The event passes an ID for the channel. -/
def Event.marks (c : ChannelID) : Event → Prop
  | .markChannelRead channelID _ _ _ => channelID = c
  | _ => False

/-! ## What holds in every state -/

structure Inv (r : ChannelID → Option MessageID) (s : State) : Prop where
  waiting : ∀ c id, s.pendingByChannel c = some id → s.lastSent c < id ∧ id ≤ s.passed c
  sent : ∀ c, s.lastSent c ≤ s.passed c
  flight : ∀ f ∈ s.inFlight, 0 < f.1 ∧ 0 < f.2 ∧ f.2 ≤ s.lastSent f.1
  ordered : s.inFlight.Pairwise (fun f g => f.1 = g.1 → f.2 < g.2)
  reads : ∀ c, (r c).getD 0 ≤ s.lastRead c ∧ s.lastRead c ≤ max ((r c).getD 0) (s.passed c)
  valid : ∀ c, s.pendingByChannel c ≠ none → 0 < c
  positive : ∀ c, 0 ≤ s.lastSent c

variable {r : ChannelID → Option MessageID} {u : UserID} {s s' : State} {c d : ChannelID} {id : MessageID}

theorem inv_start : Inv r (start r) where
  waiting _ _ h := by cases h
  sent _ := le_refl _
  flight _ h := by cases h
  ordered := List.Pairwise.nil
  reads c := ⟨le_refl _,le_max_left _ _⟩
  valid _ h := absurd rfl h
  positive _ := le_refl _

/-! ## Sending -/

/-- The ID is sent, if the socket is open, and recorded as sent. -/
def State.send (s : State) (c : ChannelID) (id : MessageID) (now : ℤ) : State :=
  { s with
    inFlight := if s.isOpen then s.inFlight ++ [(c,id)] else s.inFlight
    lastSentByChannel := Function.update s.lastSentByChannel c (some id)
    lastSentAtByChannel := Function.update s.lastSentAtByChannel c (some now)
    pendingByChannel := Function.update s.pendingByChannel c none }

theorem lastSent_send (id : MessageID) (now : ℤ) :
    (s.send c id now).lastSent d = if d = c then id else s.lastSent d := by
  change (Function.update s.lastSentByChannel c (some id) d).getD 0 = _
  rw [Function.update_apply]
  split <;> rfl

theorem lastSent_le_send (now : ℤ) (hlt : s.lastSent c < id) (d : ChannelID) :
    s.lastSent d ≤ (s.send c id now).lastSent d := by
  rw [lastSent_send]
  split
  · rename_i hd
    rw [hd]
    exact hlt.le
  · exact le_refl _

theorem pending_send (id : MessageID) (now : ℤ) {w : MessageID} :
    (s.send c id now).pendingByChannel d = some w ↔ d ≠ c ∧ s.pendingByChannel d = some w := by
  change Function.update s.pendingByChannel c none d = _ ↔ _
  rw [Function.update_apply]
  split
  · rename_i hd
    exact iff_of_false (fun h => by cases h) (fun h => h.1 hd)
  · rename_i hd
    exact (and_iff_right hd).symm

theorem mem_inFlight_send (id : MessageID) (now : ℤ) {f : ChannelID × MessageID} :
    f ∈ (s.send c id now).inFlight ↔ f ∈ s.inFlight ∨ s.isOpen = true ∧ f = (c,id) := by
  unfold State.send
  split
  · rename_i ho
    rw [List.mem_append,List.mem_singleton,and_iff_right ho]
  · rename_i ho
    exact (or_iff_left (fun h => ho h.1)).symm

theorem sendNow_cases (h : Inv r s) (c : ChannelID) (now : ℤ) :
    (s.pendingByChannel c = none ∧ s.sendNow c now = s) ∨
    ∃ id, s.pendingByChannel c = some id ∧ s.lastSent c < id ∧ id ≤ s.passed c ∧
      s.sendNow c now = s.send c id now := by
  unfold State.sendNow
  cases hp : s.pendingByChannel c with
  | none => exact Or.inl ⟨rfl,rfl⟩
  | some id =>
    obtain ⟨hlt,hle⟩ := h.waiting c id hp
    refine Or.inr ⟨id,rfl,hlt,hle,?_⟩
    dsimp only
    rw [if_neg (not_le.mpr hlt)]
    unfold State.sendMarkRead State.send
    split <;> rfl

theorem pending_sendNow (now : ℤ) : (s.sendNow c now).pendingByChannel =
    Function.update s.pendingByChannel c none := by
  unfold State.sendNow
  split
  · rename_i hp
    rw [← hp,Function.update_eq_self]
  · split <;> rfl

theorem sendNow_fields (now : ℤ) : (s.sendNow c now).isOpen = s.isOpen ∧
    (s.sendNow c now).passed = s.passed ∧ (s.sendNow c now).channelReads = s.channelReads ∧
    (s.sendNow c now).timerByChannel = s.timerByChannel := by
  unfold State.sendNow State.sendMarkRead
  split
  · exact ⟨rfl,rfl,rfl,rfl⟩
  · split
    · exact ⟨rfl,rfl,rfl,rfl⟩
    · split <;> exact ⟨rfl,rfl,rfl,rfl⟩

theorem Inv.send (h : Inv r s) (hp : s.pendingByChannel c = some id) (now : ℤ) :
    Inv r (s.send c id now) := by
  have hc : 0 < c := h.valid c (by rw [hp]; exact Option.some_ne_none _)
  obtain ⟨hlt,hle⟩ := h.waiting c id hp
  have hgrow := lastSent_le_send now hlt
  constructor
  case waiting =>
    intro d id' hd
    obtain ⟨hdc,hd⟩ := (pending_send id now).mp hd
    rw [lastSent_send,if_neg hdc]
    exact h.waiting d id' hd
  case sent =>
    intro d
    rw [lastSent_send]
    split
    · rename_i hd
      rw [hd]
      exact hle
    · exact h.sent d
  case flight =>
    intro f hf
    rcases (mem_inFlight_send id now).mp hf with hf | ⟨-,rfl⟩
    · obtain ⟨h1,h2,h3⟩ := h.flight f hf
      exact ⟨h1,h2,h3.trans (hgrow f.1)⟩
    · refine ⟨hc,lt_of_le_of_lt (h.positive c) hlt,?_⟩
      rw [lastSent_send,if_pos rfl]
  case ordered =>
    unfold State.send
    dsimp only
    split
    · refine List.pairwise_append.mpr ⟨h.ordered,List.pairwise_singleton _ _,fun f hf g hg => ?_⟩
      rw [List.mem_singleton.mp hg]
      intro hfc
      change f.1 = c at hfc
      have hf3 := (h.flight f hf).2.2
      rw [hfc] at hf3
      exact lt_of_le_of_lt hf3 hlt
    · exact h.ordered
  case reads => exact h.reads
  case valid =>
    intro d hd
    obtain ⟨w,hw⟩ := Option.ne_none_iff_exists'.mp hd
    obtain ⟨-,hw⟩ := (pending_send id now).mp hw
    exact h.valid d (by rw [hw]; exact Option.some_ne_none _)
  case positive =>
    intro d
    exact (h.positive d).trans (hgrow d)

theorem Inv.sendNow (h : Inv r s) (c : ChannelID) (now : ℤ) : Inv r (s.sendNow c now) := by
  rcases sendNow_cases h c now with ⟨-,heq⟩ | ⟨id,hp,-,-,heq⟩
  · rwa [heq]
  · rw [heq]
    exact h.send hp now

/-- What is sent on an open socket is on its way. -/
theorem Positioned.sendNow (h : Inv r s) (hp : Positioned s d) (hs : Sends s c) (now : ℤ) :
    Positioned (s.sendNow c now) d := by
  rcases sendNow_cases h c now with ⟨-,heq⟩ | ⟨id,hid,-,-,heq⟩
  · rwa [heq]
  · rw [heq]
    rcases hp with hp | hp | hp
    · exact Or.inl hp
    · exact Or.inr (Or.inl ((mem_inFlight_send id now).mpr (Or.inl hp)))
    · by_cases hdc : d = c
      · subst hdc
        obtain rfl : id = s.passed d := Option.some.inj (hid.symm.trans hp)
        rcases hs _ hid with ho | hlt | hle
        · exact Or.inr (Or.inl ((mem_inFlight_send _ now).mpr (Or.inr ⟨ho,rfl⟩)))
        · exact absurd hlt (lt_irrefl _)
        · exact Or.inl hle
      · exact Or.inr (Or.inr ((pending_send id now).mpr ⟨hdc,hp⟩))

theorem Positioned.of_sendNow (h : Inv r s) {now : ℤ} (hp : Positioned (s.sendNow c now) d) :
    Positioned s d := by
  rcases sendNow_cases h c now with ⟨-,heq⟩ | ⟨id,hid,-,-,heq⟩
  · rwa [heq] at hp
  · rw [heq] at hp
    rcases hp with hp | hp | hp
    · exact Or.inl hp
    · rcases (mem_inFlight_send id now).mp hp with hp | ⟨-,hp⟩
      · exact Or.inr (Or.inl hp)
      · obtain ⟨rfl,hpass⟩ := Prod.mk.inj hp
        have hpass : s.passed d = id := hpass
        exact Or.inr (Or.inr (hpass ▸ hid))
    · exact Or.inr (Or.inr ((pending_send id now).mp hp).2)

theorem not_positioned_sendNow (h : Inv r s) (hs : ¬ Sends s c) (now : ℤ) :
    ¬ Positioned (s.sendNow c now) c := by
  simp only [Sends, Spare, not_forall, not_or, not_lt, not_le] at hs
  obtain ⟨id,hid,ho,hle,hlt⟩ := hs
  rcases sendNow_cases h c now with ⟨hnone,-⟩ | ⟨id',hid',hsent,hle',heq⟩
  · rw [hid] at hnone
    cases hnone
  · obtain rfl : id = id' := Option.some.inj (hid.symm.trans hid')
    obtain rfl : id = s.passed c := le_antisymm hle' hle
    rw [heq]
    rintro (hp | hp | hp)
    · exact absurd hp (not_le.mpr hlt)
    · rcases (mem_inFlight_send _ now).mp hp with hp | ⟨hopen,-⟩
      · exact absurd (h.flight _ hp).2.2 (not_le.mpr hsent)
      · exact ho hopen
    · exact ((pending_send _ now).mp hp).1 rfl

theorem sends_sendNow (now : ℤ) : Sends (s.sendNow c now) d ↔ d = c ∨ Sends s d := by
  obtain ⟨ho,hpass,hreads,-⟩ := sendNow_fields (s := s) (c := c) now
  unfold Sends Spare State.lastRead
  rw [pending_sendNow,ho,hpass,hreads,Function.update_apply]
  by_cases hdc : d = c <;> simp [hdc]

/-! ## Flushing -/

theorem Inv.clearTimer (h : Inv r s) (c : ChannelID) : Inv r (s.clearTimer c) :=
  ⟨h.waiting,h.sent,h.flight,h.ordered,h.reads,h.valid,h.positive⟩

theorem Inv.flushChannel (h : Inv r s) (c : ChannelID) (now : ℤ) : Inv r (s.flushChannel c now) :=
  (h.clearTimer c).sendNow c now

theorem Inv.flushAll (h : Inv r s) (now : ℤ) : Inv r (s.flushAll now) := by
  unfold State.flushAll
  generalize s.timerByChannel = l
  induction l generalizing s with
  | nil => exact h
  | cons c l ih => exact ih (h.flushChannel c now)

theorem Positioned.flushAll (h : Inv r s) (hp : Positioned s d) {now : ℤ}
    (hs : ∀ c ∈ s.timerByChannel, Sends s c) : Positioned (s.flushAll now) d := by
  unfold State.flushAll
  generalize s.timerByChannel = l at hs ⊢
  induction l generalizing s with
  | nil => exact hp
  | cons c l ih =>
    refine ih (h.flushChannel c now)
      (Positioned.sendNow (h.clearTimer c) hp (hs c List.mem_cons_self) now) (fun e he => ?_)
    exact (sends_sendNow now).mpr (Or.inr (hs e (List.mem_cons_of_mem _ he)))

theorem Positioned.of_flushes {now : ℤ} {l : List ChannelID} (h : Inv r s)
    (hp : Positioned (l.foldl (fun s c => s.flushChannel c now) s) d) : Positioned s d := by
  induction l generalizing s with
  | nil => exact hp
  | cons c l ih =>
    have hstep : Positioned ((s.clearTimer c).sendNow c now) d := ih (h.flushChannel c now) hp
    have hclear : Positioned (s.clearTimer c) d := hstep.of_sendNow (h.clearTimer c)
    exact hclear

theorem not_positioned_flushes {now : ℤ} {l : List ChannelID} (h : Inv r s) (hd : d ∈ l)
    (hs : ¬ Sends s d) : ¬ Positioned (l.foldl (fun s c => s.flushChannel c now) s) d := by
  induction l generalizing s with
  | nil => cases hd
  | cons c l ih =>
    by_cases hdc : d = c
    · subst hdc
      intro hp
      have hafter := hp.of_flushes (l := l) (h.flushChannel d now)
      exact not_positioned_sendNow (h.clearTimer d) hs now hafter
    · have hrest : d ∈ l := (List.mem_cons.mp hd).resolve_left hdc
      have hstill : ¬ Sends (s.flushChannel c now) d := fun hsend =>
        ((sends_sendNow now).mp hsend).elim hdc hs
      exact ih (h.flushChannel c now) hrest hstill

/-! ## Passing an ID -/

/-- The ID replaces the one that waits. -/
def State.pass (s : State) (c : ChannelID) (id : MessageID) : State :=
  { s with
    passed := Function.update s.passed c (max (s.passed c) id)
    pendingByChannel := Function.update s.pendingByChannel c (some id) }

theorem passed_pass (id : MessageID) : (s.pass c id).passed d =
    if d = c then max (s.passed c) id else s.passed d := by
  change Function.update s.passed c _ d = _
  rw [Function.update_apply]

theorem pending_pass (id : MessageID) : (s.pass c id).pendingByChannel d =
    if d = c then some id else s.pendingByChannel d := by
  change Function.update s.pendingByChannel c _ d = _
  rw [Function.update_apply]

theorem passed_le_pass (id : MessageID) : s.passed d ≤ (s.pass c id).passed d := by
  rw [passed_pass]
  split
  · rename_i hd
    rw [hd]
    exact le_max_left _ _
  · exact le_refl _

/-- An ID that is not above the one sent last changes nothing. -/
theorem pass_sent (h : Inv r s) (hle : id ≤ s.lastSent c) :
    { s with passed := Function.update s.passed c (max (s.passed c) id) } = s := by
  rw [max_eq_left (hle.trans (h.sent c)),Function.update_eq_self]

theorem Inv.pass (h : Inv r s) (hc : 0 < c) (hlt : s.lastSent c < id) : Inv r (s.pass c id) where
  waiting d id' hd := by
    rw [pending_pass] at hd
    split at hd
    · rename_i hdc
      obtain rfl := Option.some.inj hd
      rw [hdc,passed_pass,if_pos rfl]
      exact ⟨hlt,le_max_right _ _⟩
    · obtain ⟨h1,h2⟩ := h.waiting d id' hd
      exact ⟨h1,h2.trans (passed_le_pass id)⟩
  sent d := (h.sent d).trans (passed_le_pass id)
  flight := h.flight
  ordered := h.ordered
  reads d := ⟨(h.reads d).1,(h.reads d).2.trans (max_le_max_left _ (passed_le_pass id))⟩
  valid d hd := by
    rw [pending_pass] at hd
    split at hd
    · rename_i hdc
      rw [hdc]
      exact hc
    · exact h.valid d hd
  positive := h.positive

theorem positioned_pass_of_ne (id : MessageID) (hdc : d ≠ c) : Positioned (s.pass c id) d ↔ Positioned s d := by
  unfold Positioned
  rw [passed_pass,pending_pass,if_neg hdc,if_neg hdc]
  exact Iff.rfl

theorem Positioned.pass (hp : Positioned s c)
    (hover : ∀ p ∈ s.pendingByChannel c, p ≤ id ∨ Spare s c p) : Positioned (s.pass c id) c := by
  unfold Positioned
  rw [passed_pass,pending_pass,if_pos rfl,if_pos rfl]
  rcases le_total (s.passed c) id with hle | hle
  · rw [max_eq_right hle]
    exact Or.inr (Or.inr rfl)
  · rw [max_eq_left hle]
    rcases hp with hp | hp | hp
    · exact Or.inl hp
    · exact Or.inr (Or.inl hp)
    · rcases hover _ hp with hid | hlt | hread
      · exact Or.inr (Or.inr (congrArg some (le_antisymm hle hid)))
      · exact absurd hlt (lt_irrefl _)
      · exact Or.inl hread

theorem not_positioned_pass (h : Inv r s) {p : MessageID} (hp : s.pendingByChannel c = some p)
    (hlt : id < p) (hs : ¬ Spare s c p) : ¬ Positioned (s.pass c id) c := by
  obtain ⟨hsent,hle⟩ := h.waiting c p hp
  simp only [Spare, not_or, not_lt, not_le] at hs
  obtain ⟨hge,hread⟩ := hs
  obtain rfl : p = s.passed c := le_antisymm hle hge
  unfold Positioned
  rw [passed_pass,pending_pass,if_pos rfl,if_pos rfl,max_eq_left hlt.le]
  rintro (hq | hq | hq)
  · exact absurd hq (not_le.mpr hread)
  · exact absurd (h.flight _ hq).2.2 (not_le.mpr hsent)
  · exact absurd (Option.some.inj hq) hlt.ne

/-- A timer is started, or there is one. -/
def State.startTimer (s : State) (c : ChannelID) : State :=
  if c ∈ s.timerByChannel then s else { s with timerByChannel := s.timerByChannel ++ [c] }

/-- What `markChannelRead` does with an ID that is new. -/
theorem markChannelRead_new (hc : 0 < c) (hid : 0 < id) (hlt : s.lastSent c < id) (force : Bool)
    (now : ℤ) : s.markChannelRead c id force now =
      if force = true then (s.pass c id).flushChannel c now
      else if MARK_READ_THROTTLE_MS ≤ now - s.lastSentAt c then (s.pass c id).sendNow c now
      else (s.pass c id).startTimer c := by
  have hvalid : ¬ (c ≤ 0 ∨ id ≤ 0) := not_or.mpr ⟨not_le.mpr hc,not_le.mpr hid⟩
  exact (if_neg hvalid).trans (if_neg (not_le.mpr hlt))

theorem markChannelRead_idle (h : Inv r s) (hn : ¬ (0 < c ∧ 0 < id ∧ s.lastSent c < id)) (force : Bool)
    (now : ℤ) : s.markChannelRead c id force now = s := by
  unfold State.markChannelRead
  split
  · rfl
  · rename_i hpos
    have hle : id ≤ s.lastSent c := by
      obtain ⟨hc,hid⟩ := not_or.mp hpos
      exact not_lt.mp (fun hlt => hn ⟨not_le.mp hc,not_le.mp hid,hlt⟩)
    exact (if_pos hle).trans (pass_sent h hle)

theorem sends_pass : Sends (s.pass c id) c ↔ s.isOpen = true ∨ Spare s c id := by
  have hspare : Spare (s.pass c id) c id ↔ Spare s c id := by
    unfold Spare
    rw [passed_pass,if_pos rfl,lt_max_iff,or_iff_left (lt_irrefl id)]
    exact Iff.rfl
  unfold Sends
  rw [pending_pass,if_pos rfl]
  constructor
  · intro h
    exact (h id rfl).imp_right hspare.mp
  · intro h p hp
    obtain rfl := Option.some.inj hp
    exact h.imp_right hspare.mpr

theorem startTimer_cases (s : State) (c : ChannelID) : s.startTimer c = s ∧ c ∈ s.timerByChannel ∨
    s.startTimer c = { s with timerByChannel := s.timerByChannel ++ [c] } := by
  unfold State.startTimer
  split
  · rename_i hc
    exact Or.inl ⟨rfl,hc⟩
  · exact Or.inr rfl

theorem Inv.startTimer (h : Inv r s) (c : ChannelID) : Inv r (s.startTimer c) := by
  rcases startTimer_cases s c with ⟨heq,-⟩ | heq
  · rwa [heq]
  · rw [heq]
    exact ⟨h.waiting,h.sent,h.flight,h.ordered,h.reads,h.valid,h.positive⟩

theorem positioned_startTimer : Positioned (s.startTimer c) d ↔ Positioned s d := by
  rcases startTimer_cases s c with ⟨heq,-⟩ | heq
  · rw [heq]
  · rw [heq]
    exact Iff.rfl

theorem Inv.markChannelRead (h : Inv r s) (c : ChannelID) (id : MessageID) (force : Bool) (now : ℤ) :
    Inv r (s.markChannelRead c id force now) := by
  by_cases hn : 0 < c ∧ 0 < id ∧ s.lastSent c < id
  · obtain ⟨hc,hid,hlt⟩ := hn
    have hpass : Inv r (s.pass c id) := h.pass hc hlt
    rw [markChannelRead_new hc hid hlt]
    split
    · exact hpass.flushChannel c now
    · split
      · exact hpass.sendNow c now
      · exact hpass.startTimer c
  · rwa [markChannelRead_idle h hn]

theorem Positioned.markChannelRead (h : Inv r s) (hp : Positioned s d) {force : Bool} {now : ℤ}
    (hk : Keeps u s (.markChannelRead c id force now)) :
    Positioned (s.markChannelRead c id force now) d := by
  by_cases hn : 0 < c ∧ 0 < id ∧ s.lastSent c < id
  · obtain ⟨hc,hid,hlt⟩ := hn
    obtain ⟨hover,hsends⟩ := hk hc hid hlt
    have hinv : Inv r (s.pass c id) := h.pass hc hlt
    have hpass : Positioned (s.pass c id) d := by
      by_cases hdc : d = c
      · subst hdc
        exact hp.pass hover
      · exact (positioned_pass_of_ne id hdc).mpr hp
    rw [markChannelRead_new hc hid hlt]
    split
    · rename_i hf
      have hsend : Sends (s.pass c id) c := sends_pass.mpr (hsends (Or.inl hf))
      exact Positioned.sendNow (hinv.clearTimer c) hpass hsend now
    · split
      · rename_i ht
        exact hpass.sendNow hinv (sends_pass.mpr (hsends (Or.inr ht))) now
      · exact positioned_startTimer.mpr hpass
  · rwa [markChannelRead_idle h hn]

theorem Positioned.of_markChannelRead (h : Inv r s) {force : Bool} {now : ℤ} (hdc : d ≠ c)
    (hp : Positioned (s.markChannelRead c id force now) d) : Positioned s d := by
  by_cases hn : 0 < c ∧ 0 < id ∧ s.lastSent c < id
  · obtain ⟨hc,hid,hlt⟩ := hn
    have hinv : Inv r (s.pass c id) := h.pass hc hlt
    rw [markChannelRead_new hc hid hlt] at hp
    refine (positioned_pass_of_ne id hdc).mp ?_
    split at hp
    · have hclear : Positioned ((s.pass c id).clearTimer c) d := hp.of_sendNow (hinv.clearTimer c)
      exact hclear
    · split at hp
      · exact hp.of_sendNow hinv
      · exact positioned_startTimer.mp hp
  · rwa [markChannelRead_idle h hn] at hp

theorem not_positioned_markChannelRead (h : Inv r s) {force : Bool} {now : ℤ}
    (hk : ¬ Keeps u s (.markChannelRead c id force now)) :
    ¬ Positioned (s.markChannelRead c id force now) c := by
  simp only [Keeps, Classical.not_imp] at hk
  obtain ⟨hc,hid,hlt,hk⟩ := hk
  have hinv : Inv r (s.pass c id) := h.pass hc hlt
  rw [markChannelRead_new hc hid hlt]
  rcases not_and_or.mp hk with hover | hsends
  · -- the greater ID that waits is overwritten
    simp only [not_forall, not_or, not_le] at hover
    obtain ⟨p,hp,hgt,hs⟩ := hover
    have hpass := not_positioned_pass h hp hgt hs
    split
    · intro hq
      have hclear : Positioned ((s.pass c id).clearTimer c) c := hq.of_sendNow (hinv.clearTimer c)
      exact hpass hclear
    · split
      · exact fun hq => hpass (hq.of_sendNow hinv)
      · exact fun hq => hpass (positioned_startTimer.mp hq)
  · -- the ID is sent on a socket that is not open
    obtain ⟨hwhen,hs⟩ := Classical.not_imp.mp hsends
    have hnot : ¬ Sends (s.pass c id) c := fun hsend => hs (sends_pass.mp hsend)
    split
    · exact not_positioned_sendNow (hinv.clearTimer c) hnot now
    · rename_i hf
      rw [if_pos (hwhen.resolve_left hf)]
      exact not_positioned_sendNow hinv hnot now

/-! ## Frames -/

theorem lastRead_storeRead (hid : 0 < id) : (s.storeRead c id).lastRead d =
    if d = c then max (s.lastRead c) id else s.lastRead d := by
  unfold State.storeRead State.lastRead
  dsimp only
  rw [Function.update_apply]
  split
  · cases s.channelReads c with
    | none => exact (max_eq_right hid.le).symm
    | some m => rfl
  · rfl

/-- A frame that is not stored changes nothing but the bucket. -/
theorem markRead_eq {f : ChannelID × MessageID} (hc : 0 < f.1) (hid : 0 < f.2) (now : ℚ) (a b : Bool) :
    s.markRead u f now a b =
      { if Admits u s now a b then s.storeRead f.1 f.2 else s with
        markReadLimiter := (s.markReadLimiter.allow now (toString u)).2 } := by
  have hvalid : ¬ (f.1 ≤ 0 ∨ f.2 ≤ 0) := not_or.mpr ⟨not_le.mpr hc,not_le.mpr hid⟩
  refine (if_neg hvalid).trans ?_
  dsimp only
  by_cases hadm : Admits u s now a b
  · rw [if_pos hadm]
    obtain ⟨hr,rfl,rfl⟩ := hadm
    rw [hr]
    rfl
  · rw [if_neg hadm]
    cases hr : (s.markReadLimiter.allow now (toString u)).1 with
    | false => rfl
    | true =>
      cases a with
      | false => rfl
      | true =>
        cases b with
        | false => exact absurd ⟨hr,rfl,rfl⟩ hadm
        | true => rfl

theorem lastRead_markRead {f : ChannelID × MessageID} (hc : 0 < f.1) (hid : 0 < f.2) (now : ℚ)
    (a b : Bool) : (s.markRead u f now a b).lastRead d =
      if d = f.1 ∧ Admits u s now a b then max (s.lastRead d) f.2 else s.lastRead d := by
  rw [markRead_eq hc hid]
  change State.lastRead (if Admits u s now a b then s.storeRead f.1 f.2 else s) d = _
  by_cases ha : Admits u s now a b
  · rw [if_pos ha,lastRead_storeRead hid]
    by_cases hd : d = f.1
    · rw [if_pos hd,if_pos ⟨hd,ha⟩,hd]
    · rw [if_neg hd,if_neg (fun h => hd h.1)]
  · rw [if_neg ha,if_neg (fun h => ha h.2)]

theorem markRead_fields {f : ChannelID × MessageID} (hc : 0 < f.1) (hid : 0 < f.2) (now : ℚ) (a b : Bool) :
    (s.markRead u f now a b).pendingByChannel = s.pendingByChannel ∧
    (s.markRead u f now a b).lastSentByChannel = s.lastSentByChannel ∧
    (s.markRead u f now a b).timerByChannel = s.timerByChannel ∧
    (s.markRead u f now a b).inFlight = s.inFlight ∧
    (s.markRead u f now a b).passed = s.passed := by
  rw [markRead_eq hc hid]
  by_cases ha : Admits u s now a b
  · rw [if_pos ha]
    exact ⟨rfl,rfl,rfl,rfl,rfl⟩
  · rw [if_neg ha]
    exact ⟨rfl,rfl,rfl,rfl,rfl⟩

/-- Fewer frames are under way. -/
theorem Inv.sublist (h : Inv r s) {l : List (ChannelID × MessageID)} (hl : l.Sublist s.inFlight) (b : Bool) :
    Inv r { s with isOpen := b, inFlight := l } where
  waiting := h.waiting
  sent := h.sent
  flight f hf := h.flight f (hl.subset hf)
  ordered := h.ordered.sublist hl
  reads := h.reads
  valid := h.valid
  positive := h.positive

/-- A frame that is needed is the greatest, and it is under way once. -/
theorem needed_frame (h : Inv r s) {f : ChannelID × MessageID} (hf : f ∈ s.inFlight)
    (hs : ¬ Spare s f.1 f.2) : f.2 = s.passed f.1 ∧ s.lastRead f.1 < s.passed f.1 ∧
      s.pendingByChannel f.1 ≠ some (s.passed f.1) := by
  obtain ⟨-,-,hsent⟩ := h.flight f hf
  simp only [Spare, not_or, not_lt, not_le] at hs
  have heq : f.2 = s.passed f.1 := le_antisymm (hsent.trans (h.sent f.1)) hs.1
  refine ⟨heq,heq ▸ hs.2,fun hp => ?_⟩
  have hlt := (h.waiting _ _ hp).1
  rw [← heq] at hlt
  exact absurd hsent (not_le.mpr hlt)

theorem Positioned.disconnect {k : ℕ} (hp : Positioned s d)
    (hk : ∀ f ∈ s.inFlight.drop k, Spare s f.1 f.2) :
    Positioned { s with isOpen := false, inFlight := s.inFlight.take k } d := by
  rcases hp with hp | hp | hp
  · exact Or.inl hp
  · rw [← List.take_append_drop k s.inFlight,List.mem_append] at hp
    rcases hp with hp | hp
    · exact Or.inr (Or.inl hp)
    · exact Or.inl ((hk _ hp).resolve_left (lt_irrefl _))
  · exact Or.inr (Or.inr hp)

theorem not_positioned_disconnect (h : Inv r s) {k : ℕ} {f : ChannelID × MessageID}
    (hf : f ∈ s.inFlight.drop k) (hs : ¬ Spare s f.1 f.2) :
    ¬ Positioned { s with isOpen := false, inFlight := s.inFlight.take k } f.1 := by
  obtain ⟨heq,hread,hpend⟩ := needed_frame h (List.mem_of_mem_drop hf) hs
  rintro (hp | hp | hp)
  · exact absurd hp (not_le.mpr hread)
  · have hord := h.ordered
    rw [← List.take_append_drop k s.inFlight,List.pairwise_append] at hord
    have hlt := hord.2.2 _ hp f hf rfl
    exact absurd heq hlt.ne'
  · exact hpend hp

variable {i : ℕ} {f : ChannelID × MessageID} {now : ℚ} {a b : Bool}

theorem handle_fields (h : Inv r s) (hf : s.inFlight[i]? = some f) (u : UserID) (now : ℚ) (a b : Bool) :
    let s' := State.markRead { s with inFlight := s.inFlight.eraseIdx i } u f now a b
    (s'.pendingByChannel = s.pendingByChannel ∧ s'.lastSentByChannel = s.lastSentByChannel ∧
      s'.timerByChannel = s.timerByChannel ∧ s'.inFlight = s.inFlight.eraseIdx i ∧
      s'.passed = s.passed) ∧
    ∀ d, s'.lastRead d =
      if d = f.1 ∧ Admits u s now a b then max (s.lastRead d) f.2 else s.lastRead d := by
  obtain ⟨hc,hid,-⟩ := h.flight f (List.mem_of_getElem? hf)
  exact ⟨markRead_fields hc hid now a b,fun d => lastRead_markRead hc hid now a b⟩

theorem Inv.handle (h : Inv r s) (hf : s.inFlight[i]? = some f) :
    Inv r (State.markRead { s with inFlight := s.inFlight.eraseIdx i } u f now a b) := by
  obtain ⟨⟨hpend,hsent,-,hflight,hpass⟩,hread⟩ := handle_fields h hf u now a b
  have hmem := h.flight f (List.mem_of_getElem? hf)
  have herase := List.eraseIdx_sublist s.inFlight i
  constructor
  case waiting =>
    intro c id hc
    rw [hpend] at hc
    unfold State.lastSent
    rw [hsent,hpass]
    exact h.waiting c id hc
  case sent =>
    intro c
    unfold State.lastSent
    rw [hsent,hpass]
    exact h.sent c
  case flight =>
    intro g hg
    rw [hflight] at hg
    unfold State.lastSent
    rw [hsent]
    exact h.flight g (herase.subset hg)
  case ordered =>
    rw [hflight]
    exact h.ordered.sublist herase
  case reads =>
    intro c
    rw [hread,hpass]
    obtain ⟨hge,hle⟩ := h.reads c
    split
    · rename_i hc
      have hlast : f.2 ≤ s.passed c := hc.1 ▸ hmem.2.2.trans (h.sent f.1)
      exact ⟨le_max_of_le_left hge,max_le hle (le_max_of_le_right hlast)⟩
    · exact ⟨hge,hle⟩
  case valid =>
    intro c hc
    rw [hpend] at hc
    exact h.valid c hc
  case positive =>
    intro c
    unfold State.lastSent
    rw [hsent]
    exact h.positive c

theorem Positioned.handle (h : Inv r s) (hf : s.inFlight[i]? = some f) (hp : Positioned s d)
    (hk : Admits u s now a b ∨ Spare s f.1 f.2) :
    Positioned (State.markRead { s with inFlight := s.inFlight.eraseIdx i } u f now a b) d := by
  obtain ⟨⟨hpend,-,-,hflight,hpass⟩,hread⟩ := handle_fields h hf u now a b
  have hgrow : s.lastRead d ≤ if d = f.1 ∧ Admits u s now a b then max (s.lastRead d) f.2 else s.lastRead d := by
    split
    · exact le_max_left _ _
    · exact le_refl _
  unfold Positioned
  rw [hread,hpass,hflight,hpend]
  rcases hp with hp | hp | hp
  · exact Or.inl (hp.trans hgrow)
  · obtain ⟨j,hj⟩ := List.mem_iff_getElem?.mp hp
    by_cases hji : j = i
    · obtain rfl : f = (d,s.passed d) := Option.some.inj (hf.symm.trans (hji ▸ hj))
      rcases hk with hadm | hlt | hle
      · rw [if_pos ⟨rfl,hadm⟩]
        exact Or.inl (le_max_right _ _)
      · exact absurd hlt (lt_irrefl _)
      · exact Or.inl (hle.trans hgrow)
    · exact Or.inr (Or.inl (List.mem_eraseIdx_iff_getElem?.mpr ⟨j,hji,hj⟩))
  · exact Or.inr (Or.inr hp)

theorem Positioned.of_handle (h : Inv r s) (hf : s.inFlight[i]? = some f)
    (hp : Positioned (State.markRead { s with inFlight := s.inFlight.eraseIdx i } u f now a b) d) :
    Positioned s d := by
  obtain ⟨⟨hpend,-,-,hflight,hpass⟩,hread⟩ := handle_fields h hf u now a b
  have hmem := List.mem_of_getElem? hf
  unfold Positioned at hp
  rw [hread,hpass,hflight,hpend] at hp
  rcases hp with hp | hp | hp
  · split at hp
    · rename_i hd
      rcases le_max_iff.mp hp with hp | hp
      · exact Or.inl hp
      · -- the frame was the greatest ID, under way
        have hle : f.2 ≤ s.passed d := hd.1 ▸ (h.flight f hmem).2.2.trans (h.sent f.1)
        have heq : f = (d,s.passed d) := Prod.ext hd.1.symm (le_antisymm hle hp)
        exact Or.inr (Or.inl (heq ▸ hmem))
    · exact Or.inl hp
  · exact Or.inr (Or.inl ((List.eraseIdx_sublist _ _).subset hp))
  · exact Or.inr (Or.inr hp)

theorem not_positioned_handle (h : Inv r s) (hf : s.inFlight[i]? = some f)
    (hadm : ¬ Admits u s now a b) (hs : ¬ Spare s f.1 f.2) :
    ¬ Positioned (State.markRead { s with inFlight := s.inFlight.eraseIdx i } u f now a b) f.1 := by
  obtain ⟨⟨hpend,-,-,hflight,hpass⟩,hread⟩ := handle_fields h hf u now a b
  obtain ⟨heq,hlt,hnot⟩ := needed_frame h (List.mem_of_getElem? hf) hs
  unfold Positioned
  rw [hread,hpass,hflight,hpend,if_neg (fun hd => hadm hd.2)]
  rintro (hp | hp | hp)
  · exact absurd hp (not_le.mpr hlt)
  · obtain ⟨j,hji,hj⟩ := List.mem_eraseIdx_iff_getElem?.mp hp
    obtain ⟨hil,hi⟩ := List.getElem?_eq_some_iff.mp hf
    obtain ⟨hjl,hj⟩ := List.getElem?_eq_some_iff.mp hj
    have hord := List.pairwise_iff_getElem.mp h.ordered
    rcases Nat.lt_or_gt_of_ne hji with hlt' | hlt'
    · have hcmp := hord j i hjl hil hlt' (by rw [hi,hj])
      rw [hi,hj] at hcmp
      exact absurd heq hcmp.ne'
    · have hcmp := hord i j hil hjl hlt' (by rw [hi,hj])
      rw [hi,hj] at hcmp
      exact absurd heq hcmp.ne
  · exact hnot hp

/-! ## One step -/

variable {e : Event}

theorem step_inv (h : Inv r s) (he : step u s e = some s') : Inv r s' := by
  cases e with
  | markChannelRead c id force now =>
    obtain rfl := Option.some.inj he
    exact h.markChannelRead c id force now
  | timer c now =>
    simp only [step] at he
    split at he
    · obtain rfl := Option.some.inj he
      exact h.flushChannel c now
    · cases he
  | flushChannel c now =>
    obtain rfl := Option.some.inj he
    exact h.flushChannel c now
  | flushAll now =>
    obtain rfl := Option.some.inj he
    exact h.flushAll now
  | connect =>
    obtain rfl := Option.some.inj he
    exact h.sublist (List.Sublist.refl _) true
  | disconnect k =>
    obtain rfl := Option.some.inj he
    exact h.sublist (List.take_sublist _ _) false
  | handle i now a b =>
    simp only [step] at he
    split at he
    · cases he
    · rename_i f hf
      obtain rfl := Option.some.inj he
      exact h.handle hf
  | cleanup now =>
    obtain rfl := Option.some.inj he
    exact ⟨h.waiting,h.sent,h.flight,h.ordered,h.reads,h.valid,h.positive⟩

theorem step_positioned (h : Inv r s) (hp : Positioned s d) (hk : Keeps u s e)
    (he : step u s e = some s') : Positioned s' d := by
  cases e with
  | markChannelRead c id force now =>
    obtain rfl := Option.some.inj he
    exact hp.markChannelRead h hk
  | timer c now =>
    simp only [step] at he
    split at he
    · obtain rfl := Option.some.inj he
      exact Positioned.sendNow (h.clearTimer c) hp hk now
    · cases he
  | flushChannel c now =>
    obtain rfl := Option.some.inj he
    exact Positioned.sendNow (h.clearTimer c) hp hk now
  | flushAll now =>
    obtain rfl := Option.some.inj he
    exact hp.flushAll h hk
  | connect =>
    obtain rfl := Option.some.inj he
    exact hp
  | disconnect k =>
    obtain rfl := Option.some.inj he
    exact hp.disconnect hk
  | handle i now a b =>
    simp only [step] at he
    split at he
    · cases he
    · rename_i f hf
      obtain rfl := Option.some.inj he
      exact hp.handle h hf (hk f hf)
  | cleanup now =>
    obtain rfl := Option.some.inj he
    exact hp

/-- Only the client can bring a position back, by passing another ID. -/
theorem positioned_of_step (h : Inv r s) (he : step u s e = some s') (hm : ¬ e.marks d)
    (hp : Positioned s' d) : Positioned s d := by
  cases e with
  | markChannelRead c id force now =>
    obtain rfl := Option.some.inj he
    exact hp.of_markChannelRead h (fun hd => hm hd.symm)
  | timer c now =>
    simp only [step] at he
    split at he
    · obtain rfl := Option.some.inj he
      have hclear : Positioned (s.clearTimer c) d := hp.of_sendNow (h.clearTimer c)
      exact hclear
    · cases he
  | flushChannel c now =>
    obtain rfl := Option.some.inj he
    have hclear : Positioned (s.clearTimer c) d := Positioned.of_sendNow (h.clearTimer c) hp
    exact hclear
  | flushAll now =>
    obtain rfl := Option.some.inj he
    exact Positioned.of_flushes h hp
  | connect =>
    obtain rfl := Option.some.inj he
    exact hp
  | disconnect k =>
    obtain rfl := Option.some.inj he
    rcases hp with hp | hp | hp
    · exact Or.inl hp
    · exact Or.inr (Or.inl (List.mem_of_mem_take hp))
    · exact Or.inr (Or.inr hp)
  | handle i now a b =>
    simp only [step] at he
    split at he
    · cases he
    · rename_i f hf
      obtain rfl := Option.some.inj he
      exact hp.of_handle h hf
  | cleanup now =>
    obtain rfl := Option.some.inj he
    exact hp

theorem not_positioned_step (h : Inv r s) (he : step u s e = some s') (hk : ¬ Keeps u s e) :
    ∃ c, ¬ Positioned s' c := by
  cases e with
  | markChannelRead c id force now =>
    obtain rfl := Option.some.inj he
    exact ⟨c,not_positioned_markChannelRead h hk⟩
  | timer c now =>
    simp only [step] at he
    split at he
    · obtain rfl := Option.some.inj he
      exact ⟨c,not_positioned_sendNow (h.clearTimer c) hk now⟩
    · cases he
  | flushChannel c now =>
    obtain rfl := Option.some.inj he
    exact ⟨c,not_positioned_sendNow (h.clearTimer c) hk now⟩
  | flushAll now =>
    obtain rfl := Option.some.inj he
    simp only [Keeps, not_forall] at hk
    obtain ⟨c,hc,hs⟩ := hk
    exact ⟨c,not_positioned_flushes h hc hs⟩
  | connect => exact absurd trivial hk
  | disconnect k =>
    obtain rfl := Option.some.inj he
    simp only [Keeps, not_forall] at hk
    obtain ⟨f,hf,hs⟩ := hk
    exact ⟨f.1,not_positioned_disconnect h hf hs⟩
  | handle i now a b =>
    simp only [Keeps, not_forall, not_or] at hk
    obtain ⟨f,hf,hadm,hs⟩ := hk
    have hsome : s.inFlight[i]? = some f := hf
    simp only [step, hsome] at he
    obtain rfl := Option.some.inj he
    exact ⟨f.1,not_positioned_handle h hsome hadm hs⟩
  | cleanup now => exact absurd trivial hk

/-! ## Timers -/

/-- What waits waits for a timer, but for one channel. -/
def TimedBut (s : State) (c : ChannelID) : Prop :=
  ∀ d, d ≠ c → s.pendingByChannel d ≠ none → d ∈ s.timerByChannel

def Timed (s : State) : Prop := ∀ d, s.pendingByChannel d ≠ none → d ∈ s.timerByChannel

theorem Timed.sendNow (h : TimedBut s c) (now : ℤ) : Timed (s.sendNow c now) := by
  intro d hd
  rw [(sendNow_fields now).2.2.2]
  rw [pending_sendNow,Function.update_apply] at hd
  split at hd
  · exact absurd rfl hd
  · rename_i hdc
    exact h d hdc hd

theorem Timed.flushChannel (h : TimedBut s c) (now : ℤ) : Timed (s.flushChannel c now) := by
  refine Timed.sendNow (fun d hdc hd => ?_) now
  have hmem : d ∈ s.timerByChannel := h d hdc hd
  exact List.mem_filter.mpr ⟨hmem,by simpa using hdc⟩

theorem Timed.startTimer (h : TimedBut s c) : Timed (s.startTimer c) := by
  intro d hd
  rcases startTimer_cases s c with ⟨heq,hc⟩ | heq
  · rw [heq] at hd ⊢
    by_cases hdc : d = c
    · rwa [hdc]
    · exact h d hdc hd
  · rw [heq] at hd ⊢
    by_cases hdc : d = c
    · exact List.mem_append_right _ (List.mem_singleton.mpr hdc)
    · exact List.mem_append_left _ (h d hdc hd)

theorem Timed.flushes (h : Timed s) (l : List ChannelID) (now : ℤ) :
    Timed (l.foldl (fun s c => s.flushChannel c now) s) := by
  induction l generalizing s with
  | nil => exact h
  | cons c l ih => exact ih (Timed.flushChannel (fun d _ hd => h d hd) now)

theorem step_timed (h : Inv r s) (ht : Timed s) (he : step u s e = some s') : Timed s' := by
  cases e with
  | markChannelRead c id force now =>
    obtain rfl := Option.some.inj he
    by_cases hn : 0 < c ∧ 0 < id ∧ s.lastSent c < id
    · obtain ⟨hc,hid,hlt⟩ := hn
      have hbut : TimedBut (s.pass c id) c := by
        intro d hdc hd
        rw [pending_pass,if_neg hdc] at hd
        exact ht d hd
      rw [markChannelRead_new hc hid hlt]
      split
      · exact Timed.flushChannel hbut now
      · split
        · exact Timed.sendNow hbut now
        · exact Timed.startTimer hbut
    · rwa [markChannelRead_idle h hn]
  | timer c now =>
    simp only [step] at he
    split at he
    · obtain rfl := Option.some.inj he
      exact Timed.flushChannel (fun d _ hd => ht d hd) now
    · cases he
  | flushChannel c now =>
    obtain rfl := Option.some.inj he
    exact Timed.flushChannel (fun d _ hd => ht d hd) now
  | flushAll now =>
    obtain rfl := Option.some.inj he
    exact ht.flushes _ now
  | connect =>
    obtain rfl := Option.some.inj he
    exact ht
  | disconnect k =>
    obtain rfl := Option.some.inj he
    exact ht
  | handle i now a b =>
    simp only [step] at he
    split at he
    · cases he
    · rename_i f hf
      obtain rfl := Option.some.inj he
      obtain ⟨⟨hpend,-,htimer,-⟩,-⟩ := handle_fields h hf u now a b
      intro d hd
      rw [hpend] at hd
      rw [htimer]
      exact ht d hd
  | cleanup now =>
    obtain rfl := Option.some.inj he
    exact ht

/-! ## The table -/

theorem channelReads_flushes (s : State) (l : List ChannelID) (now : ℤ) :
    (l.foldl (fun s c => s.flushChannel c now) s).channelReads = s.channelReads := by
  induction l generalizing s with
  | nil => rfl
  | cons c l ih =>
    rw [List.foldl_cons,ih]
    exact (sendNow_fields now).2.2.1

theorem channelReads_markChannelRead (h : Inv r s) (c : ChannelID) (id : MessageID) (force : Bool)
    (now : ℤ) : (s.markChannelRead c id force now).channelReads = s.channelReads := by
  by_cases hn : 0 < c ∧ 0 < id ∧ s.lastSent c < id
  · obtain ⟨hc,hid,hlt⟩ := hn
    rw [markChannelRead_new hc hid hlt]
    split
    · exact (sendNow_fields now).2.2.1
    · split
      · exact (sendNow_fields now).2.2.1
      · rcases startTimer_cases (s.pass c id) c with ⟨heq,-⟩ | heq <;> rw [heq] <;> rfl
  · rw [markChannelRead_idle h hn]

/-- The table never goes back. -/
theorem lastRead_step (h : Inv r s) (he : step u s e = some s') (c : ChannelID) :
    s.lastRead c ≤ s'.lastRead c := by
  have hsame : s'.channelReads = s.channelReads → s.lastRead c ≤ s'.lastRead c := by
    intro heq
    unfold State.lastRead
    rw [heq]
  cases e with
  | markChannelRead d id force now =>
    obtain rfl := Option.some.inj he
    exact hsame (channelReads_markChannelRead h d id force now)
  | timer d now =>
    simp only [step] at he
    split at he
    · obtain rfl := Option.some.inj he
      exact hsame (sendNow_fields now).2.2.1
    · cases he
  | flushChannel d now =>
    obtain rfl := Option.some.inj he
    exact hsame (sendNow_fields now).2.2.1
  | flushAll now =>
    obtain rfl := Option.some.inj he
    exact hsame (channelReads_flushes s _ now)
  | connect =>
    obtain rfl := Option.some.inj he
    exact hsame rfl
  | disconnect k =>
    obtain rfl := Option.some.inj he
    exact hsame rfl
  | handle i now a b =>
    simp only [step] at he
    split at he
    · cases he
    · rename_i f hf
      obtain rfl := Option.some.inj he
      rw [(handle_fields h hf u now a b).2 c]
      split
      · exact le_max_left _ _
      · exact le_refl _
  | cleanup now =>
    obtain rfl := Option.some.inj he
    exact hsame rfl

/-! ## Runs -/

/-- While no step drops an ID that is needed, the position is the greatest ID passed as soon
as no timer runs and nothing is under way. A step that drops one loses the position, until
another ID is passed. The position never goes back. -/
theorem read_positions {es : List Event} (h0 : ∀ c, 0 ≤ (r c).getD 0)
    (h : RunsWhen (step u) (Keeps u) (start r) es s) :
    (s.timerByChannel = [] → s.inFlight = [] → ∀ c, s.lastRead c = max ((r c).getD 0) (s.passed c)) ∧
    (∀ e s', step u s e = some s' → ¬ Keeps u s e → ∃ c, ∀ fs t,
      RunsWhen (step u) (fun _ e => ¬ e.marks c) s' fs t → t.lastRead c < t.passed c) ∧
    ∀ fs gs t t', Runs (step u) (start r) fs t → Runs (step u) t gs t' →
      ∀ c, t.lastRead c ≤ t'.lastRead c := by
  obtain ⟨hinv,htimed,hpos⟩ : Inv r s ∧ Timed s ∧ ∀ c, Positioned s c := by
    refine h.invariant (P := fun s => Inv r s ∧ Timed s ∧ ∀ c, Positioned s c)
      ⟨inv_start,fun _ hd => absurd rfl hd,fun c => Or.inl (h0 c)⟩ ?_
    rintro s s' e ⟨hi,ht,hp⟩ hk he
    exact ⟨step_inv hi he,step_timed hi ht he,fun c => step_positioned hi (hp c) hk he⟩
  refine ⟨fun htimer hflight c => ?_,fun e s' he hk => ?_,fun fs gs t t' ht ht' c => ?_⟩
  · have hnone : s.pendingByChannel c = none := by
      by_contra hsome
      have hmem := htimed c hsome
      rw [htimer] at hmem
      cases hmem
    have hle : s.passed c ≤ s.lastRead c := by
      rcases hpos c with hp | hp | hp
      · exact hp
      · rw [hflight] at hp
        cases hp
      · rw [hnone] at hp
        cases hp
    exact le_antisymm (hinv.reads c).2 (max_le (hinv.reads c).1 hle)
  · obtain ⟨c,hc⟩ := not_positioned_step hinv he hk
    refine ⟨c,fun fs t hfs => ?_⟩
    obtain ⟨-,hlost⟩ := hfs.invariant (P := fun s => Inv r s ∧ ¬ Positioned s c)
      ⟨step_inv hinv he,hc⟩
      (fun h hm he => ⟨step_inv h.1 he,fun hp => h.2 (positioned_of_step h.1 he hm hp)⟩)
    exact not_le.mp (fun hle => hlost (Or.inl hle))
  · have hit : Inv r t := ht.invariant inv_start (fun h _ he => step_inv h he)
    exact (ht'.invariant (P := fun t' => Inv r t' ∧ t.lastRead c ≤ t'.lastRead c) ⟨hit,le_refl _⟩
      (fun h _ he => ⟨step_inv h.1 he,h.2.trans (lastRead_step h.1 he c)⟩)).2

/-- Two IDs of one channel, the second of which waits for the timer. -/
def marksTwice : List Event :=
  [.connect, .markChannelRead 5 10 false 5000, .markChannelRead 5 12 false 5500, .timer 5 7000,
   .handle 1 3 true false, .handle 0 4 true false]

theorem read_positions_marksTwice :
    (after (step 1) (start (fun _ => none)) marksTwice).lastRead 5 = max 0 12 := by
  have hrun : RunsWhen (step 1) (Keeps 1) (start (fun _ => none)) marksTwice
      (after (step 1) (start (fun _ => none)) marksTwice) := runsWhen_after (by decide +kernel)
  have hpos := (read_positions (fun _ => le_refl _) hrun).1 (by decide +kernel) (by decide +kernel) 5
  have hpassed : (after (step 1) (start (fun _ => none)) marksTwice).passed 5 = 12 := by
    decide +kernel
  rwa [hpassed] at hpos

/-- The ID is passed while there is no connection, and again when there is one. -/
def marksOffline : List Event :=
  [.markChannelRead 5 10 false 5000, .connect, .markChannelRead 5 10 true 9000]

theorem read_position_lost : ∃ s, Runs (step 1) (start (fun _ => none)) marksOffline s ∧
    s.isOpen = true ∧ s.timerByChannel = [] ∧ s.inFlight = [] ∧ s.passed 5 = 10 ∧ s.lastRead 5 = 0 :=
  ⟨after (step 1) (start (fun _ => none)) marksOffline,runs_after (by decide +kernel),
    by decide +kernel⟩

end MiniDiscord.MarkRead
