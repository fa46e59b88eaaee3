import MiniDiscord.Sfu.PairedSubscriptions
import MiniDiscord.Sfu.Announcements
import MiniDiscord.Sfu.InitialOffer
import MiniDiscord.Sfu.RouterMembership

/-! # Everyone hears everyone

A microphone reaches another peer from two sides: the publisher's `OnTrack` asks whoever
is in the room by then, and a newcomer scans what is published already. Subscriptions are
kept by user and source, so what is left of the publisher's earlier session may stand in
the way of the new one, or take it along.
-/
namespace MiniDiscord.SfuMedia
open SfuRoom SfuTrack SfuPeer Transition
open SfuRouter (RoomRef CallID)

/-- The current microphone track of a session. -/
def State.micOf (s : State) (p : SessionID) (k : TrackRef) : Prop :=
  (s.peers p).published.lookup SourceMic = some k ∧ (s.tracks k).kind = .audio

/-- Every negotiated peer is subscribed to the microphone of every other peer of its room:
the peer has the subscription, and the track forwards to it. -/
def EveryoneHears (s : State) : Prop :=
  ∀ x ∈ s.router.peers, ∀ p ∈ s.router.peers, x ≠ p → s.answered x = true →
    (s.peers x).channelID = (s.peers p).channelID → ∀ k, s.micOf p k →
      (s.peers x).subs.lookup ⟨(s.peers p).userID,SourceMic⟩ = some k ∧
        (s.peers x).userID ∈ (s.tracks k).subs

/-- The microphone track of a live session. -/
def State.liveMic (s : State) (k : TrackRef) : Prop :=
  (s.tracks k).source = SourceMic ∧ (s.tracks k).kind = .audio ∧ (s.tracks k).owner ∈ s.router.peers

/-- The subscription that the next section of `sid` drops. -/
def State.dropping (s : State) (sid : SessionID) : Option SubKey :=
  let p := s.peers sid
  match p.cont with
  | .idle =>
    match p.commands with
    | .doUnsubscribe u source :: _ => some ⟨u,source⟩
    | _ => none
  | .closeSubs (key :: _) => some key
  | _ => none

/-- The session whose queue the next section of `sid` appends to. -/
def State.asking (s : State) (sid : SessionID) : Option SessionID :=
  match (s.peers sid).cont with
  | .subscribeOthers _ (o :: _) => some o
  | .closeSubscribers _ (u :: _) _ => (s.roomOf sid).peerByUserID u
  | _ => none

def queued : Call → Option SessionID
  | .enqueue sid _ => some sid
  | _ => none

/-- A task for the session is not dropped by a full queue. -/
def State.takesTask (s : State) (x : SessionID) : Bool :=
  (s.peers x).stopped || decide ((s.peers x).commands.length < commandsCap)

/-- No queue overflows and every Pion call succeeds. -/
def Smooth (s : State) : Event → Prop
  | .run sid c => c.pc = {} ∧ ∀ y ∈ s.asking sid, s.takesTask y = true
  | .proceed t => ∀ y ∈ queued (s.calls t), s.takesTask y = true
  | .onTrack sid _ _ _ _ => s.takesTask sid = true
  | .adminSnapshot sid => s.takesTask sid = true
  | .router (.peerClose t) => ∀ p ∈ leaver (s.router.calls t), s.takesTask p.sessionID = true
  | _ => True

/-- A room's slot is not taken from a live session, nor its room from under it. -/
def KeepsSeats (s : State) : SfuRouter.Event → Prop
  | .roomAdd t => ∀ p ∈ (s.router.calls t).joining,
      ∀ y ∈ (s.router.heap p.room).peerByUserID p.userID, y ∉ s.router.peers
  | .roomRemove t => ∀ pr ∈ (s.router.calls t).leaving,
      ∀ y ∈ (s.router.heap pr.2).peerByUserID pr.1.userID, y ∉ s.router.peers
  | .recheck t => ∀ pr ∈ (s.router.calls t).leaving, (s.router.heap pr.2).isEmpty = true →
      ∀ y ∈ s.router.peers.keys, (s.peers y).room ≠ pr.2
  | _ => True

/-- What a section of a live session subscribes to has its key to itself, and no section
drops the subscription of a live session to a live microphone. -/
def KeepsMics (s : State) (sid : SessionID) : Prop :=
  (sid ∈ s.router.peers → ∀ r ∈ s.subscribing sid, s.liveMic r.2 →
    ∀ k ∈ (s.peers sid).subs.lookup ⟨r.1,SourceMic⟩, k = r.2) ∧
  ∀ key ∈ s.dropping sid, ∀ k ∈ (s.peers sid).subs.lookup key, s.liveMic k →
    ∀ x ∈ s.router.peers.keys, (s.peers x).userID = (s.peers sid).userID →
      (s.peers x).subs.lookup key ≠ some k

/-- Besides, a session offers once it is in its room. -/
def Audible (s : State) (e : Event) : Prop :=
  Smooth s e ∧ match e with
  | .router re => KeepsSeats s re
  | .request _ sid (.handleOffer _) => s.seated sid = true
  | .run sid _ => KeepsMics s sid
  | _ => True

instance (s : State) (k : TrackRef) : Decidable (s.liveMic k) := by
  unfold State.liveMic
  infer_instance

instance (s : State) (e : Event) : Decidable (Smooth s e) :=
  match e with
  | .run .. | .proceed _ | .onTrack .. | .adminSnapshot _ | .router (.peerClose _) => by
    unfold Smooth
    infer_instance
  | .router (.join ..) | .router (.roomAdd _) | .router (.leave ..) | .router (.roomRemove _)
  | .router (.removeUser _) | .router (.isEmpty _) | .router (.recheck _) | .router (.markLoud ..)
  | .router (.sweep ..) | .request .. => instDecidableTrue

instance (s : State) (re : SfuRouter.Event) : Decidable (KeepsSeats s re) := by
  unfold KeepsSeats
  split <;> infer_instance

instance (s : State) (sid : SessionID) : Decidable (KeepsMics s sid) := by
  unfold KeepsMics
  infer_instance

instance (s : State) (e : Event) : Decidable (Audible s e) :=
  match e with
  | .router _ | .run .. | .proceed _ | .onTrack .. | .adminSnapshot _
  | .request _ _ (.handleOffer _) | .request _ _ .handleAnswer | .request _ _ .handleCandidate
  | .request _ _ (.subscribeVideo ..) | .request _ _ (.setPublishState ..) | .request _ _ .detach
  | .request _ _ .resume => by
    unfold Audible
    infer_instance

/-- The listener is subscribed to track `k` of `p`, or has yet to come to it. -/
def Reaching (w : Wiring) (u : UserID) (p : SessionID) (k : TrackRef) : Prop :=
  w.subs.lookup ⟨u,SourceMic⟩ = some k ∨ (∃ q, .doSubscribe u k q ∈ w.commands) ∨
  w.cont = .autoSubscribeToExisting ∨ (∃ os, w.cont = .autoSubscribePeers os ∧ p ∈ os) ∨
  ∃ v pubs os, w.cont = .autoSubscribeTracks v pubs os ∧ (p ∈ os ∨ (v = u ∧ k ∈ pubs))

/-- The publisher's `OnTrack` has yet to ask the listener `x`. -/
def Notifying (w : Wiring) (k : TrackRef) (x : SessionID) : Prop :=
  (∃ rid codec, w.cont = .addLayer k rid codec false) ∨ w.cont = .announce k ∨
  w.cont = .notifyOthers k ∨ ∃ os, w.cont = .subscribeOthers k os ∧ x ∈ os

/-- The listener `x` is to hear the track `k` of `p`. -/
structure Audience (s : State) (x p : SessionID) (k : TrackRef) : Prop where
  listener : x ∈ s.router.peers
  speaker : p ∈ s.router.peers
  ne : x ≠ p
  answered : .answer (s.wire x).userID (s.wire x).sessionID ∈ s.signals
  channelID : (s.wire x).channelID = (s.wire p).channelID
  published : (s.wire p).published.lookup SourceMic = some k
  kind : (s.link k).kind = .audio

structure Hearing (s : State) : Prop where
  seats : ∀ x ∈ s.router.peers, s.started x → s.seated x = true
  listed : ∀ x ∈ s.router.peers, ∀ key k, (s.wire x).subs.lookup key = some k → s.liveMic k →
    (s.wire x).userID ∈ (s.link k).users
  linked : ∀ x p k, Audience s x p k →
    Reaching (s.wire x) (s.wire p).userID p k ∨ Notifying (s.wire p) k x

variable {s s' : State} {e : Event} {sid x p : SessionID} {c : Choice} {E : Effect}

/-- Program points between the first packet of a track and the last task it puts on a queue. -/
def notifies : Cont → Bool
  | .addLayer _ _ _ _ => true
  | .announce _ => true
  | .notifyOthers _ => true
  | .subscribeOthers _ _ => true
  | _ => false

theorem mem_audioTracks_of {o : SessionID} {sources : List Source} {source : Source} {k : TrackRef}
    (hr : s.rangesPublished o sources = true)
    (hk : (s.wire o).published.lookup source = some k) (ha : (s.tracks k).kind = .audio) :
    k ∈ s.audioTracks o sources :=
  List.mem_map.mpr ⟨(source,k),List.mem_filter.mpr ⟨mem_publishedTracks_of hr hk,decide_eq_true ha⟩,rfl⟩

section Sections
variable (h : Section s sid c E)
include h

/-- A subscription stays until a section drops it. -/
theorem Section.keeps_sub {key : SubKey} {k : TrackRef}
    (hk : (s.wire sid).subs.lookup key = some k) :
    E.wire.subs.lookup key = some k ∨ s.dropping sid = some key := by
  have herase : ∀ {key'}, s.dropping sid = some key' →
      ((s.wire sid).subs.erase key').lookup key = some k ∨ s.dropping sid = some key := by
    intro key' hd
    rw [GoMap.lookup_erase_eq]
    split
    · rename_i he
      rw [he]
      exact Or.inr hd
    · exact Or.inl hk
  cases h with
  | resubscribe hs => left; rw [← hk,← hs.subs]; rfl
  | noLocal hs => left; rw [← hk,← hs.subs]; rfl
  | notAdded hs => left; rw [← hk,← hs.subs]
  | subscribe hs hn =>
    left
    rw [GoMap.lookup_insert_eq,if_neg]
    · exact hk
    · rintro rfl
      exact hn (Finmap.mem_iff.mpr ⟨k,hk⟩)
  | unsubscribe hc hq =>
    have hc' : (s.peers sid).cont = .idle := hc
    have hq' : (s.peers sid).commands = _ := hq
    exact herase (by simp only [State.dropping, hc', hq'])
  | closeSub hc =>
    have hc' : (s.peers sid).cont = _ := hc
    exact herase (by simp only [State.dropping, hc'])
  | _ => exact Or.inl hk

/-- When nothing fails, whoever is next to subscribe holds the key afterwards. -/
theorem Section.subscribed (hpc : c.pc = {}) {u : UserID} {k : TrackRef} {w : Wiring}
    (hs : Subscribes (s.wire sid) u k w) :
    (∃ k', (s.wire sid).subs.lookup ⟨u,(s.link k).source⟩ = some k' ∧
      E.wire.subs.lookup ⟨u,(s.link k).source⟩ = some k') ∨
    E.wire.subs.lookup ⟨u,(s.link k).source⟩ = some k := by
  have hnext := subscribing_eq hs
  have hsame : ∀ {u' k' w'}, Subscribes (s.wire sid) u' k' w' → u' = u ∧ k' = k := by
    intro u' k' w' hs'
    have he := subscribing_eq hs'
    rw [hnext] at he
    cases he
    exact ⟨rfl,rfl⟩
  have hcont : ∀ {k₀ : Cont} {P : Prop}, (s.wire sid).cont = k₀ → k₀ ≠ .idle →
      (∀ u pub pubs os, k₀ ≠ .autoSubscribeTracks u (pub :: pubs) os) →
      (∀ u pub q, k₀ ≠ .subscribeVideo u pub q) → P := by
    intro k₀ P hk h1 h2 h3
    cases hs with
    | task hc => exact absurd (hk.symm.trans hc) h1
    | existing hc => exact absurd (hk.symm.trans hc) (h2 _ _ _ _)
    | video hc => exact absurd (hk.symm.trans hc) (h3 _ _ _)
  have htask : ∀ {fn : Task} {rest : List Task} {P : Prop}, (s.wire sid).cont = .idle →
      (s.wire sid).commands = fn :: rest → (∀ u pub q, fn ≠ .doSubscribe u pub q) → P := by
    intro fn rest P hi hq hn
    cases hs with
    | task _ hq' =>
      rw [hq] at hq'
      cases hq'
      exact absurd rfl (hn _ _ _)
    | existing hc => exact absurd (hi.symm.trans hc) (by simp)
    | video hc => exact absurd (hi.symm.trans hc) (by simp)
  cases h with
  | move hm =>
    generalize hk : (s.wire sid).cont = k₀ at hm
    cases hm <;> exact hcont hk (by simp) (by simp) (by simp)
  | take hi hq _ ht =>
    refine htask hi hq ?_
    rintro u pub q rfl
    cases ht with
    | talk hf => cases hf
  | offered hi hq => exact htask hi hq (by simp)
  | offerFailed hi hq => exact htask hi hq (by simp)
  | publish hi hq => exact htask hi hq (by simp)
  | unsubscribe hi hq => exact htask hi hq (by simp)
  | close hi hq => exact htask hi hq (by simp)
  | closeSub hk => exact hcont hk (by simp) (by simp) (by simp)
  | subscribeOther hk => exact hcont hk (by simp) (by simp) (by simp)
  | closeSubscriber hk => exact hcont hk (by simp) (by simp) (by simp)
  | noLocal _ _ hp => exact absurd hpc hp
  | notAdded _ _ hp => exact absurd hpc hp
  | resubscribe hs' hm =>
    obtain ⟨rfl,rfl⟩ := hsame hs'
    obtain ⟨k',hk'⟩ := Finmap.mem_iff.mp hm
    refine Or.inl ⟨k',hk',?_⟩
    rw [← hk',← hs'.subs]
    rfl
  | subscribe hs' =>
    obtain ⟨rfl,rfl⟩ := hsame hs'
    exact Or.inr (Finmap.lookup_insert _)

/-- A `doSubscribe` is taken off the queue to be run. -/
theorem Section.doSubscribe {u : UserID} {k : TrackRef} {q : Quality}
    (hm : .doSubscribe u k q ∈ (s.wire sid).commands) :
    .doSubscribe u k q ∈ E.wire.commands ∨ ∃ w, Subscribes (s.wire sid) u k w := by
  have htail : ∀ {fn : Task} {rest : List Task}, (s.wire sid).commands = fn :: rest →
      fn ≠ .doSubscribe u k q → .doSubscribe u k q ∈ rest := by
    intro fn rest hq hne
    rw [hq] at hm
    exact (List.mem_cons.mp hm).resolve_left (fun he => hne he.symm)
  have hsub : ∀ {u' k' w}, Subscribes (s.wire sid) u' k' w →
      .doSubscribe u k q ∈ w.commands ∨ ∃ w, Subscribes (s.wire sid) u k w := by
    intro u' k' w hs
    cases hs with
    | task hc hq h0 =>
      rw [hq] at hm
      rcases List.mem_cons.mp hm with he | hm
      · cases he
        exact Or.inr ⟨_,.task hc hq h0⟩
      · exact Or.inl hm
    | existing => exact Or.inl hm
    | video => exact Or.inl hm
  cases h with
  | take _ hq _ ht =>
    left
    refine htail hq ?_
    rintro rfl
    cases ht with
    | talk hf => cases hf
  | offered _ hq => exact Or.inl (htail hq (by simp))
  | offerFailed _ hq => exact Or.inl (htail hq (by simp))
  | publish _ hq => exact Or.inl (htail hq (by simp))
  | unsubscribe _ hq => exact Or.inl (htail hq (by simp))
  | close _ hq => exact Or.inl (htail hq (by simp))
  | resubscribe hs => exact hsub hs
  | noLocal hs => exact hsub hs
  | notAdded hs => exact hsub hs
  | subscribe hs =>
    have hw := hsub hs
    exact hw
  | _ => exact Or.inl hm

/-- The listener's own section keeps its way to the microphone open, and a track it comes
to is subscribed to. -/
theorem Section.reaching (hpc : c.pc = {}) (hk : KeepsMics s sid) (hsid : sid ∈ s.router.peers)
    {k : TrackRef} (hlive : s.liveMic k) (hmic : (s.wire p).published.lookup SourceMic = some k)
    (hothers : ∀ os, s.others sid c.users = some os → p ∈ os)
    (hold : Reaching (s.wire sid) (s.wire p).userID p k) :
    Reaching E.wire (s.wire p).userID p k := by
  have hsource : (s.link k).source = SourceMic := hlive.1
  have hsub : ∀ {w}, Subscribes (s.wire sid) (s.wire p).userID k w →
      Reaching E.wire (s.wire p).userID p k := by
    intro w hs
    left
    have hdone := h.subscribed hpc hs
    rw [hsource] at hdone
    rcases hdone with ⟨k',h1,h2⟩ | h2
    · rw [h2,hk.1 hsid _ (subscribing_eq hs) hlive k' h1]
    · exact h2
  rcases hold with h1 | ⟨q,h2⟩ | h3 | ⟨os,h4,hp⟩ | ⟨v,pubs,os,h5,hp⟩
  · rcases h.keeps_sub h1 with hkeep | hd
    · exact Or.inl hkeep
    · exact absurd h1 (hk.2 _ hd k h1 hlive sid (Finmap.mem_keys.mpr hsid) rfl)
  · rcases h.doSubscribe h2 with hm | ⟨w,hs⟩
    · exact Or.inr (Or.inl ⟨q,hm⟩)
    · exact hsub hs
  · rcases h.scanning (by rw [h3]; rfl) with ⟨k',new,hm,hw⟩ | ⟨u,pub,w,hs,-⟩
    · rw [h3] at hm
      cases hm with
      | scanRoom ho =>
        rw [hw]
        exact Or.inr (Or.inr (Or.inr (Or.inl ⟨_,rfl,hothers _ ho⟩)))
    · cases hs with
      | task hc => exact absurd (h3.symm.trans hc) (by simp)
      | existing hc => exact absurd (h3.symm.trans hc) (by simp)
      | video hc => exact absurd (h3.symm.trans hc) (by simp)
  · rcases h.scanning (by rw [h4]; rfl) with ⟨k',new,hm,hw⟩ | ⟨u,pub,w,hs,-⟩
    · rw [h4] at hm
      cases hm with
      | scanned => cases hp
      | @scanPeer o os hr =>
        rw [hw]
        right
        right
        right
        right
        refine ⟨_,_,_,rfl,?_⟩
        rcases List.mem_cons.mp hp with rfl | hp
        · exact Or.inr ⟨rfl,mem_audioTracks_of hr hmic hlive.2.1⟩
        · exact Or.inl hp
    · cases hs with
      | task hc => exact absurd (h4.symm.trans hc) (by simp)
      | existing hc => exact absurd (h4.symm.trans hc) (by simp)
      | video hc => exact absurd (h4.symm.trans hc) (by simp)
  · rcases h.scanning (by rw [h5]; rfl) with ⟨k',new,hm,hw⟩ | ⟨u,pub,w,hs,hw⟩
    · rw [h5] at hm
      cases hm with
      | peerScanned =>
        rw [hw]
        refine Or.inr (Or.inr (Or.inr (Or.inl ⟨_,rfl,?_⟩)))
        exact hp.resolve_right (fun hn => nomatch hn.2)
    · cases hs with
      | task hc => exact absurd (h5.symm.trans hc) (by simp)
      | video hc => exact absurd (h5.symm.trans hc) (by simp)
      | existing hc =>
        have hc' := h5.symm.trans hc
        cases hc'
        by_cases hnow : v = (s.wire p).userID ∧ pub = k
        · obtain ⟨rfl,rfl⟩ := hnow
          exact hsub (.existing hc)
        · rw [hw]
          right
          right
          right
          right
          refine ⟨_,_,_,rfl,hp.imp_right (fun hn => ⟨hn.1,?_⟩)⟩
          refine (List.mem_cons.mp hn.2).resolve_left ?_
          rintro rfl
          exact hnow ⟨hn.1,rfl⟩

/-- The publisher's own section comes closer to the listener, or asks it. -/
theorem Section.notifying {k : TrackRef} (ha : (s.link k).kind = .audio)
    (hothers : ∀ os, s.others sid c.users = some os → x ∈ os)
    (hold : Notifying (s.wire sid) k x) :
    Notifying E.wire k x ∨ E.ask = some (x,.doSubscribe (s.wire sid).userID k .high) := by
  have hcont : notifies (s.wire sid).cont = true := by
    rcases hold with ⟨rid,codec,h1⟩ | h2 | h3 | ⟨os,h4,-⟩
    · rw [h1]; rfl
    · rw [h2]; rfl
    · rw [h3]; rfl
    · rw [h4]; rfl
  have hno : ∀ {k₀ : Cont} {P : Prop}, (s.wire sid).cont = k₀ → notifies k₀ = false → P := by
    intro k₀ P hk hn
    rw [hk,hn] at hcont
    cases hcont
  have hsub : ∀ {u k' w} {P : Prop}, Subscribes (s.wire sid) u k' w → P := by
    intro u k' w P hs
    cases hs with
    | task hc => exact hno hc rfl
    | existing hc => exact hno hc rfl
    | video hc => exact hno hc rfl
  cases h with
  | move hm =>
    left
    rcases hold with ⟨rid,codec,h1⟩ | h2 | h3 | ⟨os,h4,hx⟩
    · rw [h1] at hm
      cases hm with
      | trackAdded => exact Or.inr (Or.inl rfl)
    · rw [h2] at hm
      cases hm with
      | announce =>
        have ha' : (s.tracks k).kind = .audio := ha
        rw [if_pos ha']
        exact Or.inr (Or.inr (Or.inl rfl))
    · rw [h3] at hm
      cases hm with
      | notifyRoom ho => exact Or.inr (Or.inr (Or.inr ⟨_,rfl,hothers _ ho⟩))
    · rw [h4] at hm
      cases hm with
      | notified => cases hx
  | subscribeOther hc =>
    rcases hold with ⟨rid,codec,h1⟩ | h2 | h3 | ⟨os,h4,hx⟩
    · exact absurd (h1.symm.trans hc) (by simp)
    · exact absurd (h2.symm.trans hc) (by simp)
    · exact absurd (h3.symm.trans hc) (by simp)
    · have hc' := h4.symm.trans hc
      cases hc'
      rcases List.mem_cons.mp hx with rfl | hx
      · exact Or.inr rfl
      · exact Or.inl (Or.inr (Or.inr (Or.inr ⟨_,rfl,hx⟩)))
  | resubscribe hs => exact hsub hs
  | noLocal hs => exact hsub hs
  | notAdded hs => exact hsub hs
  | subscribe hs => exact hsub hs
  | take hk => exact hno hk rfl
  | offered hk => exact hno hk rfl
  | offerFailed hk => exact hno hk rfl
  | publish hk => exact hno hk rfl
  | unsubscribe hk => exact hno hk rfl
  | close hk => exact hno hk rfl
  | closeSub hk => exact hno hk rfl
  | closeSubscriber hk => exact hno hk rfl

theorem Section.asking {y : SessionID} {fn : Task} (ha : E.ask = some (y,fn)) :
    s.asking sid = some y := by
  cases h with
  | subscribeOther hc =>
    cases ha
    have hc' : (s.peers sid).cont = _ := hc
    simp only [State.asking, hc']
  | closeSubscriber hc hy =>
    cases ha
    have hc' : (s.peers sid).cont = _ := hc
    have hy' : (s.roomOf sid).peerByUserID _ = some y := hy
    simp only [State.asking, hc', hy']
  | _ => cases ha

/-- A track forgets a subscriber when the subscriber drops it. -/
theorem Section.forgets (hpc : c.pc = {}) {k : TrackRef} (hk : k < s.nextTrack) {v : UserID}
    (hv : v ∈ (s.link k).users) : v ∈ (E.links k).users ∨
      (v = (s.wire sid).userID ∧ ∃ key, s.dropping sid = some key ∧
        (s.wire sid).subs.lookup key = some k) := by
  have hremove : ∀ {pub key}, s.dropping sid = some key → (s.wire sid).subs.lookup key = some pub →
      v ∈ (Function.update s.link pub ((s.link pub).remove (s.wire sid).userID) k).users ∨
        (v = (s.wire sid).userID ∧ ∃ key, s.dropping sid = some key ∧
          (s.wire sid).subs.lookup key = some k) := by
    intro pub key hd hl
    by_cases hkp : k = pub
    · subst hkp
      rw [Function.update_self]
      by_cases hu : v = (s.wire sid).userID
      · exact Or.inr ⟨hu,key,hd,hl⟩
      · exact Or.inl (Finset.mem_erase.mpr ⟨hu,hv⟩)
    · rw [Function.update_of_ne hkp]
      exact Or.inl hv
  cases h with
  | notAdded _ _ hp => exact absurd hpc hp
  | publish =>
    dsimp only
    rw [Function.update_of_ne (Nat.ne_of_lt hk)]
    exact Or.inl hv
  | @subscribe u pub =>
    left
    by_cases hkp : k = pub
    · subst hkp
      dsimp only
      rw [Function.update_self]
      exact Finset.mem_insert_of_mem hv
    · dsimp only
      rw [Function.update_of_ne hkp]
      exact hv
  | unsubscribe hc hq _ hl =>
    have hc' : (s.peers sid).cont = .idle := hc
    have hq' : (s.peers sid).commands = _ := hq
    exact hremove (by simp only [State.dropping, hc', hq']) hl
  | closeSub hc hl =>
    have hc' : (s.peers sid).cont = _ := hc
    exact hremove (by simp only [State.dropping, hc']) hl
  | _ => exact Or.inl hv

/-- A subscription a section makes is on both sides. -/
theorem Section.gains {key : SubKey} {k : TrackRef} (hk : E.wire.subs.lookup key = some k) :
    (s.wire sid).subs.lookup key = some k ∨ (s.wire sid).userID ∈ (E.links k).users := by
  have herase : ∀ {key'}, ((s.wire sid).subs.erase key').lookup key = some k →
      (s.wire sid).subs.lookup key = some k := fun he => (GoMap.lookup_of_erase he).2
  cases h with
  | resubscribe hs => left; rw [← hs.subs]; exact hk
  | noLocal hs => left; rw [← hs.subs]; exact hk
  | notAdded hs => left; rw [← hs.subs]; exact hk
  | subscribe hs =>
    rw [GoMap.lookup_insert_eq] at hk
    split at hk
    · cases hk
      right
      dsimp only
      rw [Function.update_self]
      exact Finset.mem_insert_self _ _
    · exact Or.inl hk
  | unsubscribe => exact Or.inl (herase hk)
  | closeSub => exact Or.inl (herase hk)
  | _ => exact Or.inl hk

end Sections

/-- Two live sessions of a channel are in one room. -/
theorem same_room (hg : Grounded s) (hs : SfuRouter.AllSeated s.router) (hx : x ∈ s.router.peers)
    (hp : p ∈ s.router.peers) (hc : (s.wire x).channelID = (s.wire p).channelID) :
    (s.wire x).room = (s.wire p).room := by
  have hroom : ∀ {y}, y ∈ s.router.peers →
      s.router.rooms.lookup (s.wire y).channelID = some (s.wire y).room := by
    intro y hy
    obtain ⟨q,hq⟩ := Finmap.mem_iff.mp hy
    obtain ⟨-,-,hw⟩ := hg.registered y q hq
    rw [hw]
    exact (hs y q hq).registered
  have hrx := hroom hx
  rw [hc,hroom hp] at hrx
  exact (Option.some.inj hrx).symm

theorem Reaching.grow {w w' : Wiring} {u : UserID} {k : TrackRef} (h : Reaching w u p k)
    (hs : w'.subs = w.subs) (hc : w'.cont = w.cont) (hq : ∀ fn ∈ w.commands, fn ∈ w'.commands) :
    Reaching w' u p k := by
  unfold Reaching at h ⊢
  rw [hs,hc]
  exact h.imp_right (Or.imp_left (fun ⟨q,hm⟩ => ⟨q,hq _ hm⟩))

theorem Notifying.congr {w w' : Wiring} {k : TrackRef} (h : Notifying w k x) (hc : w'.cont = w.cont) :
    Notifying w' k x := by
  unfold Notifying at h ⊢
  rw [hc]
  exact h

theorem KeepsSeats.keepsMembers {re : SfuRouter.Event} (hg : Grounded s) (h : KeepsSeats s re) :
    SfuRouter.KeepsMembers s.router re := by
  cases re with
  | roomAdd t =>
    intro q hc y hy
    have hn := h q (by rw [hc]; rfl) y hy
    exact Finmap.lookup_eq_none.mpr hn
  | roomRemove t =>
    intro q r hc y hy
    have hn := h (q,r) (by rw [hc]; rfl) y hy
    exact Finmap.lookup_eq_none.mpr hn
  | recheck t =>
    intro q r hc hempty t' q' hc' hroom
    rw [Finmap.lookup_eq_none]
    intro hm
    refine h (q,r) (by rw [hc]; rfl) hempty q'.sessionID (Finmap.mem_keys.mpr hm) ?_
    have hw := (hg.routing t' q' (by rw [hc']; rfl)).2
    exact (congrArg SfuRouter.Peer.room hw).trans hroom
  | _ => trivial

/-- A step that runs no peer, and leaves the tracks and what was sent alone. -/
theorem Calm.hearing (hg : Grounded s) (hn : Signed s) (hn' : Signed s') (hh : Hearing s)
    (h : Calm s s')
    (hpeers : ∀ x, x ∈ s'.router.peers → x ∈ s.router.peers ∨ x ∉ s.router.issued)
    (hpeer : ∀ x ∈ s.router.issued, (s'.wire x).toPeer = (s.wire x).toPeer)
    (hpublished : ∀ x, (s'.wire x).published = (s.wire x).published)
    (hsignals : s'.signals = s.signals)
    (hseats : ∀ x ∈ s'.router.peers, s'.started x → s'.seated x = true) : Hearing s' := by
  -- a session that has just joined has neither subscriptions nor tracks, nor an answer
  have hfresh : ∀ {y}, y ∉ s.router.issued → (∀ key k, (s.wire y).subs.lookup key ≠ some k) ∧
      ∀ source k, (s.wire y).published.lookup source ≠ some k := by
    intro y hy
    obtain ⟨q,hq⟩ := hg.fresh y hy
    rw [hq]
    exact ⟨fun _ _ hk => (nomatch hk),fun _ _ hk => (nomatch hk)⟩
  constructor
  case seats => exact hseats
  case listed =>
    intro x hx key k hk hlive
    rw [h.subs] at hk
    have hi := issued_of_sub hg hk
    obtain ⟨⟨hlt,-⟩,-⟩ := hg.subs x key k hk
    obtain ⟨h1,h2,h3⟩ := hlive
    have hlink : SfuMedia.link (s'.tracks k) = s.link k := congrFun h.link k
    have hlive' : s.liveMic k := by
      refine ⟨?_,?_,?_⟩
      · rw [← h1]
        exact (congrArg Link.source hlink).symm
      · rw [← h2]
        exact (congrArg Link.kind hlink).symm
      · have howner : (s'.tracks k).owner = (s.link k).owner := congrArg Link.owner hlink
        rw [howner] at h3
        exact (hpeers _ h3).resolve_right (fun hn => hn (hg.owner k hlt).1)
    rw [h.link,h.userID x hi]
    exact hh.listed x ((hpeers x hx).resolve_right (fun hn => hn hi)) key k hk hlive'
  case linked =>
    intro x p k ha
    have hp : p ∈ s.router.peers := by
      refine (hpeers p ha.speaker).resolve_right (fun hn => ?_)
      exact (hfresh hn).2 _ _ (by rw [← hpublished]; exact ha.published)
    have hsignal := ha.answered
    rw [hsignals] at hsignal
    have hx : x ∈ s.router.peers := by
      refine (hpeers x ha.listener).resolve_right (fun hnot => hnot ?_)
      have hi := hn.answers _ _ hsignal
      rw [hn'.named] at hi
      exact hi
    have hpx := hpeer x (hg.issued_of_mem hx)
    have hpp := hpeer p (hg.issued_of_mem hp)
    have hold : Audience s x p k := by
      refine ⟨hx,hp,ha.ne,?_,?_,?_,?_⟩
      · rw [← hpx]
        exact hsignal
      · rw [← hpx,← hpp]
        exact ha.channelID
      · rw [← hpublished]
        exact ha.published
      · rw [← h.link]
        exact ha.kind
    rcases hh.linked x p k hold with hr | hn
    · left
      rw [hpp]
      exact hr.grow (h.subs x) (h.cont x) (h.commands x)
    · exact Or.inr (hn.congr (h.cont p))

/-- A subscription to a live microphone keeps its place in the track's subscriber set. -/
theorem Section.listed (hg : Grounded s) (hh : Hearing s) (hpc : c.pc = {}) (hk : KeepsMics s sid)
    (h : Section s sid c E) (ha : Applied s sid E s') (hx : x ∈ s.router.peers) {key : SubKey}
    {k : TrackRef} (hkey : (s'.wire x).subs.lookup key = some k) (hlive : s'.liveMic k) :
    (s'.wire x).userID ∈ (s'.link k).users := by
  have hlink : s'.link k = E.links k := ha.link k
  have huser : (s'.wire x).userID = (s.wire x).userID :=
    congrArg SfuRouter.Peer.userID (ha.toPeer h x)
  rw [huser,hlink]
  have hold : (s.wire x).subs.lookup key = some k → (s.wire x).userID ∈ (E.links k).users := by
    intro ho
    obtain ⟨⟨hlt,-⟩,-⟩ := hg.subs x key k ho
    obtain ⟨hsource,hkind,howner⟩ := (ha.extends h).link k hlt
    obtain ⟨h1,h2,h3⟩ := hlive
    have howner' : (s'.tracks k).owner = (s.tracks k).owner := howner
    rw [ha.router,howner'] at h3
    have hlive : s.liveMic k := ⟨hsource.symm.trans h1,hkind.symm.trans h2,h3⟩
    rcases h.forgets hpc hlt (hh.listed x hx key k ho hlive) with hm | ⟨hu,key',hd,hsub⟩
    · exact hm
    · -- the same subscription of another session of the user
      have hkk := key_unique hg ho hsub
      rw [← hkk] at hd hsub
      exact absurd ho (hk.2 key hd k hsub hlive x (Finmap.mem_keys.mpr hx) hu)
  rw [ha.subs] at hkey
  split at hkey
  · rename_i hxs
    subst hxs
    exact (h.gains hkey).elim hold id
  · exact hold hkey

/-- Who is to hear whom after a section was to before it, unless the section has just published
the track or answered the listener. -/
theorem Section.audience (hg : Grounded s) (hn : Signed s) (h : Section s sid c E)
    (ha : Applied s sid E s') {k : TrackRef} (hau : Audience s' x p k) :
    Audience s x p k ∨ (p = sid ∧ Notifying E.wire k x) ∨
      (x = sid ∧ E.wire.cont = .autoSubscribeToExisting) := by
  have hpeer : ∀ y, (s'.wire y).toPeer = (s.wire y).toPeer := ha.toPeer h
  have hx : x ∈ s.router.peers := by
    rw [← ha.router]
    exact hau.listener
  have hp : p ∈ s.router.peers := by
    rw [← ha.router]
    exact hau.speaker
  have hchannel : (s.wire x).channelID = (s.wire p).channelID := by
    rw [← hpeer,← hpeer]
    exact hau.channelID
  have hpub : (s.wire p).published.lookup SourceMic = some k ∨ (p = sid ∧ Notifying E.wire k x) := by
    have hpub' := hau.published
    rw [ha.wire,asked_published] at hpub'
    split at hpub'
    · rename_i hps
      rw [hps]
      exact (h.publishes hpub').imp_right (fun hnew => ⟨rfl,Or.inl hnew.1⟩)
    · exact Or.inl hpub'
  have hans : .answer (s.wire x).userID (s.wire x).sessionID ∈ s.signals ∨
      (x = sid ∧ E.wire.cont = .autoSubscribeToExisting) := by
    have hans' := hau.answered
    rw [hpeer,ha.signals] at hans'
    refine (List.mem_append.mp hans').imp_right (fun hnew => ?_)
    obtain ⟨hy,hc,-⟩ := h.answers hnew
    rw [hn.named,hn.named] at hy
    exact ⟨hy,hc⟩
  rcases hpub with hpub | hnew
  swap
  · exact Or.inr (Or.inl hnew)
  rcases hans with hans | hnew
  swap
  · exact Or.inr (Or.inr hnew)
  obtain ⟨⟨hlt,-⟩,-⟩ := hg.published p SourceMic k hpub
  have hkind : (s.link k).kind = .audio := ((ha.extends h).link k hlt).2.1.symm.trans hau.kind
  exact Or.inl ⟨hx,hp,hau.ne,hans,hchannel,hpub,hkind⟩

theorem Section.hearing (hg : Grounded s) (hl : Lifecycle s) (hs : SfuRouter.AllSeated s.router)
    (hn : Signed s) (hh : Hearing s) (hsm : Smooth s (.run sid c)) (hk : KeepsMics s sid)
    (h : Section s sid c E) (ha : Applied s sid E s') : Hearing s' := by
  obtain ⟨hpc,htakes⟩ := hsm
  have hpeer : ∀ x, (s'.wire x).toPeer = (s.wire x).toPeer := ha.toPeer h
  have huser : ∀ x, (s'.wire x).userID = (s.wire x).userID :=
    fun x => congrArg SfuRouter.Peer.userID (hpeer x)
  constructor
  case seats =>
    intro x hx hst
    rw [ha.router] at hx
    have hseat := hh.seats x hx (h.starts hn ha hst)
    rw [seated_iff] at hseat ⊢
    rw [ha.router,hpeer]
    exact hseat
  case listed =>
    intro x hx key k hkey hlive
    rw [ha.router] at hx
    exact Section.listed hg hh hpc hk h ha hx hkey hlive
  case linked =>
    intro x p k hau
    have hreach : Reaching (if x = sid then E.wire else s.wire x) (s.wire p).userID p k →
        Reaching (s'.wire x) (s'.wire p).userID p k := by
      intro hr
      rw [huser,ha.wire]
      exact hr.grow (asked_subs _ _ _) (asked_cont _ _ _) (fun fn hfn => asked_grows _ hfn)
    have hnotify : Notifying (if p = sid then E.wire else s.wire p) k x → Notifying (s'.wire p) k x := by
      intro hn
      rw [ha.wire]
      exact hn.congr (asked_cont _ _ _)
    rcases h.audience hg hn ha hau with hau | ⟨rfl,hn⟩ | ⟨rfl,hc⟩
    rotate_left
    · exact Or.inr (hnotify (by rw [if_pos rfl]; exact hn))
    · exact Or.inl (hreach (by rw [if_pos rfl]; exact Or.inr (Or.inr (Or.inl hc))))
    obtain ⟨hx,hp,hne,hans,hchannel,hpub,hkind⟩ := hau
    have hlive : s.liveMic k := by
      obtain ⟨⟨-,ho⟩,hsource⟩ := hg.published p SourceMic k hpub
      have ho' : (s.tracks k).owner = p := ho
      refine ⟨hsource,hkind,?_⟩
      rw [ho']
      exact hp
    have hseatx := hh.seats x hx (hn.started hans)
    have hseatp := hh.seats p hp (Or.inr (Or.inr (Or.inr (Or.inl ⟨_,_,hpub⟩))))
    have hroom := same_room hg hs hx hp hchannel
    rcases hh.linked x p k ⟨hx,hp,hne,hans,hchannel,hpub,hkind⟩ with hr | hn
    · left
      apply hreach
      split
      · rename_i hxs
        subst hxs
        exact h.reaching hpc hk hx hlive hpub
          (fun os ho => mem_others_of ho hseatx hseatp hne.symm hroom.symm) hr
      · exact hr
    · by_cases hps : p = sid
      · subst hps
        rcases h.notifying hkind (fun os ho => mem_others_of ho hseatp hseatx hne hroom) hn with
          hn | hask
        · exact Or.inr (hnotify (by rw [if_pos rfl]; exact hn))
        · left
          have h0 := (hl.running hx).1
          have hroomy : (s.wire x).commands.length < commandsCap := by
            have ht := htakes x (h.asking hask)
            have h0' : (s.peers x).stopped = false := h0
            rw [State.takesTask,h0',Bool.false_or] at ht
            exact of_decide_eq_true ht
          rw [huser,ha.wire,if_neg hne,hask,asked_self]
          exact Or.inr (Or.inl ⟨_,mem_enqueue h0 hroomy⟩)
      · exact Or.inr (hnotify (by rw [if_neg hps]; exact hn))

section Routes
variable {re : SfuRouter.Event} {r : SfuRouter.State} {w : SessionID → Wiring}

theorem Routes.hearing (hg : Grounded s) (hr : SfuRouter.RoomsTracked s.router)
    (hs : SfuRouter.AllSeated s.router) (hn : Signed s) (hn' : Signed (s.routed re r))
    (hh : Hearing s) (hk : KeepsSeats s re) (he : SfuRouter.step s.router re = some r) (h : Routes s re r w)
    (hw : ∀ x, (s.routed re r).wire x = w x) : Hearing (s.routed re r) := by
  obtain ⟨-,-,hsignals,hrouter,-⟩ := routed_link s re r
  have hpeers : ∀ x, x ∈ (s.routed re r).router.peers → x ∈ s.router.peers ∨ x ∉ s.router.issued := by
    intro x hx
    rw [hrouter] at hx
    obtain ⟨q,hq⟩ := Finmap.mem_iff.mp hx
    exact (router_peers he hq).imp (fun ho => Finmap.mem_iff.mpr ⟨q,ho⟩) And.left
  refine (router_calm hg h hw).hearing hg hn hn' hh hpeers ?_ ?_ hsignals ?_
  · intro x hx
    rw [hw]
    exact (h.keeps hg x).1 hx
  · intro x
    rw [hw]
    exact (h.keeps hg x).2.2.1
  · intro x hx hst
    have hold := h.starts hg hw hst
    have hi := hn.issued hg hold
    have hx' := (hpeers x hx).resolve_right (fun hn => hn hi)
    obtain ⟨q,hq⟩ := Finmap.mem_iff.mp hx'
    have hseat := hh.seats x hx' hold
    have hq' := (hg.registered x q hq).2.2
    rw [seated_iff] at hseat ⊢
    rw [hw,(h.keeps hg x).1 hi,hrouter,hq']
    rw [hq'] at hseat
    exact SfuRouter.slot_stays hr hs (hk.keepsMembers hg) he hq hseat

end Routes

/-- A step outside the router that runs no peer. -/
theorem Calm.hearing_of_router (hg : Grounded s) (hn : Signed s) (hn' : Signed s') (hh : Hearing s)
    (h : Calm s s')
    (hrouter : s'.router = s.router) (hpeer : ∀ x, (s'.wire x).toPeer = (s.wire x).toPeer)
    (hpublished : ∀ x, (s'.wire x).published = (s.wire x).published)
    (hsignals : s'.signals = s.signals)
    (hstarts : ∀ x, s'.started x → s.started x ∨ s.seated x = true) : Hearing s' := by
  refine h.hearing hg hn hn' hh ?_ (fun x _ => hpeer x) hpublished hsignals ?_
  · intro x hx
    rw [hrouter] at hx
    exact Or.inl hx
  · intro x hx hst
    rw [hrouter] at hx
    have hseat : s.seated x = true := (hstarts x hst).elim (hh.seats x hx) id
    rw [seated_iff] at hseat ⊢
    rw [hrouter,hpeer]
    exact hseat

theorem step_hearing (hg : Grounded s) (hl : Lifecycle s) (hr : SfuRouter.RoomsTracked s.router)
    (hs : SfuRouter.AllSeated s.router) (hn : Signed s) (hh : Hearing s) (hk : Audible s e)
    (he : step s e = some s') : Hearing s' := by
  have hn' := step_signed hg hn he
  have hstarts : ∀ x, s'.started x → s.started x ∨ s.seated x = true := by
    intro x hx
    refine (step_starts hg hn he hx).imp_right ?_
    rintro ⟨t,slots,rfl⟩
    exact hk.2
  obtain ⟨-,hv⟩ := step_wired he
  cases hv with
  | run hsec ha => exact hsec.hearing hg hl hs hn hh hk.1 hk.2 ha
  | router hre hroutes hw => exact hroutes.hearing hg hr hs hn hn' hh hk.2 hre hw
  | ask _ hw hlink _ hsignals hrouter =>
    refine (calm_asked hlink hw).hearing_of_router hg hn hn' hh hrouter (fun x => ?_) (fun x => ?_)
      hsignals hstarts
    · rw [hw,asked_toPeer]
    · rw [hw,asked_published]
  | call =>
    exact (calm_setCall s _ _).hearing_of_router hg hn hn' hh rfl (fun _ => rfl) (fun _ => rfl) rfl
      hstarts
  | @publishState t sid source active =>
    have hw := wire_publishState s t sid source active
    refine (calm_publishState s t sid source active).hearing_of_router hg hn hn' hh rfl
      (fun x => ?_) (fun x => ?_) rfl hstarts
    · obtain ⟨m,hm⟩ := hw x
      rw [hm]
    · obtain ⟨m,hm⟩ := hw x
      rw [hm]

theorem hearing_init : Hearing init where
  seats _ hx := absurd hx (GoMap.notMem_empty _)
  listed _ hx := absurd hx (GoMap.notMem_empty _)
  linked _ _ _ ha := absurd ha.listener (GoMap.notMem_empty _)

/-- What every run that stays audible keeps as long as the process lives. -/
structure Attuned (s : State) : Prop where
  grounded : Grounded s
  lifecycle : Lifecycle s
  rooms : SfuRouter.RoomsTracked s.router
  calls : SfuRouter.CallsTracked s.router
  seated : SfuRouter.AllSeated s.router
  signed : Signed s
  hearing : Hearing s

theorem step_attuned (h : Attuned s) (hk : Audible s e) (he : step s e = some s') :
    (s'.router.panicked = true ∧ ¬ SfuRouter.Quiescent s'.router) ∨ Attuned s' := by
  have hg := step_grounded h.grounded he
  have hl := step_lifecycle h.grounded h.lifecycle he
  have hn := step_signed h.grounded h.signed he
  have hh := step_hearing h.grounded h.lifecycle h.rooms h.seated h.signed h.hearing hk he
  rcases step_router he with hr | ⟨re,rfl,hr⟩
  · exact Or.inr ⟨hg,hl,hr ▸ h.rooms,hr ▸ h.calls,hr ▸ h.seated,hn,hh⟩
  · cases hp : s'.router.panicked with
    | true => exact Or.inl ⟨rfl,SfuRouter.step_panicked hr hp⟩
    | false =>
      have ht := SfuRouter.step_tracked ⟨h.rooms,h.calls⟩ hr
      rw [hp] at ht
      obtain ⟨hrooms,hcalls⟩ := ht.resolve_left Bool.false_ne_true
      have hkeeps : KeepsSeats s re := hk.2
      exact Or.inr ⟨hg,hl,hrooms,hcalls,SfuRouter.step_allSeated h.rooms h.calls h.seated
        (hkeeps.keepsMembers h.grounded) hr hp,hn,hh⟩

/-- Once nothing is left to do, whoever is to hear a microphone is subscribed to it. -/
theorem Attuned.everyoneHears (h : Attuned s) (hq : Quiescent s) : EveryoneHears s := by
  intro x hx p hp hne hans hchannel k hmic
  have hh := h.hearing
  have hidle : ∀ y, (s.wire y).cont = .idle := hq.idle
  have hempty : (s.wire x).commands = [] := hq.commands x (h.lifecycle.running hx).1
  obtain ⟨⟨-,ho⟩,hsource⟩ := h.grounded.published p SourceMic k hmic.1
  have hsub : (s.wire x).subs.lookup ⟨(s.wire p).userID,SourceMic⟩ = some k := by
    rcases hh.linked x p k ⟨hx,hp,hne,of_decide_eq_true hans,hchannel,hmic.1,hmic.2⟩ with
      (h1 | ⟨q,h2⟩ | h3 | ⟨os,h4,-⟩ | ⟨v,pubs,os,h5,-⟩) |
      (⟨rid,codec,h6⟩ | h7 | h8 | ⟨os,h9,-⟩)
    · exact h1
    · rw [hempty] at h2
      cases h2
    all_goals simp_all
  refine ⟨hsub,subs_link.mp (hh.listed x hx _ k hsub ⟨hsource,hmic.2,?_⟩)⟩
  have ho' : (s.tracks k).owner = p := ho
  rw [ho']
  exact hp

/-- In every audible run everyone hears everyone once nothing is left to do. -/
theorem everyone_hears {es : List Event} {s : State} (h : RunsWhen step Audible init es s)
    (hq : Quiescent s) : EveryoneHears s := by
  have hinv := h.invariant
    (P := fun s => (s.router.panicked = true ∧ ¬ SfuRouter.Quiescent s.router) ∨ Attuned s)
    (Or.inr ⟨grounded_init,lifecycle_init,SfuRouter.roomsTracked_init,SfuRouter.callsTracked_init,
      (fun _ _ hp => nomatch hp),signed_init,hearing_init⟩)
    (fun hs hk he => by
      rcases hs with ⟨hp,-⟩ | hs
      · exact absurd hp (by rw [(step_wired he).1]; exact Bool.false_ne_true)
      · exact step_attuned hs hk he)
  rcases hinv with ⟨-,hn⟩ | ha
  · exact absurd hq.router hn
  · exact ha.everyoneHears hq

/-- User 2 subscribes to the microphone of user 1, and then offers. -/
def secondOffers : List Event :=
  [.run "b" {}, .request 1 "b" (.handleOffer [⟨"0",SourceMic⟩]), .proceed 1, .run "b" {},
   .run "b" { users := [1] }, .run "b" { sources := [SourceMic] }, .run "b" {}, .run "b" {},
   .run "b" {}, .run "b" { users := [1] }, .run "b" { sources := [SourceMic] }, .run "b" {}]

/-- User 1 comes back with a new session, which publishes its microphone. -/
def comesBack : List Event :=
  [.router (.join 3 "c" 1 7), .router (.roomAdd 3),
   .request 3 "c" (.handleOffer [⟨"0",SourceMic⟩]), .proceed 3, .run "c" {},
   .run "c" { users := [2] }, .run "c" {}, .run "c" {}, .run "c" {}, .run "c" { users := [2] },
   .run "c" {}, .run "c" {}, .onTrack "c" "0" .audio "" "opus", .run "c" { source := some SourceMic },
   .run "c" {}, .run "c" {}, .run "c" { users := [2] }, .run "c" {}, .run "c" {}]

def micReturns : List Event :=
  [.router (.leave 2 "a"), .router (.roomRemove 2), .router (.removeUser 2), .router (.isEmpty 2),
   .router (.peerClose 2)] ++ comesBack

/-- Only now does the earlier session's `doClose` have user 2 unsubscribe. -/
def lateUnsubscribe : List Event :=
  [.run "a" {}, .run "a" { sources := [SourceMic] }, .run "a" { users := [2] }, .run "a" {},
   .run "a" {}, .run "a" {}, .run "b" {}, .run "b" {}]

/-- User 2 hears user 1 again after the unsubscription for the earlier session is done. -/
theorem everyone_hears_mic : ∃ s,
    Runs step init (micForTwo ++ secondOffers ++ micLeaves [2] ++ [.run "b" {}] ++ comesBack ++
      [.run "b" {}]) s ∧
    (s.answered "b" = true ∧ (s.peers "c").published.lookup SourceMic = some 1 ∧
      (s.peers "b").subs.lookup ⟨1,SourceMic⟩ = some 1) ∧ EveryoneHears s := by
  obtain ⟨s,hrun,hs⟩ := exists_runsWhen_of_exec step Audible init
    (micForTwo ++ secondOffers ++ micLeaves [2] ++ [.run "b" {}] ++ comesBack ++ [.run "b" {}])
    (fun s : State => (s.settled (micForTwo ++ secondOffers ++ micLeaves [2] ++ [.run "b" {}] ++
        comesBack ++ [.run "b" {}]),
      s.answered "b",(s.peers "c").published.lookup SourceMic,
      (s.peers "b").subs.lookup ⟨1,SourceMic⟩)) (true,true,some 1,some 1) (by decide +kernel)
  simp only [Prod.mk.injEq] at hs
  obtain ⟨hset,hshown⟩ := hs
  exact ⟨s,hrun.runs,hshown,everyone_hears hrun (quiescent_of_settled hrun.runs hset)⟩

/-- The unsubscription for the session that has gone silences the one that came back. -/
theorem late_unsubscribe_silences : ¬ ∀ es s, RunsWhen step Smooth init es s → Quiescent s →
    EveryoneHears s := by
  intro h
  obtain ⟨s,hrun,hs⟩ := exists_runsWhen_of_exec step Smooth init
    (micForTwo ++ secondOffers ++ micReturns ++ lateUnsubscribe)
    (fun s : State => (s.settled (micForTwo ++ secondOffers ++ micReturns ++ lateUnsubscribe),
      decide (s.router.peers.keys = {"b","c"} ∧ s.answered "b" = true ∧
        (s.peers "b").channelID = (s.peers "c").channelID ∧ (s.peers "c").userID = 1 ∧
        (s.peers "c").published.lookup SourceMic = some 1 ∧ (s.tracks 1).kind = .audio),
      (s.peers "b").subs.lookup ⟨1,SourceMic⟩)) (true,true,none) (by decide +kernel)
  simp only [Prod.mk.injEq, decide_eq_true_eq] at hs
  obtain ⟨hset,⟨hkeys,hans,hchannel,huser,hmic,hkind⟩,hsub⟩ := hs
  have hlive : ∀ y, y ∈ s.router.peers ↔ y ∈ ({"b","c"} : Finset SessionID) := by
    intro y
    rw [← Finmap.mem_keys,hkeys]
  have hhears := (h _ s hrun (quiescent_of_settled hrun.runs hset) "b" ((hlive "b").mpr (by decide))
    "c" ((hlive "c").mpr (by decide)) (by decide) hans hchannel 1 ⟨hmic,hkind⟩).1
  rw [huser,hsub] at hhears
  cases hhears

end MiniDiscord.SfuMedia
