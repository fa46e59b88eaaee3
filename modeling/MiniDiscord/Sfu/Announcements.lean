import MiniDiscord.Sfu.PairedSubscriptions
import MiniDiscord.Sfu.Started

/-! # How the others are told of a track

A track is announced to the channel once its first layer is there; whoever is answered is
sent a snapshot of what the rest of the room has published by then. Nothing else tells of
a track.
-/
namespace MiniDiscord.SfuMedia
open SfuRoom SfuTrack SfuPeer Transition
open SfuRouter (RoomRef CallID)

/-- Program points between the answer and the end of the scan. -/
def scans : Cont → Bool
  | .autoSubscribeToExisting => true
  | .autoSubscribePeers _ => true
  | .autoSubscribeTracks _ _ _ => true
  | _ => false

/-- Program points at which a track is told of, or will be next. -/
def tells : Cont → Bool
  | .sendTrackSnapshot => true
  | .snapshotPeers _ => true
  | .addLayer _ _ _ _ => true
  | .announce _ => true
  | _ => false

/-- Program points between the answer and the end of the snapshot. -/
def snapshots (k : Cont) : Bool :=
  scans k || match k with
  | .sendTrackSnapshot => true
  | .snapshotPeers _ => true
  | _ => false

/-- The track has yet to be announced by its publisher. -/
def Announcing (w : Wiring) (k : TrackRef) : Prop :=
  (∃ rid codec, w.cont = .addLayer k rid codec false) ∨ w.cont = .announce k

variable {s s' : State} {e : Event} {sid x p : SessionID} {c : Choice} {E : Effect}

theorem mem_videoTrackInfos {sources : List Source} {i : TrackInfo}
    (h : i ∈ s.videoTrackInfos p sources) : ∃ source k, i = s.trackInfo (s.wire p).userID source k ∧
      (s.wire p).published.lookup source = some k ∧ (s.link k).kind = .video ∧
      (s.wire p).publishState.lookup source ≠ some false := by
  obtain ⟨⟨source,k⟩,hm,rfl⟩ := List.mem_map.mp h
  obtain ⟨hm,hv⟩ := List.mem_filter.mp hm
  refine ⟨source,k,rfl,mem_publishedTracks hm,of_decide_eq_true hv,?_⟩
  obtain ⟨source',hs,he⟩ := List.mem_filterMap.mp hm
  obtain ⟨k',-,he⟩ := Option.map_eq_some_iff.mp he
  cases he
  exact of_decide_eq_true (List.mem_filter.mp hs).2

section Sections
variable (h : Section s sid c E)
include h

theorem Section.publishState : E.wire.publishState = (s.wire sid).publishState := by
  cases h with
  | resubscribe hs | noLocal hs | notAdded hs | subscribe hs => cases hs <;> rfl
  | _ => rfl

theorem Section.scanning (hc : scans (s.wire sid).cont = true) :
    (∃ k new, Moves s sid c (s.wire sid).cont k new ∧ E.wire = { s.wire sid with cont := k }) ∨
      ∃ u pub w, Subscribes (s.wire sid) u pub w ∧ E.wire = { w with subs := E.wire.subs } := by
  have hno : ∀ {k : Cont} {P : Prop}, (s.wire sid).cont = k → scans k = false → P := by
    intro k P hk hs
    rw [hk,hs] at hc
    cases hc
  cases h with
  | move hm => exact Or.inl ⟨_,_,hm,rfl⟩
  | resubscribe hs => exact Or.inr ⟨_,_,_,hs,rfl⟩
  | noLocal hs => exact Or.inr ⟨_,_,_,hs,rfl⟩
  | notAdded hs => exact Or.inr ⟨_,_,_,hs,rfl⟩
  | subscribe hs => exact Or.inr ⟨_,_,_,hs,rfl⟩
  | take hk => exact hno hk rfl
  | offered hk => exact hno hk rfl
  | offerFailed hk => exact hno hk rfl
  | publish hk => exact hno hk rfl
  | unsubscribe hk => exact hno hk rfl
  | close hk => exact hno hk rfl
  | closeSub hk => exact hno hk rfl
  | subscribeOther hk => exact hno hk rfl
  | closeSubscriber hk => exact hno hk rfl

/-- What a section tells of tracks, and where it stands. -/
inductive Telling (s : State) (sid : SessionID) (c : Choice) : Signal → Prop
  | announce {pub} : (s.wire sid).cont = .announce pub → Telling s sid c
      (.trackPublished (s.wire sid).channelID (s.trackInfo (s.wire sid).userID (s.tracks pub).source pub))
  | snapshot {o os i} : (s.wire sid).cont = .snapshotPeers (o :: os) →
      i ∈ s.videoTrackInfos o c.sources →
      Telling s sid c (.trackPublishedTo (s.wire sid).userID (s.wire sid).channelID i)
  | close {channelID i} : closes (s.wire sid).cont = true → Telling s sid c (.trackUnpublished channelID i)

/-- Signals that tell nobody of a track. -/
def untold : Signal → Bool
  | .trackPublished _ _ => false
  | .trackPublishedTo _ _ _ => false
  | .trackUnpublished _ _ => false
  | _ => true

theorem Section.told {sig : Signal} (hm : sig ∈ E.sent) : untold sig = true ∨ Telling s sid c sig := by
  have hmute : ∀ {new : List Signal}, (∀ sig ∈ new, muted sig = true) → sig ∈ new →
      untold sig = true ∨ Telling s sid c sig := by
    intro new hn hs
    have := hn sig hs
    left
    cases sig <;> first | rfl | cases this
  cases h with
  | offered =>
    cases List.mem_singleton.mp hm
    exact Or.inl rfl
  | move hmv =>
    right
    generalize hk : (s.wire sid).cont = k₀ at hmv
    cases hmv with
    | snapshotPeer =>
      obtain ⟨i,hi,rfl⟩ := List.mem_map.mp hm
      exact .snapshot hk hi
    | announce =>
      cases List.mem_singleton.mp hm
      exact .announce hk
    | closeTrack =>
      cases List.mem_singleton.mp hm
      exact .close (by rw [hk]; rfl)
    | _ => cases hm
  | take _ _ _ ht =>
    cases ht with
    | talk _ hn => exact hmute hn hm
    | noVideo hn => exact hmute hn hm
    | _ => cases hm
  | offerFailed _ _ _ _ hn => exact hmute hn hm
  | subscribe _ _ hn => exact hmute hn hm
  | unsubscribe _ _ _ _ hn => exact hmute hn hm
  | _ => cases hm

/-- At these program points the peer only moves on. -/
theorem Section.moved (hc : tells (s.wire sid).cont = true) : ∃ k new,
    Moves s sid c (s.wire sid).cont k new ∧ E = s.quiet { s.wire sid with cont := k } new := by
  have hno : ∀ {k : Cont} {P : Prop}, (s.wire sid).cont = k → SfuMedia.tells k = false → P := by
    intro k P hk hs
    rw [hk,hs] at hc
    cases hc
  have hsub : ∀ {u k w} {P : Prop}, Subscribes (s.wire sid) u k w → P := by
    intro u k w P hs
    cases hs with
    | task hk => exact hno hk rfl
    | existing hk => exact hno hk rfl
    | video hk => exact hno hk rfl
  cases h with
  | move hm => exact ⟨_,_,hm,rfl⟩
  | resubscribe hs => exact hsub hs
  | noLocal hs => exact hsub hs
  | notAdded hs => exact hsub hs
  | subscribe hs => exact hsub hs
  | take hk => exact hno hk rfl
  | offered hk => exact hno hk rfl
  | offerFailed hk => exact hno hk rfl
  | publish hk => exact hno hk rfl
  | unsubscribe hk => exact hno hk rfl
  | close hk => exact hno hk rfl
  | closeSub hk => exact hno hk rfl
  | subscribeOther hk => exact hno hk rfl
  | closeSubscriber hk => exact hno hk rfl

/-- The section comes closer to announcing the track, or announces it. -/
theorem Section.announcing {k : TrackRef} (hold : Announcing (s.wire sid) k) : Announcing E.wire k ∨
    .trackPublished (s.wire sid).channelID (s.trackInfo (s.wire sid).userID (s.tracks k).source k) ∈
      E.sent := by
  rcases hold with ⟨rid,codec,h1⟩ | h2
  · obtain ⟨k',new,hm,rfl⟩ := h.moved (by rw [h1]; rfl)
    rw [h1] at hm
    cases hm with
    | trackAdded => exact Or.inl (Or.inr rfl)
  · obtain ⟨k',new,hm,rfl⟩ := h.moved (by rw [h2]; rfl)
    rw [h2] at hm
    cases hm with
    | announce => exact Or.inr (List.mem_singleton.mpr rfl)

/-- A snapshot is the answer's. -/
theorem Section.snapshots (hk : snapshots E.wire.cont = true) : snapshots (s.wire sid).cont = true ∨
    ∃ slots, .handleOffer slots ∈ (s.wire sid).commands := by
  have hidle : ∀ {P : Prop}, (s.wire sid).cont = .idle → E.wire.cont = (s.wire sid).cont → P := by
    intro P hc he
    rw [he,hc] at hk
    cases hk
  cases h with
  | move hm =>
    left
    generalize (s.wire sid).cont = k₀ at hm
    cases hm with
    | announce =>
      dsimp only [State.quiet] at hk
      split at hk <;> cases hk
    | _ => first | rfl | cases hk
  | take _ _ _ ht => cases ht <;> cases hk
  | offered _ hq => exact Or.inr ⟨_,by rw [hq]; exact List.mem_cons_self⟩
  | offerFailed hc => exact hidle hc rfl
  | resubscribe hs | noLocal hs | notAdded hs | subscribe hs =>
    cases hs with
    | task hc => exact hidle hc rfl
    | existing hc => exact Or.inl (by rw [hc]; rfl)
    | video => cases hk
  | unsubscribe hc => exact hidle hc rfl
  | _ => cases hk

/-- Whom a snapshot has yet to come to is in the room. -/
theorem Section.snapshotPeers {os : List SessionID} (hk : E.wire.cont = .snapshotPeers os) :
    s.others sid c.users = some os ∨ ∃ o, (s.wire sid).cont = .snapshotPeers (o :: os) := by
  cases h with
  | move hm =>
    generalize (s.wire sid).cont = k₀ at hm
    cases hm with
    | snapshotRoom ho =>
      cases hk
      exact Or.inl ho
    | snapshotPeer =>
      cases hk
      exact Or.inr ⟨_,rfl⟩
    | announce =>
      dsimp only [State.quiet] at hk
      split at hk <;> cases hk
    | _ => cases hk
  | take _ _ _ ht => cases ht <;> cases hk
  | offerFailed hc => exact absurd (hc.symm.trans hk) (by simp)
  | resubscribe hs | noLocal hs | notAdded hs | subscribe hs =>
    cases hs with
    | task hc => exact absurd (hc.symm.trans hk) (by simp)
    | existing => cases hk
    | video => cases hk
  | unsubscribe hc => exact absurd (hc.symm.trans hk) (by simp)
  | _ => cases hk

end Sections

/-- A step that runs no peer, as everybody who is told of tracks sees it. -/
structure Still (s s' : State) : Prop extends Calm s s' where
  published : ∀ x, (s'.wire x).published = (s.wire x).published
  toPeer : ∀ x ∈ s.router.issued, (s'.wire x).toPeer = (s.wire x).toPeer
  signals : s'.signals = s.signals

theorem step_still (hg : Grounded s) (he : step s e = some s') (hrun : ∀ sid c, e ≠ .run sid c) :
    Still s s' := by
  obtain ⟨-,hv⟩ := step_wired he
  cases hv with
  | run => exact absurd rfl (hrun _ _)
  | @router re r w _ hroutes hw =>
    refine ⟨router_calm hg hroutes hw,fun x => ?_,fun x hx => ?_,(routed_link s re r).2.2.1⟩
    · rw [hw]
      exact (hroutes.keeps hg x).2.2.1
    · rw [hw]
      exact (hroutes.keeps hg x).1 hx
  | ask _ hw hlink _ hsignals =>
    refine ⟨calm_asked hlink hw,fun x => ?_,fun x _ => ?_,hsignals⟩
    · rw [hw,asked_published]
    · rw [hw,asked_toPeer]
  | call => exact ⟨calm_setCall s _ _,fun _ => rfl,fun _ _ => rfl,rfl⟩
  | @publishState t sid source active =>
    have hw := wire_publishState s t sid source active
    refine ⟨calm_publishState s t sid source active,fun x => ?_,fun x _ => ?_,rfl⟩
    · obtain ⟨m,hm⟩ := hw x
      rw [hm]
    · obtain ⟨m,hm⟩ := hw x
      rw [hm]

/-- Nobody is told of a track but by the peer that runs. -/
theorem step_told (hg : Grounded s) (he : step s e = some s') {sig : Signal} (hm : sig ∈ s'.signals) :
    sig ∈ s.signals ∨ untold sig = true ∨ ∃ sid c, e = .run sid c ∧ Telling s sid c sig := by
  by_cases hrun : ∃ sid c, e = .run sid c
  · obtain ⟨sid,c,rfl⟩ := hrun
    obtain ⟨-,hv⟩ := step_wired he
    cases hv with
    | run hs ha =>
      rw [ha.signals] at hm
      rcases List.mem_append.mp hm with hm | hm
      · exact Or.inl hm
      · rcases hs.told hm with h | h
        · exact Or.inr (Or.inl h)
        · exact Or.inr (Or.inr ⟨sid,c,rfl,h⟩)
    | ask ha _ _ _ hsignals =>
      rw [hsignals] at hm
      exact Or.inl hm
    | call => exact Or.inl hm
  · have hstill := step_still hg he (fun sid c h => hrun ⟨sid,c,h⟩)
    rw [hstill.signals] at hm
    exact Or.inl hm

/-- A newcomer is told only of videos that are published and not switched off. -/
theorem newcomer_told (hg : Grounded s) (he : step s e = some s') {u : UserID} {channelID : ChannelID}
    {i : TrackInfo} (hm : .trackPublishedTo u channelID i ∈ s'.signals) :
    .trackPublishedTo u channelID i ∈ s.signals ∨
      ∃ p source k, i = s.trackInfo (s.wire p).userID source k ∧
        (s.wire p).published.lookup source = some k ∧ (s.link k).kind = .video ∧
        (s.wire p).publishState.lookup source ≠ some false := by
  rcases step_told hg he hm with h | h | ⟨sid,c,-,h⟩
  · exact Or.inl h
  · cases h
  · cases h with
    | snapshot hk hi =>
      obtain ⟨source,k,h⟩ := mem_videoTrackInfos hi
      exact Or.inr ⟨_,source,k,h⟩

/-- Only `setPublishState` records a state. -/
theorem step_publishState (hg : Grounded s) (he : step s e = some s') :
    (∀ x, (s'.wire x).publishState = (s.wire x).publishState) ∨
      ∃ t y source active, e = .proceed t ∧ s.calls t = .setPublishState y source active ∧
        ∀ x, (s'.wire x).publishState = if x = y then (s.wire y).publishState.insert source active
          else (s.wire x).publishState := by
  obtain ⟨-,hv⟩ := step_wired he
  cases hv with
  | run hs ha =>
    left
    intro x
    obtain ⟨l,hl,-⟩ := asked_eq _ x _
    rw [ha.wire,hl]
    dsimp only
    split
    · rename_i hx
      rw [hs.publishState,hx]
    · rfl
  | @router re r w _ hroutes hw =>
    left
    intro x
    rw [hw]
    rcases hroutes.eq_or x with hx | ⟨t,u,ch,k,-,hn,hx⟩ | ⟨t,q,-,-,hx⟩
    · rw [hx]
    · obtain ⟨q,hq⟩ := hg.fresh x hn
      rw [hx,hq]
      rfl
    · obtain ⟨l,b,hl,-⟩ := (s.wire x).close_eq
      rw [hx,hl]
  | @ask _ sid fn _ _ hw =>
    left
    intro x
    obtain ⟨l,hl,-⟩ := asked_eq (some (sid,fn)) x (s.wire x)
    rw [hw,hl]
  | call => exact Or.inl (fun _ => rfl)
  | @publishState t sid source active hc =>
    refine Or.inr ⟨t,sid,source,active,rfl,hc,fun x => ?_⟩
    have hx := wire_setPeer s sid { s.peers sid with
      publishState := (s.peers sid).publishState.insert source active } x
    by_cases h : x = sid
    · subst h
      rw [if_pos rfl]
      exact congrArg Wiring.publishState (hx.trans (if_pos rfl))
    · rw [if_neg h]
      exact congrArg Wiring.publishState (hx.trans (if_neg h))

end MiniDiscord.SfuMedia
