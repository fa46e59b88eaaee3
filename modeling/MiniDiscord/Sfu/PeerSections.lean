import MiniDiscord.Sfu.System

/-! # What the goroutine of a peer does next

`run_view` names the section at every program point, with the state it leads to. A task
from the queue goes on as `runTask` says.
-/
namespace MiniDiscord.SfuMedia
open SfuRoom SfuTrack SfuPeer

/-- The sections from one program point. -/
inductive RunView (s : State) (sid : SessionID) (c : Choice) : Cont → State → Prop
  | task {fn rest s'} : (s.peers sid).commands = fn :: rest → (s.peers sid).stopped = false →
      (s.setPeer sid { s.peers sid with commands := rest }).runTask sid c fn = some s' →
      RunView s sid c .idle s'
  | scanRoom {os} : s.others sid c.users = some os →
      RunView s sid c .autoSubscribeToExisting (s.setCont sid (.autoSubscribePeers os))
  | scanned : RunView s sid c (.autoSubscribePeers []) (s.setCont sid .sendTrackSnapshot)
  | scanPeer {o os} : s.rangesPublished o c.sources = true →
      RunView s sid c (.autoSubscribePeers (o :: os))
        (s.setCont sid (.autoSubscribeTracks (s.peers o).userID (s.audioTracks o c.sources) os))
  | peerScanned {u os} :
      RunView s sid c (.autoSubscribeTracks u [] os) (s.setCont sid (.autoSubscribePeers os))
  | existing {u pub pubs os} : (s.tracks pub).yields c.rid = true →
      RunView s sid c (.autoSubscribeTracks u (pub :: pubs) os)
        ((s.setCont sid (.autoSubscribeTracks u pubs os)).doSubscribe sid u pub .high c)
  | snapshotRoom {os} : s.others sid c.users = some os →
      RunView s sid c .sendTrackSnapshot (s.setCont sid (.snapshotPeers os))
  | snapshotSent : RunView s sid c (.snapshotPeers []) (s.setCont sid .idle)
  | snapshotPeer {o os} : s.rangesPublished o c.sources = true →
      RunView s sid c (.snapshotPeers (o :: os)) ((s.setCont sid (.snapshotPeers os)).send
        ((s.videoTrackInfos o c.sources).map
          (.trackPublishedTo (s.peers sid).userID (s.peers sid).channelID)))
  | addLayer {pub rid codec existed} : RunView s sid c (.addLayer pub rid codec existed)
      ((s.setTrack pub ((s.tracks pub).addLayer rid codec)).setCont sid
        (if existed then .idle else .announce pub))
  | announce {pub} : RunView s sid c (.announce pub)
      ((s.setCont sid (if (s.tracks pub).kind = .audio then .notifyOthers pub else .idle)).send
        [.trackPublished (s.peers sid).channelID
          (s.trackInfo (s.peers sid).userID (s.tracks pub).source pub)])
  | notifyRoom {pub os} : s.others sid c.users = some os →
      RunView s sid c (.notifyOthers pub) (s.setCont sid (.subscribeOthers pub os))
  | notified {pub} : RunView s sid c (.subscribeOthers pub []) (s.setCont sid .idle)
  | subscribeOther {pub o os} : RunView s sid c (.subscribeOthers pub (o :: os))
      ((s.setCont sid (.subscribeOthers pub os)).enqueue o
        (.doSubscribe (s.peers sid).userID pub .high))
  | subscribeVideo {u pub quality} : (s.tracks pub).yields c.rid = true →
      RunView s sid c (.subscribeVideo u pub quality)
        ((s.setCont sid .idle).doSubscribe sid u pub quality c)
  | closeSub {key rest} : RunView s sid c (.closeSubs (key :: rest)) (s.closeSub sid key rest)
  | subsClosed : s.rangesPublished sid c.sources = true →
      RunView s sid c (.closeSubs [])
        (s.setCont sid (.closeTracks (s.publishedTracks sid c.sources)))
  | tracksClosed : RunView s sid c (.closeTracks []) (s.setCont sid .idle)
  | closeTrack {source pub rest} : c.users.toFinset = (s.tracks pub).subs.keys →
      RunView s sid c (.closeTracks ((source,pub) :: rest))
        ((s.setCont sid (.closeSubscribers source c.users rest)).send
          [.trackUnpublished (s.peers sid).channelID (s.trackInfo (s.peers sid).userID source pub)])
  | subscribersClosed {source rest} :
      RunView s sid c (.closeSubscribers source [] rest) (s.setCont sid (.closeTracks rest))
  | closeSubscriber {source u us rest} : RunView s sid c (.closeSubscribers source (u :: us) rest)
      ((s.setCont sid (.closeSubscribers source us rest)).closeSubscriber sid source u)

/-- The inversion of `run`. -/
theorem run_view {s s' : State} {sid : SessionID} {c : Choice} (he : s.run sid c = some s') :
    RunView s sid c (s.peers sid).cont s' := by
  have hmap : ∀ {k : Cont} {o : Option (List SessionID)} {f : List SessionID → State},
      o.map f = some s' → (∀ os, o = some os → RunView s sid c k (f os)) → RunView s sid c k s' := by
    intro k o f h hview
    obtain ⟨os,ho,rfl⟩ := Option.map_eq_some_iff.mp h
    exact hview os ho
  cases hk : (s.peers sid).cont with
  | idle =>
    simp only [State.run, hk] at he
    split at he
    · cases he
    · split at he
      · cases he
      · refine .task ‹_› (Bool.eq_false_iff.mpr ‹_›) ?_
        rw [← hk] at he
        exact he
  | autoSubscribeToExisting =>
    simp only [State.run, hk] at he
    exact hmap he (fun os ho => .scanRoom ho)
  | autoSubscribePeers os =>
    cases os with
    | nil =>
      simp only [State.run, hk] at he
      cases he
      exact .scanned
    | cons o os =>
      simp only [State.run, hk] at he
      split at he <;> cases he
      exact .scanPeer ‹_›
  | autoSubscribeTracks u pubs os =>
    cases pubs with
    | nil =>
      simp only [State.run, hk] at he
      cases he
      exact .peerScanned
    | cons pub pubs =>
      simp only [State.run, hk] at he
      split at he <;> cases he
      exact .existing ‹_›
  | sendTrackSnapshot =>
    simp only [State.run, hk] at he
    exact hmap he (fun os ho => .snapshotRoom ho)
  | snapshotPeers os =>
    cases os with
    | nil =>
      simp only [State.run, hk] at he
      cases he
      exact .snapshotSent
    | cons o os =>
      simp only [State.run, hk] at he
      split at he <;> cases he
      exact .snapshotPeer ‹_›
  | addLayer pub rid codec existed =>
    simp only [State.run, hk] at he
    cases he
    exact .addLayer
  | announce pub =>
    simp only [State.run, hk] at he
    cases he
    exact .announce
  | notifyOthers pub =>
    simp only [State.run, hk] at he
    exact hmap he (fun os ho => .notifyRoom ho)
  | subscribeOthers pub os =>
    cases os with
    | nil =>
      simp only [State.run, hk] at he
      cases he
      exact .notified
    | cons o os =>
      simp only [State.run, hk] at he
      cases he
      exact .subscribeOther
  | subscribeVideo u pub q =>
    simp only [State.run, hk] at he
    split at he <;> cases he
    exact .subscribeVideo ‹_›
  | closeSubs keys =>
    cases keys with
    | nil =>
      simp only [State.run, hk] at he
      split at he <;> cases he
      exact .subsClosed ‹_›
    | cons key rest =>
      simp only [State.run, hk] at he
      cases he
      exact .closeSub
  | closeTracks pubs =>
    cases pubs with
    | nil =>
      simp only [State.run, hk] at he
      cases he
      exact .tracksClosed
    | cons sp rest =>
      simp only [State.run, hk] at he
      split at he
      · rename_i hu
        cases he
        exact .closeTrack hu.2
      · cases he
  | closeSubscribers source users rest =>
    cases users with
    | nil =>
      simp only [State.run, hk] at he
      cases he
      exact .subscribersClosed
    | cons u us =>
      simp only [State.run, hk] at he
      cases he
      exact .closeSubscriber

end MiniDiscord.SfuMedia
