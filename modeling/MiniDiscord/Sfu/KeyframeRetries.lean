import Mathlib.Data.List.Pairwise
import MiniDiscord.Sfu.LayerTarget
import MiniDiscord.Sfu.KeyframeGating

/-! # Key frames that are asked for until they come

A published track at work, and beside it what its key frames are asked with: the
requests that the calls of the track owe their callers, the retries with their timers,
and the time at which every layer's goroutine has last marked a key frame. Time is in
milliseconds. A PLI may get lost, and a key frame may come at any moment.
-/
namespace MiniDiscord.SfuTrack

/-- With a layer there, a quality resolves to a layer. -/
theorem resolveRID_mem_of_layer {t : PublishedTrack} {q : Quality} {first : RID}
    (hn : t.layers.keys.Nonempty) (hy : t.yields first = true) :
    t.resolveRID q first ∈ t.layers.keys := by
  have hne : GoMap.isEmpty t.layers = false := by simpa [GoMap.isEmpty] using hn.ne_empty
  have hf : first ∈ t.layers.keys := by
    simpa [PublishedTrack.yields, hne, Finmap.mem_keys] using hy
  rw [PublishedTrack.resolveRID,if_neg (by rw [hne]; exact Bool.false_ne_true)]
  split
  · exact hf
  · cases hp : (preferredRIDOrder q).find? (fun rid => decide (rid ∈ t.layers)) with
    | none => exact hf
    | some rid =>
      have hm := List.find?_some hp
      exact Finmap.mem_keys.mpr (of_decide_eq_true hm)

namespace TrackSubscriber

theorem pendingRID_of_pending {sub : TrackSubscriber} {rid : RID} (h : sub.pending = some rid) :
    sub.pendingRID = rid := by
  rw [pending] at h
  split at h <;> cases h
  rfl

/-- A subscriber does not wait for the layer it is on. -/
def Elsewhere (sub : TrackSubscriber) : Prop := ∀ rid, sub.pending = some rid → sub.active ≠ some rid

theorem elsewhere_of_pendingRID {sub sub' : TrackSubscriber} {target : RID} (h : sub.Elsewhere)
    (hh : sub'.hasActive = sub.hasActive) (ha : sub'.activeRID = sub.activeRID)
    (hp : sub'.pendingRID = sub.pendingRID ∨
      sub'.pendingRID = target ∧ (sub.hasActive = false ∨ sub.activeRID ≠ target)) :
    sub'.Elsewhere := by
  intro rid hrid
  rcases hp with hp | ⟨hp,hn⟩
  · rw [pending,hh,hp] at hrid
    rw [active,hh,ha]
    exact h rid hrid
  · obtain rfl := (pendingRID_of_pending hrid).symm.trans hp
    rw [active,hh,ha]
    rcases hn with hn | hn
    · simp [hn]
    · split
      · exact fun he => hn (Option.some.inj he)
      · simp

/-- The subscriber is to be switched by the key frame that it waits for. -/
theorem pending_accept {sub sub' : TrackSubscriber} {rid : RID} {starts : Bool}
    (ha : sub.accept rid true = some (sub',starts)) (h : sub.Elsewhere) {r : RID}
    (hp : sub'.pending = some r) : r ≠ rid ∧ sub.pending = some r := by
  rcases accept_cases ha with ⟨hact,rfl⟩ | ⟨_,_,_,rfl⟩
  · refine ⟨?_,hp⟩
    rintro rfl
    exact h r hp hact
  · rw [pending,if_pos ⟨rfl,rfl⟩] at hp
    cases hp

end TrackSubscriber
end MiniDiscord.SfuTrack

namespace MiniDiscord.SfuForwarding
open SfuRoom SfuTrack Transition
variable {s s' : State} {e : Event} {u : UserID}

/-- The layer whose key frame the next section of a call has its caller ask for:
`setDegraded` only where it changed the pending layer. -/
def State.owes (s : State) (t : CallID) : Option RID :=
  match s.calls t with
  | .insertSubscriber _ _ targetRID _ => some targetRID
  | .setSubscriberQuality _ _ targetRID => some targetRID
  | .setDegraded u targetRID =>
    match s.sub u with
    | none => none
    | some sub =>
      if sub.pendingRID ≠ targetRID ∧ (sub.hasActive = false ∨ sub.activeRID ≠ targetRID) then
        some targetRID
      else none
  | _ => none

/-- Whoever starts to wait for a layer is owed a request for it. -/
theorem pending_step (he : step s e = some s') {sub' : TrackSubscriber} {rid : RID}
    (hs' : s'.sub u = some sub') (hp : sub'.pending = some rid) :
    (∃ sub, s.sub u = some sub ∧ sub.pending = some rid) ∨
      ∃ t first, e = .proceed t first ∧ s.owes t = some rid := by
  rcases step_sub he u with hsame | ⟨sub'',hs'',hc⟩
  · exact .inl ⟨sub',hsame ▸ hs',hp⟩
  · rw [hs''] at hs'
    cases hs'
    generalize hold : s.sub u = old at hc
    cases hc with
    | @created t first q target codec hc =>
      refine .inr ⟨t,first,rfl,?_⟩
      rw [State.owes,hc]
      exact congrArg some (TrackSubscriber.pendingRID_of_pending hp)
    | @requested t first q target sub hc =>
      by_cases hn : sub.hasActive = false ∨ sub.activeRID ≠ target
      · refine .inr ⟨t,first,rfl,?_⟩
        have hr := TrackSubscriber.pendingRID_of_pending hp
        simp only [TrackSubscriber.setQuality,if_pos hn] at hr
        simp only [State.owes,hc,hr]
      · refine .inl ⟨sub,rfl,?_⟩
        simp only [TrackSubscriber.setQuality,TrackSubscriber.pending,if_neg hn] at hp
        exact hp
    | @degraded t degraded sub => exact .inl ⟨sub,rfl,hp⟩
    | @retargeted t first target sub hc =>
      rw [TrackSubscriber.retarget] at hp
      split at hp
      · rename_i hn
        refine .inr ⟨t,first,rfl,?_⟩
        obtain rfl : target = rid := TrackSubscriber.pendingRID_of_pending hp
        simp only [State.owes,hc,hold]
        exact if_pos hn
      · exact .inl ⟨sub,rfl,hp⟩
    | @accepted t first r packet isKeyframe us sub _ starts hc ha =>
      refine .inl ⟨sub,rfl,?_⟩
      rcases TrackSubscriber.accept_cases ha with ⟨_,rfl⟩ | ⟨_,_,_,rfl⟩
      · exact hp
      · rw [TrackSubscriber.pending,if_pos ⟨rfl,rfl⟩] at hp
        cases hp

theorem elsewhere_step (he : step s e = some s') (h : ∀ u sub, s.sub u = some sub → sub.Elsewhere)
    (u : UserID) (sub' : TrackSubscriber) (hs' : s'.sub u = some sub') : sub'.Elsewhere := by
  rcases step_sub he u with hsame | ⟨sub'',hs'',hc⟩
  · exact h u sub' (hsame ▸ hs')
  · rw [hs''] at hs'
    cases hs'
    generalize hold : s.sub u = old at hc
    cases hc with
    | created => exact fun rid _ => by simp [TrackSubscriber.active]
    | @requested t first q target sub hc =>
      have hp : (sub.setQuality q target).pendingRID = sub.pendingRID ∨
          (sub.setQuality q target).pendingRID = target ∧
            (sub.hasActive = false ∨ sub.activeRID ≠ target) := by
        simp only [TrackSubscriber.setQuality]
        split
        · exact .inr ⟨rfl,‹_›⟩
        · exact .inl rfl
      exact TrackSubscriber.elsewhere_of_pendingRID (h u sub hold) rfl rfl hp
    | @degraded t degraded sub =>
      exact h u sub hold
    | @retargeted t first target sub hc =>
      rw [TrackSubscriber.retarget]
      split
      · rename_i hn
        exact TrackSubscriber.elsewhere_of_pendingRID (h u sub hold) rfl rfl (.inr ⟨rfl,hn.2⟩)
      · exact h u sub hold
    | @accepted t first r packet isKeyframe us sub _ starts hc ha =>
      rcases TrackSubscriber.accept_cases ha with ⟨_,rfl⟩ | ⟨_,_,_,rfl⟩
      · exact h u _ hold
      · intro rid hp
        rw [TrackSubscriber.pending,if_pos ⟨rfl,rfl⟩] at hp
        cases hp

/-- The layer that a call has resolved its quality to. -/
def Call.target : Call → Option RID
  | .newSubscriber _ _ targetRID => some targetRID
  | .insertSubscriber _ _ targetRID _ => some targetRID
  | .setSubscriberQuality _ _ targetRID => some targetRID
  | .setDegraded _ targetRID => some targetRID
  | _ => none

/-- The track has a layer, and the calls aim at layers it has. -/
structure Targeted (s : State) : Prop where
  layers : s.track.layers.keys.Nonempty
  calls : ∀ t rid, (s.calls t).target = some rid → rid ∈ s.track.layers.keys

theorem Targeted.setCall (h : Targeted s) {s₁ : State} {t : CallID} {c : Call}
    (hl : s₁.track.layers = s.track.layers) (hcs : s₁.calls = s.calls)
    (hc : ∀ rid, c.target = some rid → rid ∈ s.track.layers.keys) : Targeted (s₁.setCall t c) where
  layers := by
    rw [setCall_track,hl]
    exact h.layers
  calls t' rid hr := by
    rw [setCall_calls] at hr
    rw [setCall_track,hl]
    split at hr
    · exact hc rid hr
    · exact h.calls t' rid (hcs ▸ hr)

theorem Targeted.step (h : Targeted s) (he : step s e = some s') : Targeted s' := by
  have hnone : ∀ {c : Call}, c.target = none → ∀ rid, c.target = some rid →
      rid ∈ s.track.layers.keys := by
    intro c hc rid hr
    rw [hc] at hr
    cases hr
  have hres : ∀ {q : Quality} {first : RID}, s.track.yields first = true → ∀ rid,
      some (s.track.resolveRID q first) = some rid → rid ∈ s.track.layers.keys := by
    intro q first hy rid hr
    cases hr
    exact resolveRID_mem_of_layer h.layers hy
  cases step_view he with
  | onTrack => exact ⟨h.layers,h.calls⟩
  | addLayer =>
    have hl := (layers_step he).1
    exact ⟨h.layers.mono hl,fun t rid hr => hl (h.calls t rid hr)⟩
  | newSubscriber _ _ _ _ hy => exact h.setCall rfl rfl (hres hy)
  | @codecCapability t _ _ _ _ hc =>
    exact h.setCall rfl rfl (fun rid hr => h.calls t rid (by rw [hc]; exact hr))
  | insertSubscriber => exact h.setCall rfl rfl (hnone rfl)
  | setSubscriberQuality _ _ hy => exact h.setCall rfl rfl (hres hy)
  | setQuality => exact h.setCall rfl rfl (hnone rfl)
  | unchanged => exact h
  | setDegraded => exact h.setCall rfl rfl (hnone rfl)
  | resolveDegraded _ hy => exact h.setCall rfl rfl (hres hy)
  | retarget => exact h.setCall rfl rfl (hnone rfl)
  | nobody => exact h.setCall rfl rfl (hnone rfl)
  | forwardToSubscribers => exact h.setCall rfl rfl (hnone rfl)
  | forward => exact h.setCall (forward_layers ..) (forward_calls ..) (hnone rfl)
  | forwarded => exact h.setCall rfl rfl (hnone rfl)

/-- What a section makes its caller ask for is a layer the track has. -/
theorem Targeted.owes (h : Targeted s) {t : CallID} {rid : RID} (ho : s.owes t = some rid) :
    rid ∈ s.track.layers.keys := by
  refine h.calls t rid ?_
  unfold State.owes at ho
  split at ho
  · rename_i hc
    rw [hc]
    exact ho
  · rename_i hc
    rw [hc]
    exact ho
  · rename_i hc
    rw [hc]
    split at ho
    · cases ho
    · split at ho
      · exact ho
      · cases ho
  · cases ho

/-- The key frame a subscriber waits for ends its wait. -/
theorem forward_pending {sub sub' : TrackSubscriber} {rid : RID} {packet : Packet}
    (hs : s.sub u = some sub) (h : sub.Elsewhere) (hp : sub.pending = some rid)
    (hs' : (s.forward rid packet true u).sub u = some sub') : sub'.pending ≠ some rid := by
  obtain ⟨sub₁,starts,ha⟩ : ∃ sub₁ starts, sub.accept rid true = some (sub₁,starts) := by
    unfold TrackSubscriber.accept
    split
    · exact ⟨_,_,rfl⟩
    · rw [if_pos ⟨TrackSubscriber.pendingRID_of_pending hp,rfl⟩]
      exact ⟨_,_,rfl⟩
  have hf : (s.forward rid packet true u).sub u = some sub₁ := by
    unfold State.forward
    rw [hs,Option.bind_some,ha]
    exact setSub_sub_self _ _ _
  rw [hf] at hs'
  cases hs'
  exact fun hp' => (TrackSubscriber.pending_accept ha h hp').1 rfl

theorem kind_step (he : step s e = some s') : s'.track.kind = s.track.kind := by
  cases step_view he with
  | forward =>
    rw [setCall_track]
    unfold State.forward
    split <;> rfl
  | _ => rfl

end MiniDiscord.SfuForwarding

namespace MiniDiscord.SfuKeyframes
open SfuRoom SfuTrack SfuForwarding Transition

/-- In milliseconds. -/
def keyframeRetryInterval : ℕ := 1500

def keyframeRetryMaxAttempts : ℕ := 10

/-- Where a request with retries is: before a PLI, waiting for its timer, ended by a key frame,
or ended after the last attempt. -/
inductive Phase where
  | sending
  | waiting (due : ℕ)
  | answered
  | givenUp
  deriving DecidableEq

/-- A call of `requestKeyframeForRIDWithRetry` and its retries. `gen` tells the layers apart that
the track had under the RID, `plis` are the times of the PLIs. -/
structure Request where
  rid : RID
  gen : ℕ
  since : ℕ
  attempt : ℕ := 1
  phase : Phase := .sending
  plis : List ℕ := []
  deriving DecidableEq

/-- `gens` numbers the layer that the track has under each RID. A call may owe its caller a
request for a key frame, and a layer's goroutine may have marked one that it has still to
forward. -/
structure State where
  fwd : SfuForwarding.State
  now : ℕ := 0
  gens : RID → ℕ := fun _ => 0
  lastKeyframeAt : RID → ℕ → ℕ := fun _ _ => 0
  owed : CallID → Option RID := fun _ => none
  marked : CallID → Option RID := fun _ => none
  requests : List Request := []

def start (t : PublishedTrack) : State := { fwd := SfuForwarding.start t }

inductive Event where
  | track (e : SfuForwarding.Event)
  | markKeyframe (t : CallID) (rid : RID) (gen : ℕ)
  /-- The caller of `t` asks for the key frame. -/
  | request (t : CallID)
  /-- `setPublishState` asks for one of every layer. -/
  | requestLayer (rid : RID)
  | send (k : ℕ)
  | fire (k : ℕ)
  | tick (d : ℕ)
  deriving DecidableEq

/-- The layer whose key frame an event begins to forward. -/
def keyframe : SfuForwarding.Event → Option RID
  | .forwardToSubscribers _ rid _ true _ => some rid
  | _ => none

namespace Request

/-- The section of `requestKeyframeForRIDWithRetry` and of `scheduleKeyframeRetry` that sends
the PLI and sets the timer. -/
def send (r : Request) (now : ℕ) : Request :=
  { r with
    plis := r.plis ++ [now]
    phase := if r.attempt > keyframeRetryMaxAttempts then .givenUp
      else .waiting (now + keyframeRetryInterval) }

/-- The callback of the timer, up to the PLI. -/
def fire (r : Request) (lastKeyframeAt : ℕ) : Request :=
  if r.since < lastKeyframeAt then { r with phase := .answered }
  else { r with phase := .sending, attempt := r.attempt + 1 }

end Request

namespace State

/-- The step `e` of the track, which leads to `fwd`. -/
def follow (s : State) (e : SfuForwarding.Event) (fwd : SfuForwarding.State) : State :=
  { s with
    fwd := fwd
    gens := match e, s.fwd.adding with
      | .addLayer, some (rid,_) => Function.update s.gens rid (s.gens rid + 1)
      | _, _ => s.gens
    owed := match e with
      | .proceed t _ => Function.update s.owed t (s.fwd.owes t)
      | _ => s.owed
    marked := match e.call with
      | some t => Function.update s.marked t none
      | none => s.marked }

/-- `requestKeyframeForRIDWithRetry`, up to the PLI. -/
def ask (s : State) (rid : RID) : State :=
  if s.fwd.track.kind = .video ∧ rid ∈ s.fwd.track.layers then
    { s with requests := s.requests ++ [{ rid := rid, gen := s.gens rid, since := s.now }] }
  else s

def setRequest (s : State) (k : ℕ) (r : Request) : State :=
  { s with requests := s.requests.set k r }

def step (s : State) : Event → Option State
  | .track e =>
    -- a call is over when its caller has asked, and a key frame is marked before it is forwarded
    if e.call.bind s.owed = none ∧
        e.call.bind s.marked = (if s.fwd.track.kind = .video then keyframe e else none) then
      (SfuForwarding.step s.fwd e).map (s.follow e)
    else none
  | .markKeyframe t rid gen =>
    if s.fwd.calls t = .idle ∧ s.owed t = none ∧ s.marked t = none ∧ s.fwd.track.kind = .video ∧
        rid ∈ s.fwd.track.layers ∧ gen ≤ s.gens rid then
      some { s with
        lastKeyframeAt := Function.update s.lastKeyframeAt rid
          (Function.update (s.lastKeyframeAt rid) gen s.now)
        marked := Function.update s.marked t (some rid) }
    else none
  | .request t =>
    (s.owed t).map (fun rid => { s.ask rid with owed := Function.update s.owed t none })
  | .requestLayer rid => if rid ∈ s.fwd.track.layers then some (s.ask rid) else none
  | .send k =>
    match s.requests[k]? with
    | some r => if r.phase = .sending then some (s.setRequest k (r.send s.now)) else none
    | none => none
  | .fire k =>
    match s.requests[k]? with
    | some r =>
      match r.phase with
      | .waiting due =>
        if due ≤ s.now then some (s.setRequest k (r.fire (s.lastKeyframeAt r.rid r.gen))) else none
      | _ => none
    | none => none
  | .tick d => some { s with now := s.now + d }

end State

variable {s s' : State} {e : Event}

/-- Everything one step can do. -/
theorem step_cases (he : s.step e = some s') :
    (∃ ev fwd, e = .track ev ∧ SfuForwarding.step s.fwd ev = some fwd ∧ s' = s.follow ev fwd ∧
      ev.call.bind s.owed = none ∧
      ev.call.bind s.marked = if s.fwd.track.kind = .video then keyframe ev else none) ∨
    (∃ t rid gen, e = .markKeyframe t rid gen ∧ s.fwd.calls t = .idle ∧ s.owed t = none ∧
      s.marked t = none ∧ s' = { s with
        lastKeyframeAt := Function.update s.lastKeyframeAt rid
          (Function.update (s.lastKeyframeAt rid) gen s.now)
        marked := Function.update s.marked t (some rid) }) ∨
    (∃ t rid, e = .request t ∧ s.owed t = some rid ∧
      s' = { s.ask rid with owed := Function.update s.owed t none }) ∨
    (∃ rid, e = .requestLayer rid ∧ s' = s.ask rid) ∨
    (∃ k r, e = .send k ∧ s.requests[k]? = some r ∧ r.phase = .sending ∧
      s' = s.setRequest k (r.send s.now)) ∨
    (∃ k r due, e = .fire k ∧ s.requests[k]? = some r ∧ r.phase = .waiting due ∧ due ≤ s.now ∧
      s' = s.setRequest k (r.fire (s.lastKeyframeAt r.rid r.gen))) ∨
    (∃ d, e = .tick d ∧ s' = { s with now := s.now + d }) := by
  cases e with
  | track ev =>
    obtain ⟨⟨ho,hm⟩,h⟩ := Option.ite_none_right_eq_some.mp he
    obtain ⟨fwd,hf,rfl⟩ := Option.map_eq_some_iff.mp h
    exact .inl ⟨ev,fwd,rfl,hf,rfl,ho,hm⟩
  | markKeyframe t rid gen =>
    obtain ⟨⟨hi,ho,hm,_⟩,h⟩ := Option.ite_none_right_eq_some.mp he
    cases h
    exact .inr (.inl ⟨t,rid,gen,rfl,hi,ho,hm,rfl⟩)
  | request t =>
    obtain ⟨rid,ho,rfl⟩ := Option.map_eq_some_iff.mp he
    exact .inr (.inr (.inl ⟨t,rid,rfl,ho,rfl⟩))
  | requestLayer rid =>
    obtain ⟨_,h⟩ := Option.ite_none_right_eq_some.mp he
    cases h
    exact .inr (.inr (.inr (.inl ⟨rid,rfl,rfl⟩)))
  | send k =>
    simp only [State.step] at he
    split at he
    · split at he <;> cases he
      exact .inr (.inr (.inr (.inr (.inl ⟨k,_,rfl,‹_›,‹_›,rfl⟩))))
    · cases he
  | fire k =>
    simp only [State.step] at he
    split at he
    · split at he
      · split at he <;> cases he
        exact .inr (.inr (.inr (.inr (.inr (.inl ⟨k,_,_,rfl,‹_›,‹_›,‹_›,rfl⟩)))))
      · cases he
    · cases he
  | tick d =>
    cases he
    exact .inr (.inr (.inr (.inr (.inr (.inr ⟨d,rfl,rfl⟩)))))

/-- What holds of the track beside every run. -/
structure Tracked (s : State) : Prop where
  kind : s.fwd.track.kind = .video
  targeted : Targeted s.fwd
  elsewhere : ∀ u sub, s.fwd.sub u = some sub → sub.Elsewhere
  owed : ∀ t rid, s.owed t = some rid → rid ∈ s.fwd.track.layers.keys
  clock : ∀ rid gen, s.lastKeyframeAt rid gen ≤ s.now

@[simp] theorem ask_fwd (rid : RID) : (s.ask rid).fwd = s.fwd := by
  unfold State.ask
  split <;> rfl

@[simp] theorem ask_owed (rid : RID) : (s.ask rid).owed = s.owed := by
  unfold State.ask
  split <;> rfl

@[simp] theorem ask_marked (rid : RID) : (s.ask rid).marked = s.marked := by
  unfold State.ask
  split <;> rfl

@[simp] theorem ask_now (rid : RID) : (s.ask rid).now = s.now := by
  unfold State.ask
  split <;> rfl

@[simp] theorem ask_lastKeyframeAt (rid : RID) : (s.ask rid).lastKeyframeAt = s.lastKeyframeAt := by
  unfold State.ask
  split <;> rfl

theorem mem_ask_requests {r : Request} (hr : r ∈ s.requests) (rid : RID) :
    r ∈ (s.ask rid).requests := by
  unfold State.ask
  split
  · exact List.mem_append_left _ hr
  · exact hr

section Follow
variable {ev : SfuForwarding.Event} {fwd : SfuForwarding.State} {t : CallID}

theorem follow_owed (h : ev.call ≠ some t) : (s.follow ev fwd).owed t = s.owed t := by
  simp only [State.follow]
  split
  · exact Function.update_of_ne (fun ht => h (congrArg some ht.symm)) _ _
  · rfl

theorem follow_marked (h : ev.call ≠ some t) : (s.follow ev fwd).marked t = s.marked t := by
  simp only [State.follow]
  cases hc : ev.call with
  | none => rfl
  | some t' => exact Function.update_of_ne (fun ht => h (hc.trans (congrArg some ht.symm))) _ _

end Follow

/-- A request for a layer the track has is made. -/
theorem Tracked.ask_requests (h : Tracked s) {rid : RID} (hr : rid ∈ s.fwd.track.layers.keys) :
    (s.ask rid).requests =
      s.requests ++ [{ rid := rid, gen := s.gens rid, since := s.now }] := by
  rw [State.ask,if_pos ⟨h.kind,Finmap.mem_keys.mp hr⟩]

theorem Tracked.step (h : Tracked s) (he : s.step e = some s') : Tracked s' := by
  obtain ⟨ev,fwd,_,hf,rfl,_,_⟩ | ⟨t,rid,gen,_,_,_,_,rfl⟩ | ⟨t,rid,_,_,rfl⟩ | ⟨rid,_,rfl⟩ |
    ⟨k,r,_,_,_,rfl⟩ | ⟨k,r,due,_,_,_,_,rfl⟩ | ⟨d,_,rfl⟩ := step_cases he
  · refine ⟨(kind_step hf).trans h.kind,h.targeted.step hf,elsewhere_step hf h.elsewhere,?_,h.clock⟩
    intro t rid ho
    have hl := (layers_step hf).1
    simp only [State.follow] at ho
    split at ho
    · rw [Function.update_apply] at ho
      split at ho
      · exact hl (h.targeted.owes ho)
      · exact hl (h.owed t rid ho)
    · exact hl (h.owed t rid ho)
  · refine ⟨h.kind,h.targeted,h.elsewhere,h.owed,fun r g => ?_⟩
    dsimp only
    rw [Function.update_apply]
    split
    · rename_i hr
      rw [Function.update_apply]
      split
      · exact le_rfl
      · exact h.clock rid g
    · exact h.clock r g
  · refine ⟨?_,?_,?_,?_,?_⟩
    · simpa only [ask_fwd] using h.kind
    · simpa only [ask_fwd] using h.targeted
    · simpa only [ask_fwd] using h.elsewhere
    · intro t' rid' ho
      simp only [ask_fwd]
      dsimp only at ho
      rw [Function.update_apply] at ho
      split at ho
      · cases ho
      · exact h.owed t' rid' ho
    · simpa only [ask_lastKeyframeAt,ask_now] using h.clock
  · refine ⟨?_,?_,?_,?_,?_⟩
    · simpa only [ask_fwd] using h.kind
    · simpa only [ask_fwd] using h.targeted
    · simpa only [ask_fwd] using h.elsewhere
    · simpa only [ask_fwd,ask_owed] using h.owed
    · simpa only [ask_lastKeyframeAt,ask_now] using h.clock
  · exact ⟨h.kind,h.targeted,h.elsewhere,h.owed,h.clock⟩
  · exact ⟨h.kind,h.targeted,h.elsewhere,h.owed,h.clock⟩
  · exact ⟨h.kind,h.targeted,h.elsewhere,h.owed,
      fun rid gen => (h.clock rid gen).trans (Nat.le_add_right _ _)⟩

theorem tracked_start {t : PublishedTrack} (hv : t.kind = .video) (hl : t.layers.keys.Nonempty) :
    Tracked (start t) where
  kind := hv
  targeted := ⟨hl,fun _ _ hr => by cases hr⟩
  elsewhere _ _ hs := by cases hs
  owed _ _ ho := by cases ho
  clock _ _ := le_rfl

/-! ## Nobody waits unasked for -/

/-- The key frame of the layer is on its way to the user. -/
def Coming (s : State) (u : UserID) (rid : RID) (t : CallID) : Prop :=
  s.marked t = some rid ∨
    ∃ packet us, s.fwd.calls t = .forwardToSubscribers rid packet true us ∧ u ∈ us

/-- The request asks for the layer, which has had no key frame since. -/
def Asks (s : State) (rid : RID) (r : Request) : Prop :=
  r.rid = rid ∧ s.lastKeyframeAt rid r.gen ≤ r.since ∧ r.phase ≠ .answered

/-- A caller is about to ask for the layer, its key frame is on its way to the user, or a request
for it has not been answered. -/
def Served (s : State) (u : UserID) (rid : RID) : Prop :=
  (∃ t, s.owed t = some rid) ∨ (∃ t, Coming s u rid t) ∨ ∃ r ∈ s.requests, Asks s rid r

variable {u : UserID} {rid : RID}

/-- A step of the track leaves to a waiting user what it waits by. -/
theorem Served.track (h : Served s u rid) (hk : Tracked s) {ev : SfuForwarding.Event}
    {fwd : SfuForwarding.State} (hf : SfuForwarding.step s.fwd ev = some fwd)
    (ho : ev.call.bind s.owed = none)
    (hm : ev.call.bind s.marked = if s.fwd.track.kind = .video then keyframe ev else none)
    {sub sub' : TrackSubscriber} (hs : s.fwd.sub u = some sub) (hp : sub.pending = some rid)
    (hs' : fwd.sub u = some sub') (hp' : sub'.pending = some rid) : Served (s.follow ev fwd) u rid := by
  rw [if_pos hk.kind] at hm
  rcases h with ⟨t,ht⟩ | ⟨t,ht⟩ | hr
  · have hne : ev.call ≠ some t := by
      intro hc
      rw [hc,Option.bind_some,ht] at ho
      cases ho
    exact .inl ⟨t,(follow_owed hne).trans ht⟩
  · refine .inr (.inl ⟨t,?_⟩)
    by_cases hc : ev.call = some t
    · rw [hc,Option.bind_some] at hm
      rcases ht with ht | ⟨packet,us,ht,hu⟩
      · -- the marked key frame goes to everybody who is subscribed
        rw [ht] at hm
        cases ev with
        | forwardToSubscribers t' r packet isKeyframe subs =>
          cases isKeyframe with
          | false => cases hm
          | true =>
            cases hm
            cases hc
            simp only [SfuForwarding.step] at hf
            split at hf <;> cases hf
            rename_i hg
            refine .inr ⟨packet,subs,setCall_calls_self _ _ _,?_⟩
            rw [← List.mem_toFinset,hg.2.2.2]
            exact Finmap.mem_keys.mpr (Finmap.mem_of_lookup_eq_some hs)
        | _ => cases hm
      · cases step_view hf with
        | onTrack => cases hc
        | addLayer => cases hc
        | unchanged => exact .inr ⟨packet,us,ht,hu⟩
        | @forward t' first r packet' isKeyframe v vs hcall =>
          cases hc
          rw [hcall] at ht
          cases ht
          by_cases hv : u = v
          · subst hv
            rw [setCall_sub] at hs'
            exact absurd hp' (forward_pending hs (hk.elsewhere u sub hs) hp hs')
          · refine .inr ⟨packet,vs,setCall_calls_self _ _ _,?_⟩
            exact (List.mem_cons.mp hu).resolve_left hv
        | forwarded hcall =>
          cases hc
          rw [hcall] at ht
          cases ht
          cases hu
        | nobody hcall =>
          cases hc
          rcases hcall with ⟨_,_,hcall⟩ | ⟨_,hcall⟩
          all_goals
            rw [hcall] at ht
            cases ht
        | _ hcall =>
          cases hc
          rw [hcall] at ht
          cases ht
    · rcases ht with ht | ⟨packet,us,ht,hu⟩
      · exact .inl ((follow_marked hc).trans ht)
      · refine .inr ⟨packet,us,?_,hu⟩
        have hcalls : fwd.calls t = s.fwd.calls t :=
          calls_frame (Runs.single hf) (fun e he => by rw [List.mem_singleton.mp he]; exact hc)
        exact hcalls.trans ht
  · exact .inr (.inr hr)

/-- A key frame that is marked answers requests, and is on its way to everybody. -/
theorem Served.marks (h : Served s u rid) {t : CallID} {r : RID} {gen : ℕ} (hm : s.marked t = none) :
    Served { s with
      lastKeyframeAt := Function.update s.lastKeyframeAt r
        (Function.update (s.lastKeyframeAt r) gen s.now)
      marked := Function.update s.marked t (some r) } u rid := by
  rcases h with ho | ⟨t',ht⟩ | ⟨q,hq,hrid,hlast,hphase⟩
  · exact .inl ho
  · refine .inr (.inl ⟨t',ht.imp (fun ht => ?_) id⟩)
    have hne : t' ≠ t := by
      rintro rfl
      rw [hm] at ht
      cases ht
    exact (Function.update_of_ne hne _ _).trans ht
  · by_cases hr : rid = r
    · subst hr
      exact .inr (.inl ⟨t,.inl (Function.update_self _ _ _)⟩)
    · refine .inr (.inr ⟨q,hq,hrid,?_,hphase⟩)
      simpa only [Function.update_of_ne hr] using hlast

theorem Coming.ask {t : CallID} (h : Coming s u rid t) (r : RID) : Coming (s.ask r) u rid t := by
  rw [Coming,ask_marked,ask_fwd]
  exact h

theorem Asks.ask {q : Request} (h : Asks s rid q) (r : RID) : Asks (s.ask r) rid q := by
  rw [Asks,ask_lastKeyframeAt]
  exact h

theorem Served.ask (h : Served s u rid) (r : RID) : Served (s.ask r) u rid := by
  rcases h with ⟨t,ho⟩ | ⟨t,ht⟩ | ⟨q,hq,ha⟩
  · refine .inl ⟨t,?_⟩
    rw [ask_owed]
    exact ho
  · exact .inr (.inl ⟨t,ht.ask r⟩)
  · exact .inr (.inr ⟨q,mem_ask_requests hq r,ha.ask r⟩)

/-- The request that a call owes is made. -/
theorem Served.request (h : Served s u rid) (hk : Tracked s) {t : CallID} {r : RID}
    (ho : s.owed t = some r) :
    Served { s.ask r with owed := Function.update s.owed t none } u rid := by
  rcases h with ⟨t',ht'⟩ | ⟨t',ht'⟩ | ⟨q,hq,ha⟩
  · by_cases htt : t' = t
    · subst htt
      obtain rfl : r = rid := Option.some.inj (ho.symm.trans ht')
      refine .inr (.inr ⟨{ rid := r, gen := s.gens r, since := s.now },?_,rfl,?_,by simp⟩)
      · exact (hk.ask_requests (hk.owed t' r ho)).symm ▸ List.mem_append_right _ List.mem_cons_self
      · simpa only [ask_lastKeyframeAt] using hk.clock r _
    · exact .inl ⟨t',(Function.update_of_ne htt _ _).trans ht'⟩
  · exact .inr (.inl ⟨t',ht'.ask r⟩)
  · exact .inr (.inr ⟨q,mem_ask_requests hq r,ha.ask r⟩)

/-- A request goes on: one that asks for a layer without a key frame since still does. -/
theorem Served.setRequest (h : Served s u rid) {k : ℕ} {q q' : Request} (hk : s.requests[k]? = some q)
    (hq : Asks s rid q → Asks s rid q') : Served (s.setRequest k q') u rid := by
  rcases h with ho | ht | ⟨r,hr,ha⟩
  · exact .inl ho
  · exact .inr (.inl ht)
  · refine .inr (.inr ?_)
    obtain ⟨i,hi⟩ := List.mem_iff_getElem?.mp hr
    by_cases hik : i = k
    · subst hik
      obtain rfl : q = r := Option.some.inj (hk.symm.trans hi)
      obtain ⟨hlt,_⟩ := List.getElem?_eq_some_iff.mp hi
      exact ⟨q',List.mem_iff_getElem?.mpr ⟨i,List.getElem?_set_self hlt⟩,hq ha⟩
    · exact ⟨r,List.mem_iff_getElem?.mpr ⟨i,(List.getElem?_set_ne (Ne.symm hik)).trans hi⟩,ha⟩

theorem Asks.send {q : Request} (h : Asks s rid q) : Asks s rid (q.send s.now) := by
  refine ⟨h.1,h.2.1,?_⟩
  simp only [Request.send]
  split <;> simp

/-- The timer of a request goes off: without a key frame since, it asks again. -/
theorem Asks.fire {q : Request} (h : Asks s rid q) :
    Asks s rid (q.fire (s.lastKeyframeAt q.rid q.gen)) := by
  have hlast : ¬ q.since < s.lastKeyframeAt q.rid q.gen := by
    rw [h.1]
    exact not_lt.mpr h.2.1
  rw [Request.fire,if_neg hlast]
  exact ⟨h.1,h.2.1,by simp⟩

/-- Nobody waits for a layer whose key frame is neither asked for nor coming. -/
def AllServed (s : State) : Prop :=
  ∀ u sub rid, s.fwd.sub u = some sub → sub.pending = some rid → Served s u rid

theorem AllServed.step (h : AllServed s) (hk : Tracked s) (he : s.step e = some s') :
    AllServed s' := by
  intro u sub' rid hs' hp'
  obtain ⟨ev,fwd,_,hf,rfl,ho,hm⟩ | ⟨t,r,gen,_,_,_,hm,rfl⟩ | ⟨t,r,_,ho,rfl⟩ | ⟨r,_,rfl⟩ |
    ⟨k,q,_,hq,_,rfl⟩ | ⟨k,q,due,_,hq,_,_,rfl⟩ | ⟨d,_,rfl⟩ := step_cases he
  · rcases pending_step hf hs' hp' with ⟨sub,hs,hp⟩ | ⟨t,first,rfl,howes⟩
    · exact (h u sub rid hs hp).track hk hf ho hm hs hp hs' hp'
    · exact .inl ⟨t,(Function.update_self _ _ _).trans howes⟩
  · exact (h u sub' rid hs' hp').marks hm
  · simp only [ask_fwd] at hs'
    exact (h u sub' rid hs' hp').request hk ho
  · rw [ask_fwd] at hs'
    exact (h u sub' rid hs' hp').ask r
  · exact (h u sub' rid hs' hp').setRequest hq Asks.send
  · exact (h u sub' rid hs' hp').setRequest hq Asks.fire
  · exact h u sub' rid hs' hp'

/-! ## The pace of the PLIs -/

/-- The PLIs of a request so far: as many as its attempts, each an interval after the one before,
and its timer an interval after the last. -/
structure Request.Paced (r : Request) (now : ℕ) : Prop where
  since : r.since ≤ now ∧ ∀ p ∈ r.plis, r.since ≤ p
  spaced : r.plis.Pairwise (fun p q => p + keyframeRetryInterval ≤ q)
  phase : match r.phase with
    | .sending => r.plis.length + 1 = r.attempt ∧ r.attempt ≤ keyframeRetryMaxAttempts + 1 ∧
        ∀ p ∈ r.plis, p + keyframeRetryInterval ≤ now
    | .waiting due => r.plis.length = r.attempt ∧ r.attempt ≤ keyframeRetryMaxAttempts ∧
        ∀ p ∈ r.plis, p + keyframeRetryInterval ≤ due
    | .answered => r.plis.length ≤ keyframeRetryMaxAttempts
    | .givenUp => r.plis.length = keyframeRetryMaxAttempts + 1

theorem Request.Paced.send {r : Request} {now : ℕ} (h : r.Paced now) (hp : r.phase = .sending) :
    (r.send now).Paced now := by
  obtain ⟨hsince,hspaced,hphase⟩ := h
  rw [hp] at hphase
  obtain ⟨hlen,hmax,hbefore⟩ := hphase
  refine ⟨⟨hsince.1,fun p hm => ?_⟩,?_,?_⟩
  · rcases List.mem_append.mp hm with hm | hm
    · exact hsince.2 p hm
    · rw [List.mem_singleton.mp hm]
      exact hsince.1
  · refine List.pairwise_append.mpr ⟨hspaced,List.pairwise_singleton _ _,fun p hm q hq => ?_⟩
    rw [List.mem_singleton.mp hq]
    exact hbefore p hm
  · have hlen' : (r.send now).plis.length = r.attempt := by
      rw [Request.send,List.length_append,List.length_singleton,hlen]
    by_cases ha : r.attempt > keyframeRetryMaxAttempts
    · simp only [Request.send,if_pos ha]
      exact hlen'.trans (by omega)
    · simp only [Request.send,if_neg ha]
      refine ⟨hlen',by omega,fun p hm => ?_⟩
      rcases List.mem_append.mp hm with hm | hm
      · exact (hbefore p hm).trans (Nat.le_add_right _ _)
      · rw [List.mem_singleton.mp hm]

theorem Request.Paced.fire {r : Request} {now due last : ℕ} (h : r.Paced now)
    (hp : r.phase = .waiting due) (hdue : due ≤ now) : (r.fire last).Paced now := by
  obtain ⟨hsince,hspaced,hphase⟩ := h
  rw [hp] at hphase
  obtain ⟨hlen,hmax,hbefore⟩ := hphase
  unfold Request.fire
  split
  · exact ⟨hsince,hspaced,by dsimp only; omega⟩
  · refine ⟨hsince,hspaced,?_⟩
    refine ⟨by dsimp only; omega,by dsimp only; omega,fun p hm => (hbefore p hm).trans hdue⟩

theorem Request.Paced.later {r : Request} {now : ℕ} (h : r.Paced now) (d : ℕ) : r.Paced (now + d) := by
  obtain ⟨hsince,hspaced,hphase⟩ := h
  refine ⟨⟨by omega,hsince.2⟩,hspaced,?_⟩
  split <;> rename_i hp <;> rw [hp] at hphase
  · exact ⟨hphase.1,hphase.2.1,fun p hm => (hphase.2.2 p hm).trans (Nat.le_add_right _ _)⟩
  · exact hphase
  · exact hphase
  · exact hphase

/-- Every request is paced, and only a key frame has answered one. -/
def AllPaced (s : State) : Prop :=
  ∀ r ∈ s.requests, r.Paced s.now ∧
    (r.phase = .answered → r.since < s.lastKeyframeAt r.rid r.gen)

theorem AllPaced.ask (h : AllPaced s) (rid : RID) : AllPaced (s.ask rid) := by
  intro r hr
  rw [ask_now,ask_lastKeyframeAt]
  unfold State.ask at hr
  split at hr
  · rcases List.mem_append.mp hr with hr | hr
    · exact h r hr
    · rw [List.mem_singleton.mp hr]
      refine ⟨⟨⟨le_rfl,fun _ hm => (List.not_mem_nil hm).elim⟩,List.Pairwise.nil,?_⟩,by simp⟩
      exact ⟨rfl,Nat.le_add_left 1 _,fun _ hm => (List.not_mem_nil hm).elim⟩
  · exact h r hr

theorem AllPaced.setRequest (h : AllPaced s) {k : ℕ} {q : Request} (hq : q.Paced s.now)
    (ha : q.phase = .answered → q.since < s.lastKeyframeAt q.rid q.gen) :
    AllPaced (s.setRequest k q) := by
  intro r hr
  rcases List.mem_or_eq_of_mem_set hr with hr | rfl
  · exact h r hr
  · exact ⟨hq,ha⟩

theorem AllPaced.step (h : AllPaced s) (hk : Tracked s) (he : s.step e = some s') : AllPaced s' := by
  obtain ⟨ev,fwd,_,_,rfl,_,_⟩ | ⟨t,rid,gen,_,_,_,_,rfl⟩ | ⟨t,rid,_,_,rfl⟩ | ⟨rid,_,rfl⟩ |
    ⟨k,q,_,hq,hp,rfl⟩ | ⟨k,q,due,_,hq,hp,hdue,rfl⟩ | ⟨d,_,rfl⟩ := step_cases he
  · exact h
  · intro r hr
    refine ⟨(h r hr).1,fun ha => ?_⟩
    have hlast := (h r hr).2 ha
    dsimp only
    rw [Function.update_apply]
    split
    · rename_i hrid
      rw [Function.update_apply]
      split
      · exact hlast.trans_le (hk.clock _ _)
      · exact hrid ▸ hlast
    · exact hlast
  · exact h.ask rid
  · exact h.ask rid
  · have hmem := List.mem_of_getElem? hq
    refine h.setRequest ((h q hmem).1.send hp) (fun ha => ?_)
    simp only [Request.send] at ha
    split at ha <;> cases ha
  · have hmem := List.mem_of_getElem? hq
    refine h.setRequest ((h q hmem).1.fire hp hdue) (fun ha => ?_)
    unfold Request.fire at ha ⊢
    split at ha
    · rename_i hlast
      rw [if_pos hlast]
      exact hlast
    · cases ha
  · exact fun r hr => ⟨(h r hr).1.later d,(h r hr).2⟩

variable {t : PublishedTrack} {es : List Event}

/-- In every run of a video track that has a layer, with peers that subscribe and change their
quality, receivers that degrade and recover, layers that are added or replaced, and key frames
at any moment: for each subscriber that waits for a layer, a caller is about to ask for its key
frame, or the key frame is on its way to the subscriber, or there is a request without a key
frame since, which will send a PLI or has its timer armed until it has sent eleven. -/
theorem waiting_served (hv : t.kind = .video) (hl : t.layers.keys.Nonempty)
    (hr : Runs State.step (start t) es s) {u : UserID} {sub : TrackSubscriber} {rid : RID}
    (hs : s.fwd.sub u = some sub) (hp : sub.pending = some rid) :
    (∃ t, s.owed t = some rid) ∨
    (∃ t, s.marked t = some rid ∨
      ∃ packet us, s.fwd.calls t = .forwardToSubscribers rid packet true us ∧ u ∈ us) ∨
    ∃ r ∈ s.requests, r.rid = rid ∧ s.lastKeyframeAt rid r.gen ≤ r.since ∧
      (r.phase = .sending ∨ (∃ due, r.phase = .waiting due) ∨
        r.phase = .givenUp ∧ r.plis.length = keyframeRetryMaxAttempts + 1) := by
  have hserved : AllServed s := hr.invariant_of (tracked_start hv hl) (fun _ _ _ hs => by cases hs)
    (fun hk _ he => hk.step he) (fun hk h _ he => h.step hk he)
  have hpaced : AllPaced s := hr.invariant_of (tracked_start hv hl)
    (fun _ hr => (List.not_mem_nil hr).elim) (fun hk _ he => hk.step he)
    (fun hk h _ he => h.step hk he)
  refine (hserved u sub rid hs hp).imp id (Or.imp id ?_)
  rintro ⟨r,hr,hrid,hlast,hphase⟩
  refine ⟨r,hr,hrid,hlast,?_⟩
  have hph := (hpaced r hr).1.phase
  cases hc : r.phase with
  | sending => exact .inl rfl
  | waiting due => exact .inr (.inl ⟨due,rfl⟩)
  | answered => exact absurd hc hphase
  | givenUp =>
    rw [hc] at hph
    exact .inr (.inr ⟨rfl,hph⟩)

/-- In every such run each request sends eleven PLIs at most, none before it was made and each at
least an interval after the one before; and what ends it earlier is a key frame of its layer
that was marked since. -/
theorem request_paced (hv : t.kind = .video) (hl : t.layers.keys.Nonempty)
    (hr : Runs State.step (start t) es s) :
    ∀ r ∈ s.requests, r.plis.length ≤ keyframeRetryMaxAttempts + 1 ∧
      (∀ p ∈ r.plis, r.since ≤ p) ∧ r.plis.Pairwise (fun p q => p + keyframeRetryInterval ≤ q) ∧
      (r.phase = .answered → r.since < s.lastKeyframeAt r.rid r.gen) ∧
      (r.phase = .givenUp → r.plis.length = keyframeRetryMaxAttempts + 1) := by
  intro r hm
  have hpaced : AllPaced s := hr.invariant_of (tracked_start hv hl)
    (fun _ hr => (List.not_mem_nil hr).elim) (fun hk _ he => hk.step he)
    (fun hk h _ he => h.step hk he)
  obtain ⟨⟨hsince,hspaced,hphase⟩,hanswered⟩ := hpaced r hm
  refine ⟨?_,hsince.2,hspaced,hanswered,fun hg => ?_⟩
  · split at hphase <;> omega
  · rw [hg] at hphase
    exact hphase

/-- A camera with one layer. -/
def camera : PublishedTrack :=
  (newPublishedTrack 1 "camera" .video "s1").addLayer RIDLow "VP8"

/-- User 7 subscribes; the first PLI is lost. -/
def lostOnce : List Event :=
  [.track (.newSubscriber 0 7 .high RIDLow),.track (.proceed 0 RIDLow),.track (.proceed 0 RIDLow),
    .request 0,.send 0,.tick 1500,.fire 0,.send 0]

theorem waiting_served_lostOnce :
    ∃ sub, (after State.step (start camera) lostOnce).fwd.sub 7 = some sub ∧
      ((∃ t, (after State.step (start camera) lostOnce).owed t = some RIDLow) ∨
      (∃ t, (after State.step (start camera) lostOnce).marked t = some RIDLow ∨
        ∃ packet us, (after State.step (start camera) lostOnce).fwd.calls t =
          .forwardToSubscribers RIDLow packet true us ∧ 7 ∈ us) ∨
      ∃ r ∈ (after State.step (start camera) lostOnce).requests, r.rid = RIDLow ∧
        (after State.step (start camera) lostOnce).lastKeyframeAt RIDLow r.gen ≤ r.since ∧
        (r.phase = .sending ∨ (∃ due, r.phase = .waiting due) ∨
          r.phase = .givenUp ∧ r.plis.length = keyframeRetryMaxAttempts + 1)) :=
  ⟨⟨"VP8",.high,false,false,"",RIDLow⟩,by rfl,
    waiting_served (by rfl) (by decide)
      (runs_after (by decide +kernel) : Runs State.step (start camera) lostOnce _) (by rfl) (by rfl)⟩

theorem request_paced_lostOnce :
    (after State.step (start camera) lostOnce).requests.length = 1 ∧
      ∀ r ∈ (after State.step (start camera) lostOnce).requests,
        r.plis.length ≤ keyframeRetryMaxAttempts + 1 ∧ (∀ p ∈ r.plis, r.since ≤ p) ∧
          r.plis.Pairwise (fun p q => p + keyframeRetryInterval ≤ q) ∧
          (r.phase = .answered →
            r.since < (after State.step (start camera) lostOnce).lastKeyframeAt r.rid r.gen) ∧
          (r.phase = .givenUp → r.plis.length = keyframeRetryMaxAttempts + 1) :=
  ⟨by decide +kernel,request_paced (by rfl) (by decide)
    (runs_after (by decide +kernel) : Runs State.step (start camera) lostOnce _)⟩

end MiniDiscord.SfuKeyframes
