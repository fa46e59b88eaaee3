import Mathlib.Data.BitVec
import Mathlib.Data.List.Chain
import MiniDiscord.Sfu.KeyframeGating

/-! # One stream out of several layers

What a subscriber is forwarded of the layers it was on, one after the other, and what its
rewriter makes of that. `forwardToSubscribers` does the same, in every run of the track.
-/
namespace MiniDiscord.SfuForwarding
open SfuRoom SfuTrack Transition

/-- A packet that a subscriber is forwarded, as its layer has it. -/
structure Received where
  rid : RID
  packet : Packet
  deriving DecidableEq

/-- A rewriter, and the layer that it rewrote a packet of last. -/
abbrev Rewriting := RtpRewriter × Option RID

namespace Rewriting

/-- A packet of another layer than the last one starts the rewriter anew. -/
def rewriter (o : Rewriting) (r : Received) : RtpRewriter :=
  if o.2 = some r.rid then o.1 else o.1.start r.packet.sequenceNumber r.packet.timestamp

def next (o : Rewriting) (r : Received) : Rewriting := (((o.rewriter r).apply r.packet).2,some r.rid)

/-- The packets as they go out. -/
def rewrite (o : Rewriting) : List Received → List Packet
  | [] => []
  | r :: rs => ((o.rewriter r).apply r.packet).1 :: (o.next r).rewrite rs

theorem rewrite_snoc (o : Rewriting) (rs : List Received) (r : Received) :
    o.rewrite (rs ++ [r]) =
      o.rewrite rs ++ [(((rs.foldl next o).rewriter r).apply r.packet).1] := by
  induction rs generalizing o with
  | nil => rfl
  | cons r' rs ih =>
    rw [List.cons_append,rewrite,rewrite,List.cons_append,ih,List.foldl_cons]

theorem length_rewrite (o : Rewriting) (rs : List Received) : (o.rewrite rs).length = rs.length := by
  induction rs generalizing o with
  | nil => rfl
  | cons r rs ih => rw [rewrite,List.length_cons,List.length_cons,ih]

end Rewriting

/-! ## Continuity -/

/-- Within a layer the output goes on as the input does, and a switch is one packet and one
step of time. -/
structure Advances (a b : Received × Packet) : Prop where
  within : a.1.rid = b.1.rid →
    b.2.sequenceNumber - a.2.sequenceNumber = b.1.packet.sequenceNumber - a.1.packet.sequenceNumber ∧
      b.2.timestamp - a.2.timestamp = b.1.packet.timestamp - a.1.packet.timestamp
  across : a.1.rid ≠ b.1.rid →
    b.2.sequenceNumber - a.2.sequenceNumber = 1 ∧ b.2.timestamp - a.2.timestamp = 3000

/-- The rewriter has just rewritten `r` to `out`. -/
structure Rewrote (o : Rewriting) (r : Received) (out : Packet) : Prop where
  initialized : o.1.initialized = true
  last : o.2 = some r.rid
  seq : out.sequenceNumber = r.packet.sequenceNumber + o.1.seqOffset
  ts : out.timestamp = r.packet.timestamp + o.1.tsOffset
  lastOutSeq : o.1.lastOutSeq = out.sequenceNumber
  lastOutTs : o.1.lastOutTs = out.timestamp

section Next
variable {o : Rewriting} {r b : Received} {out : Packet}

theorem initialized_start (rw : RtpRewriter) (seq : BitVec 16) (ts : BitVec 32) :
    (rw.start seq ts).initialized = true := by
  unfold RtpRewriter.start
  split
  · rfl
  · simpa using ‹¬ rw.initialized = false›

/-- The first packet, or any later one. -/
theorem rewrote_next (h : o.2 = none ∨ o.1.initialized = true) :
    Rewrote (o.next b) b ((o.rewriter b).apply b.packet).1 := by
  refine ⟨?_,rfl,rfl,rfl,rfl,rfl⟩
  change (o.rewriter b).initialized = true
  unfold Rewriting.rewriter
  split
  · rename_i hb
    rcases h with h | h
    · rw [h] at hb
      cases hb
    · exact h
  · exact initialized_start _ _ _

theorem Rewrote.advances (h : Rewrote o r out) :
    Advances (r,out) (b,((o.rewriter b).apply b.packet).1) := by
  constructor
  · intro hrid
    have hrw : o.rewriter b = o.1 := by
      unfold Rewriting.rewriter
      rw [if_pos (h.last.trans (congrArg some hrid))]
    rw [hrw]
    constructor
    · change b.packet.sequenceNumber + o.1.seqOffset - out.sequenceNumber = _
      rw [h.seq]
      exact add_sub_add_right_eq_sub _ _ _
    · change b.packet.timestamp + o.1.tsOffset - out.timestamp = _
      rw [h.ts]
      exact add_sub_add_right_eq_sub _ _ _
  · intro hrid
    have hne : o.2 ≠ some b.rid := by
      rw [h.last]
      exact fun he => hrid (Option.some.inj he)
    have hinit : ¬ o.1.initialized = false := by
      rw [h.initialized]
      exact Bool.noConfusion
    have hrw : o.rewriter b = o.1.start b.packet.sequenceNumber b.packet.timestamp := if_neg hne
    have hseq : (o.rewriter b).seqOffset = out.sequenceNumber + 1 - b.packet.sequenceNumber := by
      rw [hrw,← h.lastOutSeq]
      unfold RtpRewriter.start
      rw [if_neg hinit]
    have hts : (o.rewriter b).tsOffset =
        out.timestamp + simulcastSwitchTimestampStep - b.packet.timestamp := by
      rw [hrw,← h.lastOutTs]
      unfold RtpRewriter.start
      rw [if_neg hinit]
    constructor
    · change b.packet.sequenceNumber + (o.rewriter b).seqOffset - out.sequenceNumber = 1
      rw [hseq,add_sub_cancel,add_sub_cancel_left]
    · change b.packet.timestamp + (o.rewriter b).tsOffset - out.timestamp = 3000
      rw [hts,add_sub_cancel,add_sub_cancel_left]
      rfl

end Next

theorem Rewrote.chain {o : Rewriting} {r : Received} {out : Packet} (h : Rewrote o r out)
    (rs : List Received) : ((r,out) :: rs.zip (o.rewrite rs)).IsChain Advances := by
  induction rs generalizing o r out with
  | nil => exact List.isChain_singleton _
  | cons b rs ih =>
    refine List.IsChain.cons_cons h.advances ?_
    exact ih (rewrote_next (Or.inr h.initialized))

/-- Whatever the layers and the packets are, and wherever the numbers wrap. -/
theorem rewrite_advances (rs : List Received) :
    (rs.zip (Rewriting.rewrite ({},none) rs)).IsChain Advances := by
  cases rs with
  | nil => exact List.isChain_nil
  | cons r rs => exact Rewrote.chain (rewrote_next (Or.inl rfl)) rs

/-! ## The packets of a run -/

/-- What `u` is forwarded by a step. -/
def received (u : UserID) (s : State) : Event → List Received
  | .proceed t _ =>
    match s.calls t with
    | .forwardToSubscribers rid packet isKeyframe (v :: _) =>
      if v = u ∧ ((s.sub u).bind (fun sub => sub.accept rid isKeyframe)).isSome = true then
        [⟨rid,packet⟩]
      else []
    | _ => []
  | _ => []

/-- What `u` is forwarded along a run. -/
def receives (u : UserID) : State → List Event → List Received
  | _, [] => []
  | s, e :: es =>
    received u s e ++ match step s e with
      | none => []
      | some s' => receives u s' es

variable {s s' : State} {e : Event} {u : UserID} {rs : List Received}

/-- The rewriter starts anew with every layer that the subscriber gets on to. -/
theorem accept_starts {sub sub' : TrackSubscriber} {rid : RID} {isKeyframe starts : Bool}
    (h : sub.accept rid isKeyframe = some (sub',starts)) :
    sub'.active = some rid ∧ starts = decide (sub.active ≠ some rid) := by
  unfold TrackSubscriber.accept at h
  split at h
  · rename_i ha
    cases h
    have hact : sub.active = some rid := by
      unfold TrackSubscriber.active
      rw [if_pos ha.1,ha.2]
    exact ⟨hact,(decide_eq_false (not_not.mpr hact)).symm⟩
  · rename_i ha
    split at h <;> cases h
    have hact : sub.active ≠ some rid := by
      unfold TrackSubscriber.active
      split
      · rename_i hactive
        exact fun he => ha ⟨hactive,Option.some.inj he⟩
      · exact Option.some_ne_none rid ∘ Eq.symm
    exact ⟨rfl,(decide_eq_true hact).symm⟩

/-- What was sent to `u` is what a rewriter makes of the packets received, and where it and
the subscription stand. -/
structure Tracked (u : UserID) (s : State) (rs : List Received) : Prop where
  rewriting : rs.foldl Rewriting.next ({},none) =
    (s.rewrites u,(s.sub u).bind TrackSubscriber.active)
  packets : (s.sent u).map Written.packet = Rewriting.rewrite ({},none) rs
  rids : (s.sent u).map Written.rid = rs.map Received.rid

theorem Tracked.congr (h : Tracked u s rs) (hrew : s'.rewrites u = s.rewrites u)
    (hact : (s'.sub u).bind TrackSubscriber.active = (s.sub u).bind TrackSubscriber.active)
    (hsent : s'.sent u = s.sent u) : Tracked u s' rs :=
  ⟨by rw [h.rewriting,hrew,hact],by rw [hsent,h.packets],by rw [hsent,h.rids]⟩

/-- A packet is for `u`, and rewritten, or nothing happens. -/
theorem Tracked.forward (h : Tracked u s rs) (rid : RID) (packet : Packet) (isKeyframe : Bool) :
    Tracked u (s.forward rid packet isKeyframe u) (rs ++
      if ((s.sub u).bind (fun sub => sub.accept rid isKeyframe)).isSome = true then [⟨rid,packet⟩]
      else []) := by
  unfold State.forward
  cases hb : (s.sub u).bind (fun sub => sub.accept rid isKeyframe) with
  | none =>
    rw [if_neg (by simp),List.append_nil]
    exact h
  | some r =>
    obtain ⟨sub',starts⟩ := r
    obtain ⟨sub,hsub,ha⟩ := Option.bind_eq_some_iff.mp hb
    obtain ⟨hact,hstarts⟩ := accept_starts ha
    have hrw : (rs.foldl Rewriting.next ({},none)).rewriter ⟨rid,packet⟩ =
        if starts then (s.rewrites u).start packet.sequenceNumber packet.timestamp
        else s.rewrites u := by
      unfold Rewriting.rewriter
      rw [h.rewriting,hsub,hstarts]
      by_cases hs : sub.active = some rid <;> simp [hs]
    rw [Option.isSome_some,if_pos rfl]
    constructor
    · rw [List.foldl_append,List.foldl_cons,List.foldl_nil,Rewriting.next,hrw]
      change _ = (Function.update s.rewrites u _ u,((s.setSub u sub').sub u).bind _)
      rw [Function.update_self,setSub_sub_self,Option.bind_some,hact]
    · rw [Rewriting.rewrite_snoc,hrw,← h.packets]
      change (Function.update s.sent u _ u).map _ = _
      rw [Function.update_self,List.map_append]
      rfl
    · rw [List.map_append,← h.rids]
      change (Function.update s.sent u _ u).map _ = _
      rw [Function.update_self,List.map_append]
      rfl

theorem received_forward {t : CallID} {first : RID} {rid : RID} {packet : Packet} {isKeyframe : Bool}
    {v : UserID} {us : List UserID} (hc : s.calls t = .forwardToSubscribers rid packet isKeyframe (v :: us)) :
    received u s (.proceed t first) =
      if v = u ∧ ((s.sub u).bind (fun sub => sub.accept rid isKeyframe)).isSome = true then
        [⟨rid,packet⟩]
      else [] := by
  simp only [received, hc]

theorem received_still {t : CallID} {first : RID}
    (hc : ∀ rid packet isKeyframe v us,
      s.calls t ≠ .forwardToSubscribers rid packet isKeyframe (v :: us)) :
    received u s (.proceed t first) = [] := by
  cases hcall : s.calls t with
  | forwardToSubscribers rid packet isKeyframe us =>
    cases us with
    | nil => simp only [received, hcall]
    | cons v us => exact absurd hcall (hc _ _ _ _ _)
  | _ => simp only [received, hcall]

theorem Tracked.step (h : Tracked u s rs) (he : step s e = some s') :
    Tracked u s' (rs ++ received u s e) := by
  cases step_view he with
  | insertSubscriber hc hn =>
    rw [received_still (by rw [hc]; simp),List.append_nil]
    exact h.congr rfl (active_setSub (by rw [hn]; rfl)) rfl
  | setQuality hc hs =>
    rw [received_still (by rw [hc]; simp),List.append_nil]
    exact h.congr rfl (active_setSub (by rw [hs]; rfl)) rfl
  | setDegraded hi hs =>
    change Tracked u _ (rs ++ [])
    rw [List.append_nil]
    exact h.congr rfl (active_setSub (by rw [hs]; rfl)) rfl
  | retarget hc hs =>
    rw [received_still (by rw [hc]; simp),List.append_nil]
    exact h.congr rfl (active_setSub (by rw [hs]; exact active_retarget _ _)) rfl
  | codecCapability hc =>
    rw [received_still (by rw [hc]; simp),List.append_nil]
    exact h.congr rfl rfl rfl
  | resolveDegraded hc =>
    rw [received_still (by rw [hc]; simp),List.append_nil]
    exact h.congr rfl rfl rfl
  | nobody hc =>
    rw [received_still (by rcases hc with ⟨q,target,hc⟩ | ⟨target,hc⟩ <;> rw [hc] <;> simp),
      List.append_nil]
    exact h.congr rfl rfl rfl
  | forwarded hc =>
    rw [received_still (by rw [hc]; simp),List.append_nil]
    exact h.congr rfl rfl rfl
  | @forward t first rid packet isKeyframe v us hc =>
    rw [received_forward hc]
    by_cases hv : v = u
    · subst hv
      rw [if_congr (and_iff_right rfl) rfl rfl]
      exact (h.forward rid packet isKeyframe).congr rfl rfl rfl
    · rw [if_neg (fun hb => hv hb.1),List.append_nil]
      have hu : u ≠ v := fun hu => hv hu.symm
      obtain ⟨hsub,hsent⟩ := forward_other s rid packet isKeyframe v hu
      refine h.congr ?_ (congrArg (fun sub => sub.bind TrackSubscriber.active) hsub) hsent
      change (s.forward rid packet isKeyframe v).rewrites u = s.rewrites u
      unfold State.forward
      split
      · rfl
      · exact Function.update_of_ne hu _ _
  | _ =>
    change Tracked u _ (rs ++ [])
    rw [List.append_nil]
    exact h.congr rfl rfl rfl

theorem Tracked.run {es : List Event} (h : Tracked u s rs) (hr : Runs SfuForwarding.step s es s') :
    Tracked u s' (rs ++ receives u s es) := by
  induction hr generalizing rs with
  | refl =>
    rw [receives,List.append_nil]
    exact h
  | step _ he _ ih =>
    rw [receives,he,← List.append_assoc]
    exact ih (h.step he)

theorem tracked_init {userID : UserID} {source : Source} {kind : RTPCodecType} {owner : SessionID} :
    Tracked u (init userID source kind owner) [] := ⟨rfl,rfl,rfl⟩

/-- What a subscriber is sent is what its rewriter makes of the packets it is forwarded. -/
theorem sent_rewritten {userID : UserID} {source : Source} {kind : RTPCodecType}
    {owner : SessionID} {es : List Event} (h : Runs step (init userID source kind owner) es s)
    (u : UserID) : (s.sent u).map Written.packet =
      Rewriting.rewrite ({},none) (receives u (init userID source kind owner) es) := by
  have ht : Tracked u s ([] ++ receives u _ es) := Tracked.run tracked_init h
  rw [List.nil_append] at ht
  exact ht.packets

/-- The law holds for all packets of all layers, however they are mixed, and `forwardToSubscribers`
keeps to it. -/
theorem rewrite_continuous {userID : UserID} {source : Source} {kind : RTPCodecType}
    {owner : SessionID} {es : List Event} (h : Runs step (init userID source kind owner) es s)
    (u : UserID) :
    (∀ rs : List Received, (rs.zip (Rewriting.rewrite ({},none) rs)).IsChain Advances) ∧
    (s.sent u).map Written.packet =
      Rewriting.rewrite ({},none) (receives u (init userID source kind owner) es) ∧
    ((receives u (init userID source kind owner) es).zip
      ((s.sent u).map Written.packet)).IsChain Advances := by
  refine ⟨rewrite_advances,sent_rewritten h u,?_⟩
  rw [sent_rewritten h u]
  exact rewrite_advances _

theorem rewrite_continuous_switchesUp :
    ∃ s, Runs step (init 1 "camera" .video "s1") switchesUp s ∧
      (s.sent 7).map (fun w => w.packet.sequenceNumber) = [11,12,13] ∧
      ((receives 7 (init 1 "camera" .video "s1") switchesUp).zip
        ((s.sent 7).map Written.packet)).IsChain Advances := by
  obtain ⟨s,hr,hf⟩ := exists_runs_of_exec step (init 1 "camera" .video "s1") switchesUp
    (fun s => (s.sent 7).map (fun w => w.packet.sequenceNumber)) [11,12,13] (by decide +kernel)
  exact ⟨s,hr,hf,(rewrite_continuous hr 7).2.2⟩

end MiniDiscord.SfuForwarding
