import MiniDiscord.Sfu.Rewriting

/-! # Sequence numbers that are given out twice

A packet that is late moves the rewriter's last number back. The next layer then goes on
from there, through the numbers of the packets that the late one was overtaken by.
-/
namespace MiniDiscord.SfuForwarding
open SfuRoom SfuTrack Transition

/-- No two distinct packets among fewer than 2^16 in a row get one number. -/
def Unique (rs : List Received) (out : List Packet) : Prop :=
  ∀ i j r r' p p', i < j → j + 1 < i + 2 ^ 16 → rs[i]? = some r → rs[j]? = some r' → r ≠ r' →
    out[i]? = some p → out[j]? = some p' → p.sequenceNumber ≠ p'.sequenceNumber

/-- How many numbers are used up from a packet on, packet by packet. -/
def used : Received → List Received → BitVec 16
  | _, [] => 0
  | r, b :: rs =>
    (if r.rid = b.rid then b.packet.sequenceNumber - r.packet.sequenceNumber else 1) + used b rs

/-- The last packet of a stretch that begins with `r`. -/
def lastOf (r : Received) (rs : List Received) : Received := (r :: rs).getLast (List.cons_ne_nil r rs)

/-- How far `r` is ahead of the last packet of its stretch. -/
def lead (r : Received) (rs : List Received) : BitVec 16 :=
  r.packet.sequenceNumber - (lastOf r rs).packet.sequenceNumber

/-- `rs` goes on from `r` in the same layer. -/
def Stays (r : Received) (rs : List Received) : Prop := ∀ x ∈ rs, x.rid = r.rid

/-- Within a stretch of one layer no number comes back, and no packet is as far ahead of the last
one of its stretch as the numbers go that are used up after it. -/
structure Spaced (rs : List Received) : Prop where
  within : ∀ pre r mid r' post, rs = pre ++ r :: (mid ++ r' :: post) → mid.length + 2 < 2 ^ 16 →
    r ≠ r' → Stays r (mid ++ [r']) → r.packet.sequenceNumber ≠ r'.packet.sequenceNumber
  across : ∀ pre r mid r' post, rs = pre ++ r :: (mid ++ r' :: post) → mid.length + 2 < 2 ^ 16 →
    r ≠ r' → ∀ same b rest, mid ++ [r'] = same ++ b :: rest → Stays r same → b.rid ≠ r.rid →
      lead r same ≠ used (lastOf r same) (b :: rest)

section Numbers
variable {r r' b : Received} {rs same rest : List Received}

theorem lastOf_cons (r b : Received) (rs : List Received) : lastOf r (b :: rs) = lastOf b rs :=
  List.getLast_cons_cons

theorem lastOf_snoc (r r' : Received) (rs : List Received) : lastOf r (rs ++ [r']) = r' := by
  unfold lastOf
  rw [List.getLast_cons (by simp),List.getLast_concat]

theorem used_append (r : Received) (rs rest : List Received) :
    used r (rs ++ rest) = used r rs + used (lastOf r rs) rest := by
  induction rs generalizing r with
  | nil =>
    rw [List.nil_append,used,zero_add]
    rfl
  | cons b rs ih =>
    rw [List.cons_append,used,used,ih,lastOf_cons,add_assoc]

/-- Within a layer they are as many as the packets say. -/
theorem used_stays (h : Stays r rs) :
    used r rs = (lastOf r rs).packet.sequenceNumber - r.packet.sequenceNumber := by
  induction rs generalizing r with
  | nil => exact (sub_self _).symm
  | cons b rs ih =>
    have hb : b.rid = r.rid := h b List.mem_cons_self
    have hrest : Stays b rs := fun x hx => (h x (List.mem_cons_of_mem _ hx)).trans hb.symm
    rw [used,if_pos hb.symm,ih hrest,lastOf_cons]
    exact sub_add_sub_cancel' _ _ _

/-- A stretch goes on to the end, or is left. -/
theorem stays_or_leaves (r : Received) (rs : List Received) : Stays r rs ∨
    ∃ same b rest, rs = same ++ b :: rest ∧ Stays r same ∧ b.rid ≠ r.rid := by
  induction rs with
  | nil => exact Or.inl (fun x hx => nomatch hx)
  | cons x rs ih =>
    by_cases hx : x.rid = r.rid
    · rcases ih with h | ⟨same,b,rest,he,hs,hb⟩
      · left
        intro y hy
        rcases List.mem_cons.mp hy with rfl | hy
        · exact hx
        · exact h y hy
      · refine Or.inr ⟨x :: same,b,rest,by rw [he]; rfl,?_,hb⟩
        intro y hy
        rcases List.mem_cons.mp hy with rfl | hy
        · exact hx
        · exact hs y hy
    · exact Or.inr ⟨[],x,rs,rfl,fun y hy => (nomatch hy),hx⟩

/-- The numbers come back to that of `r` when as many are used up as `r` is ahead. -/
theorem used_eq_zero_iff (hs : Stays r same) :
    used r (same ++ b :: rest) = 0 ↔ lead r same = used (lastOf r same) (b :: rest) := by
  rw [used_append,used_stays hs,lead,← neg_sub,neg_add_eq_zero]

end Numbers

/-! ## What goes out -/

/-- The last packet rewritten is as far from an earlier one as numbers were used up. -/
theorem Rewrote.sequenceNumber {o : Rewriting} {r : Received} {out : Packet} (h : Rewrote o r out)
    {rs : List Received} {i : ℕ} {p : Packet} (hp : (o.rewrite rs)[i]? = some p) :
    p.sequenceNumber - out.sequenceNumber = used r (rs.take (i + 1)) := by
  induction rs generalizing o r out i with
  | nil => cases hp
  | cons b rs ih =>
    rw [Rewriting.rewrite] at hp
    have hnext := rewrote_next (b := b) (Or.inr h.initialized)
    have hstep : ((o.rewriter b).apply b.packet).1.sequenceNumber - out.sequenceNumber =
        if r.rid = b.rid then b.packet.sequenceNumber - r.packet.sequenceNumber else 1 := by
      split
      · exact (h.advances.within ‹_›).1
      · exact (h.advances.across ‹_›).1
    rw [List.take_succ_cons,used,← hstep]
    cases i with
    | zero =>
      obtain rfl := Option.some.inj hp
      rw [List.take_zero,used,add_zero]
    | succ i =>
      rw [← ih hnext hp]
      exact (sub_add_sub_cancel' _ _ _).symm

/-- The numbers of two packets are one when none are used up from one to the other. -/
theorem sequenceNumber_eq_iff {o : Rewriting} {pre mid post : List Received} {r r' : Received}
    {p p' : Packet} (ho : o.2 = none ∨ o.1.initialized = true)
    (hp : (o.rewrite (pre ++ r :: (mid ++ r' :: post)))[pre.length]? = some p)
    (hp' : (o.rewrite (pre ++ r :: (mid ++ r' :: post)))[pre.length + mid.length + 1]? = some p') :
    p.sequenceNumber = p'.sequenceNumber ↔ used r (mid ++ [r']) = 0 := by
  induction pre generalizing o with
  | nil =>
    rw [List.nil_append,Rewriting.rewrite] at hp hp'
    obtain rfl := Option.some.inj hp
    rw [List.length_nil,zero_add,List.getElem?_cons_succ] at hp'
    have hseq := (rewrote_next ho).sequenceNumber hp'
    have htake : (mid ++ r' :: post).take (mid.length + 1) = mid ++ [r'] := by
      rw [List.take_append,List.take_of_length_le (Nat.le_succ _),Nat.add_sub_cancel_left]
      rfl
    rw [htake] at hseq
    rw [← hseq,sub_eq_zero,eq_comm]
  | cons x pre ih =>
    have hlen : (x :: pre).length + mid.length + 1 = pre.length + mid.length + 1 + 1 := by
      rw [List.length_cons]
      omega
    rw [List.cons_append,Rewriting.rewrite] at hp hp'
    rw [List.length_cons,List.getElem?_cons_succ] at hp
    rw [hlen,List.getElem?_cons_succ] at hp'
    exact ih (Or.inr (rewrote_next ho).initialized) hp hp'

theorem exists_split {α : Type*} {l : List α} {i j : ℕ} {a b : α} (hij : i < j)
    (ha : l[i]? = some a) (hb : l[j]? = some b) : ∃ pre mid post,
      l = pre ++ a :: (mid ++ b :: post) ∧ pre.length = i ∧ i + mid.length + 1 = j := by
  induction l generalizing i j with
  | nil => cases ha
  | cons x l ih =>
    obtain ⟨j,rfl⟩ := Nat.exists_eq_add_of_lt hij
    cases i with
    | zero =>
      obtain rfl := Option.some.inj ha
      rw [Nat.zero_add,List.getElem?_cons_succ] at hb
      obtain ⟨hlt,rfl⟩ := List.getElem?_eq_some_iff.mp hb
      refine ⟨[],l.take j,l.drop (j + 1),?_,rfl,?_⟩
      · rw [List.nil_append,← List.drop_eq_getElem_cons hlt,List.take_append_drop]
      · rw [List.length_take,Nat.min_eq_left hlt.le]
    | succ i =>
      rw [List.getElem?_cons_succ] at ha
      have hj : i + 1 + j + 1 = i + j + 1 + 1 := by omega
      rw [hj,List.getElem?_cons_succ] at hb
      obtain ⟨pre,mid,post,rfl,hpre,hmid⟩ := ih (by omega) ha hb
      exact ⟨x :: pre,mid,post,rfl,by rw [List.length_cons,hpre],by omega⟩

/-- Exactly when nothing leads the last packet of its stretch by what is used up later. -/
theorem unique_iff {o : Rewriting} (ho : o.2 = none ∨ o.1.initialized = true) (rs : List Received) :
    Unique rs (o.rewrite rs) ↔ Spaced rs := by
  constructor
  · intro h
    have hused : ∀ pre r mid r' post, rs = pre ++ r :: (mid ++ r' :: post) →
        mid.length + 2 < 2 ^ 16 → r ≠ r' → used r (mid ++ [r']) ≠ 0 := by
      rintro pre r mid r' post rfl hlen hne
      have hi : (pre ++ r :: (mid ++ r' :: post))[pre.length]? = some r := by simp
      have hj : (pre ++ r :: (mid ++ r' :: post))[pre.length + mid.length + 1]? = some r' := by
        rw [Nat.add_assoc,List.getElem?_append_right (Nat.le_add_right _ _),Nat.add_sub_cancel_left,
          List.getElem?_cons_succ]
        simp
      have hout : ∀ {k : ℕ} {x : Received}, (pre ++ r :: (mid ++ r' :: post))[k]? = some x →
          ∃ p, (o.rewrite (pre ++ r :: (mid ++ r' :: post)))[k]? = some p := by
        intro k x hx
        have hk := (List.getElem?_eq_some_iff.mp hx).1
        rw [← Rewriting.length_rewrite o] at hk
        exact ⟨_,List.getElem?_eq_getElem hk⟩
      obtain ⟨p,hp⟩ := hout hi
      obtain ⟨p',hp'⟩ := hout hj
      intro h0
      exact h _ _ r r' p p' (by omega) (by omega) hi hj hne hp hp'
        ((sequenceNumber_eq_iff ho hp hp').mpr h0)
    constructor
    · intro pre r mid r' post he hlen hne hs heq
      refine hused pre r mid r' post he hlen hne ?_
      rw [used_stays hs,lastOf_snoc,heq,sub_self]
    · intro pre r mid r' post he hlen hne same b rest hmid hs hb heq
      refine hused pre r mid r' post he hlen hne ?_
      rw [hmid]
      exact (used_eq_zero_iff hs).mpr heq
  · intro h i j r r' p p' hij hwin hi hj hne hp hp' heq
    obtain ⟨pre,mid,post,rfl,rfl,rfl⟩ := exists_split hij hi hj
    have h0 := (sequenceNumber_eq_iff ho hp hp').mp heq
    have hlen : mid.length + 2 < 2 ^ 16 := by omega
    rcases stays_or_leaves r (mid ++ [r']) with hs | ⟨same,b,rest,hmid,hs,hb⟩
    · rw [used_stays hs,lastOf_snoc] at h0
      exact h.within pre r mid r' post rfl hlen hne hs (sub_eq_zero.mp h0).symm
    · rw [hmid] at h0
      exact h.across pre r mid r' post rfl hlen hne same b rest hmid hs hb
        ((used_eq_zero_iff hs).mp h0)

/-- In the packets that a subscriber of a track is sent, and for any stream whatever. -/
theorem unique_numbers {userID : UserID} {source : Source} {kind : RTPCodecType}
    {owner : SessionID} {es : List Event} {s : State}
    (h : Runs step (init userID source kind owner) es s) (u : UserID) :
    (∀ rs : List Received, Unique rs (Rewriting.rewrite ({},none) rs) ↔ Spaced rs) ∧
    (Unique (receives u (init userID source kind owner) es) ((s.sent u).map Written.packet) ↔
      Spaced (receives u (init userID source kind owner) es)) := by
  refine ⟨unique_iff (Or.inl rfl),?_⟩
  rw [sent_rewritten h u]
  exact unique_iff (Or.inl rfl) _

/-- Distinct packets have distinct numbers. -/
def Apart (a b : Received × Packet) : Prop := a.1 ≠ b.1 → a.2.sequenceNumber ≠ b.2.sequenceNumber

instance : DecidableRel Apart := fun a b => by
  unfold Apart
  infer_instance

theorem unique_of_pairwise {rs : List Received} {out : List Packet}
    (h : (rs.zip out).Pairwise Apart) : Unique rs out := by
  intro i j r r' p p' hij _ hi hj hne hp hp'
  have hzip : ∀ {k : ℕ} {x : Received} {y : Packet}, rs[k]? = some x → out[k]? = some y →
      (rs.zip out)[k]? = some (x,y) := by
    intro k x y hx hy
    exact List.getElem?_zip_eq_some.mpr ⟨hx,hy⟩
  obtain ⟨hli,hgi⟩ := List.getElem?_eq_some_iff.mp (hzip hi hp)
  obtain ⟨hlj,hgj⟩ := List.getElem?_eq_some_iff.mp (hzip hj hp')
  have hpair := List.pairwise_iff_getElem.mp h i j hli hlj hij
  rw [hgi,hgj] at hpair
  exact hpair hne

theorem unique_numbers_switchesUp :
    Spaced (receives 7 (init 1 "camera" .video "s1") switchesUp) := by
  obtain ⟨s,hr,hf⟩ := exists_runs_of_exec step (init 1 "camera" .video "s1") switchesUp
    (fun s => decide (((receives 7 (init 1 "camera" .video "s1") switchesUp).zip
      ((s.sent 7).map Written.packet)).Pairwise Apart)) true (by decide +kernel)
  exact (unique_numbers hr 7).2.mp (unique_of_pairwise (of_decide_eq_true hf))

/-- Packet 102 of the high layer comes after packet 103, and then the low layer's keyframe. -/
def lateThenSwitch : List Event :=
  [.onTrack RIDLow "VP8",.addLayer,.onTrack RIDHigh "VP8",.addLayer,
    .newSubscriber 0 7 .high RIDLow,.proceed 0 RIDLow,.proceed 0 RIDLow,
    .forwardToSubscribers 1 RIDHigh ⟨101,9000,[]⟩ true [7],.proceed 1 "",.proceed 1 "",
    .forwardToSubscribers 1 RIDHigh ⟨103,9000,[]⟩ false [7],.proceed 1 "",.proceed 1 "",
    .setSubscriberQuality 0 7 .low RIDLow,.proceed 0 "",
    .forwardToSubscribers 1 RIDHigh ⟨102,9000,[]⟩ false [7],.proceed 1 "",.proceed 1 "",
    .forwardToSubscribers 2 RIDLow ⟨5000,500000,[]⟩ true [7],.proceed 2 ""]

theorem late_number_reused :
    ∃ s, Runs step (init 1 "camera" .video "s1") lateThenSwitch s ∧
      (s.sent 7).map (fun w => w.packet.sequenceNumber) = [101,103,102,103] ∧
      ¬ Unique (receives 7 (init 1 "camera" .video "s1") lateThenSwitch)
        ((s.sent 7).map Written.packet) := by
  obtain ⟨s,hr,hf⟩ := exists_runs_of_exec step (init 1 "camera" .video "s1") lateThenSwitch
    (fun s => (s.sent 7).map Written.packet)
    [⟨101,9000,[]⟩,⟨103,9000,[]⟩,⟨102,9000,[]⟩,⟨103,12000,[]⟩] (by decide +kernel)
  refine ⟨s,hr,?_,?_⟩
  · have h := congrArg (List.map Packet.sequenceNumber) hf
    rw [List.map_map] at h
    exact h
  · rw [hf]
    intro h
    exact h 1 3 ⟨"h",⟨103,9000,[]⟩⟩ ⟨"l",⟨5000,500000,[]⟩⟩ _ _ (by decide) (by decide)
      (by decide +kernel) (by decide +kernel) (by decide) rfl rfl rfl

end MiniDiscord.SfuForwarding
