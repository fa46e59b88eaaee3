import MiniDiscord.RateLimit.TokenBucket
import MiniDiscord.RateLimit.Refill
import Mathlib.Tactic.NormNum

/-! # How many requests a limiter admits

Every decision rests on the level of the key's bucket, and a bucket that the cleanup forgets
is full by then. So the limiter decides as one that forgets nothing, and each key's level is
one that time refills.
-/
namespace MiniDiscord.RateLimit.TokenBucket
open Refill

/-- What the limiter's lock is taken for. -/
inductive Event where
  | allow (now : ℚ) (clientID : String)
  | cleanup (now : ℚ)

def Event.time : Event → ℚ
  | .allow now _ => now
  | .cleanup now => now

def Event.isAllow : Event → Bool
  | .allow _ _ => true
  | .cleanup _ => false

structure Decision where
  clientID : String
  time : ℚ
  allowed : Bool
  deriving DecidableEq

def decisions : TokenBucket → List Event → List Decision
  | _,[] => []
  | tb,.allow now clientID :: es =>
    ⟨clientID,now,(tb.allow now clientID).1⟩ :: decisions (tb.allow now clientID).2 es
  | tb,.cleanup now :: es => decisions (tb.cleanup now) es

/-- The key that a client's bucket is kept under. -/
def keyOf (clientID : String) : String := if clientID = "" then "unknown" else clientID

/-- When the requests for a key were admitted. -/
def admittedFor (key : String) (ds : List Decision) : List ℚ :=
  (ds.filter fun d => keyOf d.clientID = key ∧ d.allowed).map Decision.time

def requestTimes (key : String) : List Event → List ℚ
  | [] => []
  | .allow now clientID :: es =>
    if keyOf clientID = key then now :: requestTimes key es else requestTimes key es
  | .cleanup _ :: es => requestTimes key es

/-- What a request at that time finds in the bucket of the key. -/
def level (tb : TokenBucket) (now : ℚ) (key : String) : ℚ :=
  match tb.tokens key with
  | none => tb.maxTokens
  | some bucket => refill tb.tokensPerSecond tb.maxTokens bucket.tokens (now - bucket.lastRefill)

variable {tb tb' : TokenBucket} {now last rate cap s t : ℚ} {key clientID : String}
  {es : List Event}

/-- What a request leaves in a bucket. -/
def left (level : ℚ) : ℚ := if 1 ≤ level then level - 1 else level

theorem level_le : tb.level now key ≤ tb.maxTokens := by
  unfold level
  split
  · exact le_rfl
  · exact refill_le_cap

/-- A key that is seen for the first time has a full bucket. -/
theorem allow_eq (h : 1 ≤ tb.maxTokens) : tb.allow now clientID =
    (decide (1 ≤ tb.level now (keyOf clientID)),
      { tb with
        tokens := Function.update tb.tokens (keyOf clientID)
          (some ⟨left (tb.level now (keyOf clientID)),now⟩) }) := by
  unfold allow level
  change (match tb.tokens (keyOf clientID) with | none => _ | some bucket => _) = _
  cases hk : tb.tokens (keyOf clientID) with
  | none => simp [left,h,keyOf]
  | some bucket =>
    dsimp only
    unfold left refill keyOf
    split
    · rename_i hone
      rw [decide_eq_true hone]
    · rename_i hone
      rw [decide_eq_false hone]

theorem allow_fst (h : 1 ≤ tb.maxTokens) :
    (tb.allow now clientID).1 = decide (1 ≤ tb.level now (keyOf clientID)) := by
  rw [allow_eq h]

@[simp] theorem allow_tokensPerSecond (h : 1 ≤ tb.maxTokens) :
    (tb.allow now clientID).2.tokensPerSecond = tb.tokensPerSecond := by
  rw [allow_eq h]

@[simp] theorem allow_maxTokens (h : 1 ≤ tb.maxTokens) :
    (tb.allow now clientID).2.maxTokens = tb.maxTokens := by
  rw [allow_eq h]

theorem level_allow (h : 1 ≤ tb.maxTokens) (key : String) :
    (tb.allow now clientID).2.level now key =
      if key = keyOf clientID then left (tb.level now key) else tb.level now key := by
  rw [allow_eq h]
  by_cases hk : key = keyOf clientID
  · have hle : left (tb.level now key) ≤ tb.maxTokens := by
      have hcap : tb.level now key ≤ tb.maxTokens := level_le
      unfold left
      split
      · linarith
      · exact hcap
    rw [if_pos hk]
    subst hk
    simp only [level,Function.update_self,sub_self] at hle ⊢
    exact refill_zero hle
  · rw [if_neg hk]
    simp only [level,Function.update_of_ne hk]

theorem tokens_allow {bucket : BucketState} (h : 1 ≤ tb.maxTokens)
    (hb : (tb.allow now clientID).2.tokens key = some bucket) :
    bucket = ⟨left (tb.level now (keyOf clientID)),now⟩ ∨ tb.tokens key = some bucket := by
  rw [allow_eq h] at hb
  dsimp only at hb
  by_cases hk : key = keyOf clientID
  · rw [hk,Function.update_self] at hb
    exact Or.inl (Option.some.inj hb).symm
  · rw [Function.update_of_ne hk] at hb
    exact Or.inr hb

/-- Between two requests a bucket is refilled. -/
theorem level_advance (hr : 0 ≤ tb.tokensPerSecond) (h : last ≤ now) :
    tb.level now key = refill tb.tokensPerSecond tb.maxTokens (tb.level last key) (now - last) := by
  unfold level
  split
  · exact (refill_full (le_add_of_nonneg_right (mul_nonneg (sub_nonneg.mpr h) hr))).symm
  · rw [refill_refill hr (sub_nonneg.mpr h)]
    congr 1
    ring

/-- Buckets hold no debt, and the clock has not gone back. -/
structure Valid (tb : TokenBucket) (now : ℚ) : Prop where
  nonneg : ∀ key bucket, tb.tokens key = some bucket → 0 ≤ bucket.tokens
  past : ∀ key bucket, tb.tokens key = some bucket → bucket.lastRefill ≤ now

theorem Valid.mono (hv : Valid tb last) (h : last ≤ now) : Valid tb now where
  nonneg := hv.nonneg
  past key bucket hb := (hv.past key bucket hb).trans h

theorem Valid.level_nonneg (hv : Valid tb now) (hr : 0 ≤ tb.tokensPerSecond)
    (hc : 0 ≤ tb.maxTokens) : 0 ≤ tb.level now key := by
  unfold level
  split
  · exact hc
  · rename_i bucket hb
    exact refill_nonneg hr hc (hv.nonneg key bucket hb) (sub_nonneg.mpr (hv.past key bucket hb))

theorem Valid.allow (hv : Valid tb now) (hr : 0 ≤ tb.tokensPerSecond) (h : 1 ≤ tb.maxTokens) :
    Valid (tb.allow now clientID).2 now := by
  have hl : 0 ≤ left (tb.level now (keyOf clientID)) := by
    unfold left
    split
    · linarith
    · exact hv.level_nonneg hr (zero_le_one.trans h)
  constructor
  · intro key bucket hb
    rcases tokens_allow h hb with rfl | hb
    · exact hl
    · exact hv.nonneg key bucket hb
  · intro key bucket hb
    rcases tokens_allow h hb with rfl | hb
    · exact le_rfl
    · exact hv.past key bucket hb

theorem Valid.cleanup (hv : Valid tb now) : Valid (tb.cleanup now) now where
  nonneg key bucket hb := hv.nonneg key bucket (Option.filter_eq_some_iff.mp hb).1
  past key bucket hb := hv.past key bucket (Option.filter_eq_some_iff.mp hb).1

@[simp] theorem cleanup_tokensPerSecond : (tb.cleanup now).tokensPerSecond = tb.tokensPerSecond := rfl

@[simp] theorem cleanup_maxTokens : (tb.cleanup now).maxTokens = tb.maxTokens := rfl

theorem tokens_cleanup {bucket : BucketState} (hb : tb.tokens key = some bucket) :
    (tb.cleanup now).tokens key =
      if now - bucket.lastRefill ≤ cleanupInterval then some bucket else none := by
  simp only [TokenBucket.cleanup,hb,Option.filter_some,decide_eq_true_eq]

/-- What the cleanup forgets is full. -/
theorem level_cleanup (hv : Valid tb now) (hr : 0 ≤ tb.tokensPerSecond)
    (hc : tb.maxTokens ≤ tb.tokensPerSecond * cleanupInterval) :
    (tb.cleanup now).level now key = tb.level now key := by
  cases hb : tb.tokens key with
  | none => simp only [level,TokenBucket.cleanup,hb,Option.filter_none]
  | some bucket =>
    have hkept := @tokens_cleanup tb now key bucket hb
    by_cases hd : now - bucket.lastRefill ≤ cleanupInterval
    · rw [if_pos hd] at hkept
      simp only [level,hkept,hb,cleanup_tokensPerSecond,cleanup_maxTokens]
    · have hfull : tb.maxTokens ≤
          bucket.tokens + (now - bucket.lastRefill) * tb.tokensPerSecond := by
        calc tb.maxTokens
            ≤ tb.tokensPerSecond * cleanupInterval := hc
          _ ≤ tb.tokensPerSecond * (now - bucket.lastRefill) :=
            mul_le_mul_of_nonneg_left (not_le.mp hd).le hr
          _ = (now - bucket.lastRefill) * tb.tokensPerSecond := mul_comm _ _
          _ ≤ _ := le_add_of_nonneg_left (hv.nonneg key bucket hb)
      rw [if_neg hd] at hkept
      simp only [level,hkept,hb,cleanup_maxTokens]
      exact (refill_full hfull).symm

/-- The clock as a run reads it, from a time on. -/
def ClockFrom (now : ℚ) (es : List Event) : Prop := (now :: es.map Event.time).Pairwise (· ≤ ·)

theorem exists_clockFrom (h : (es.map Event.time).Pairwise (· ≤ ·)) : ∃ last, ClockFrom last es := by
  cases es with
  | nil => exact ⟨0,List.pairwise_singleton _ _⟩
  | cons e es =>
    refine ⟨e.time,List.pairwise_cons.mpr ⟨?_,h⟩⟩
    intro u hu
    rcases List.mem_cons.mp hu with rfl | hu
    · exact le_rfl
    · exact (List.pairwise_cons.mp h).1 u hu

theorem requestTimes_sublist : (requestTimes key es).Sublist (es.map Event.time) := by
  induction es with
  | nil => exact List.Sublist.slnil
  | cons e es ih =>
    cases e with
    | cleanup now => exact ih.cons _
    | allow now clientID =>
      unfold requestTimes
      split
      · exact ih.cons_cons _
      · exact ih.cons _

/-- The requests for one key see the level that its own requests leave. -/
theorem admittedFor_decisions (hr : 0 ≤ tb.tokensPerSecond) (h : 1 ≤ tb.maxTokens)
    (hc : tb.maxTokens ≤ tb.tokensPerSecond * cleanupInterval) (hv : Valid tb last)
    (hes : ClockFrom last es) : admittedFor key (tb.decisions es) =
      admitted tb.tokensPerSecond tb.maxTokens (tb.level last key) last (requestTimes key es) := by
  induction es generalizing tb last with
  | nil => rfl
  | cons e es ih =>
    obtain ⟨hlast,htail⟩ := List.pairwise_cons.mp hes
    have hn : last ≤ e.time := hlast _ List.mem_cons_self
    have hlater : ∀ u ∈ requestTimes key es, e.time ≤ u := fun u hu =>
      (List.pairwise_cons.mp htail).1 u (requestTimes_sublist.subset hu)
    have hskip : admitted tb.tokensPerSecond tb.maxTokens (tb.level e.time key) e.time
        (requestTimes key es) = admitted tb.tokensPerSecond tb.maxTokens (tb.level last key) last
        (requestTimes key es) := by
      rw [level_advance hr hn,admitted_refill hr hlater]
    cases e with
    | cleanup now =>
      have hv' : Valid tb now := hv.mono hn
      have hrest := @ih (tb.cleanup now) now hr h hc hv'.cleanup htail
      rw [level_cleanup hv' hr hc] at hrest
      refine hrest.trans ?_
      exact hskip
    | allow now clientID =>
      have hv' : Valid (tb.allow now clientID).2 now := (hv.mono hn).allow hr h
      have hrest := @ih (tb.allow now clientID).2 now (by rwa [allow_tokensPerSecond h])
        (by rwa [allow_maxTokens h])
        (by rwa [allow_tokensPerSecond h,allow_maxTokens h]) hv' htail
      rw [allow_tokensPerSecond h,allow_maxTokens h,level_allow h] at hrest
      by_cases hk : keyOf clientID = key
      · have hlevel : tb.level now key =
            refill tb.tokensPerSecond tb.maxTokens (tb.level last key) (now - last) :=
          level_advance hr hn
        rw [if_pos hk.symm] at hrest
        simp only [requestTimes,if_pos hk,admitted,← hlevel]
        by_cases hone : 1 ≤ tb.level now key
        · rw [if_pos hone]
          rw [left,if_pos hone] at hrest
          rw [← hrest]
          simp [admittedFor,decisions,allow_fst h,hk,hone]
        · rw [if_neg hone]
          rw [left,if_neg hone] at hrest
          rw [← hrest]
          simp [admittedFor,decisions,allow_fst h,hk,hone]
      · rw [if_neg (Ne.symm hk)] at hrest
        rw [requestTimes,if_neg hk]
        refine Eq.trans ?_ (hrest.trans hskip)
        simp [admittedFor,decisions,hk]

/-- Both limiters have the same rate and size, and every bucket the same level. -/
structure SameLevels (tb tb' : TokenBucket) (now : ℚ) : Prop where
  rate : tb'.tokensPerSecond = tb.tokensPerSecond
  size : tb'.maxTokens = tb.maxTokens
  level : ∀ key, tb'.level now key = tb.level now key

theorem SameLevels.mono (hs : SameLevels tb tb' last) (hr : 0 ≤ tb.tokensPerSecond)
    (h : last ≤ now) : SameLevels tb tb' now where
  rate := hs.rate
  size := hs.size
  level key := by
    rw [level_advance hr h,level_advance (hs.rate ▸ hr) h,hs.rate,hs.size,hs.level]

theorem SameLevels.cleanup (hs : SameLevels tb tb' now) (hv : Valid tb now)
    (hr : 0 ≤ tb.tokensPerSecond) (hc : tb.maxTokens ≤ tb.tokensPerSecond * cleanupInterval) :
    SameLevels (tb.cleanup now) tb' now where
  rate := hs.rate
  size := hs.size
  level key := by rw [level_cleanup hv hr hc,hs.level]

theorem SameLevels.allow (hs : SameLevels tb tb' now) (h : 1 ≤ tb.maxTokens) :
    SameLevels (tb.allow now clientID).2 (tb'.allow now clientID).2 now where
  rate := by rw [allow_tokensPerSecond h,allow_tokensPerSecond (hs.size ▸ h),hs.rate]
  size := by rw [allow_maxTokens h,allow_maxTokens (hs.size ▸ h),hs.size]
  level key := by rw [level_allow h,level_allow (hs.size ▸ h),hs.level]

/-- The cleanup changes no decision. -/
theorem decisions_filter (hr : 0 ≤ tb.tokensPerSecond) (h : 1 ≤ tb.maxTokens)
    (hc : tb.maxTokens ≤ tb.tokensPerSecond * cleanupInterval) (hv : Valid tb last)
    (hs : SameLevels tb tb' last) (hes : ClockFrom last es) :
    tb.decisions es = tb'.decisions (es.filter Event.isAllow) := by
  induction es generalizing tb tb' last with
  | nil => rfl
  | cons e es ih =>
    obtain ⟨hlast,htail⟩ := List.pairwise_cons.mp hes
    have hn : last ≤ e.time := hlast _ List.mem_cons_self
    cases e with
    | cleanup now =>
      exact @ih (tb.cleanup now) tb' now hr h hc (hv.mono hn).cleanup
        ((hs.mono hr hn).cleanup (hv.mono hn) hr hc) htail
    | allow now clientID =>
      have hrest := @ih (tb.allow now clientID).2 (tb'.allow now clientID).2 now
        (by rwa [allow_tokensPerSecond h]) (by rwa [allow_maxTokens h])
        (by rwa [allow_tokensPerSecond h,allow_maxTokens h]) ((hv.mono hn).allow hr h)
        ((hs.mono hr hn).allow h) htail
      have hsame : tb'.level now (keyOf clientID) = tb.level now (keyOf clientID) :=
        (hs.mono hr hn).level _
      rw [List.filter_cons_of_pos rfl]
      simp only [decisions,allow_fst h,allow_fst (hs.size ▸ h),hsame,hrest]

theorem valid_newTokenBucket : Valid (newTokenBucket rate cap) now where
  nonneg _ _ hb := by cases hb
  past _ _ hb := by cases hb

/-- The rate and the size of every limiter that the services make: of the hub for servers,
channels, messages, read marks and user searches, of the routes for users, uploads,
notifications and embeds, and of the embed service. -/
def limits : List (ℚ × ℚ) :=
  [(5/60,5),(5/60,5),(1,1),(2,10),(3,10),(5/60,5),(10/60,5),(2,10),(20,60),(1/2,10)]

/-- An idle bucket of theirs is full before it is forgotten. -/
theorem limits_refill {l : ℚ × ℚ} (h : l ∈ limits) :
    1 ≤ l.2 ∧ l.2 ≤ l.1 * cleanupInterval := by
  simp only [limits,List.mem_cons,List.not_mem_nil,or_false] at h
  rcases h with rfl | rfl | rfl | rfl | rfl | rfl | rfl | rfl | rfl | rfl <;>
    norm_num [cleanupInterval]

/-- In every window of time a key is admitted no more often than its bucket's size and what
is refilled meanwhile, and forgetting buckets changes no decision. -/
theorem window_bound (h : 1 ≤ cap) (hc : cap ≤ rate * cleanupInterval)
    (hes : (es.map Event.time).Pairwise (· ≤ ·)) :
    (∀ key s t, s ≤ t →
      ((inWindow s t (admittedFor key ((newTokenBucket rate cap).decisions es))).length : ℚ) ≤
        cap + rate * (t - s)) ∧
    (newTokenBucket rate cap).decisions es =
      (newTokenBucket rate cap).decisions (es.filter Event.isAllow) := by
  have hr : 0 ≤ rate := by
    have hpos : 0 ≤ rate * cleanupInterval := zero_le_one.trans (h.trans hc)
    exact nonneg_of_mul_nonneg_left hpos (by norm_num [cleanupInterval])
  obtain ⟨last,hlast⟩ := exists_clockFrom hes
  constructor
  · intro key s t hst
    have htimes : (last :: requestTimes key es).Pairwise (· ≤ ·) :=
      hlast.sublist (requestTimes_sublist.cons_cons last)
    rw [admittedFor_decisions hr h hc valid_newTokenBucket hlast,mul_comm rate]
    exact length_inWindow_le hr (zero_le_one.trans h) htimes
      (valid_newTokenBucket.level_nonneg hr (zero_le_one.trans h)) hst
  · exact decisions_filter hr h hc valid_newTokenBucket ⟨rfl,rfl,fun _ => rfl⟩ hlast

/-- Half a token would do for nobody, and the first request is let in all the same: a window
admits more than the size, and a forgotten bucket another one. -/
theorem window_bound_halfToken : (1/2 : ℚ) ≤ 1/600 * cleanupInterval ∧
    ¬((inWindow 0 0 (admittedFor "7" ((newTokenBucket (1/600) (1/2)).decisions
      [.allow 0 "7"]))).length : ℚ) ≤ 1/2 + 1/600 * (0 - 0) ∧
    (newTokenBucket (1/600) (1/2)).decisions [.allow 0 "7",.cleanup 301,.allow 301 "7"] ≠
      (newTokenBucket (1/600) (1/2)).decisions
        ([.allow 0 "7",.cleanup 301,.allow 301 "7"].filter Event.isAllow) := by
  refine ⟨by norm_num [cleanupInterval],?_,by decide +kernel⟩
  have hadmitted : inWindow 0 0 (admittedFor "7" ((newTokenBucket (1/600) (1/2)).decisions
      [.allow 0 "7"])) = [0] := by decide +kernel
  rw [hadmitted]
  norm_num

/-- Five requests at once, a sixth that is refused, and one more after the idle bucket was
forgotten. -/
theorem window_bound_forgotten :
    (∀ key s t, s ≤ t → ((inWindow s t (admittedFor key ((newTokenBucket (5/60) 5).decisions
      [.allow 0 "7",.allow 0 "7",.allow 0 "7",.allow 0 "7",.allow 0 "7",.allow 0 "7",.cleanup 301,
        .allow 301 "7"]))).length : ℚ) ≤ 5 + 5/60 * (t - s)) ∧
    (newTokenBucket (5/60) 5).decisions
      [.allow 0 "7",.allow 0 "7",.allow 0 "7",.allow 0 "7",.allow 0 "7",.allow 0 "7",.cleanup 301,
        .allow 301 "7"] =
      (newTokenBucket (5/60) 5).decisions
        [.allow 0 "7",.allow 0 "7",.allow 0 "7",.allow 0 "7",.allow 0 "7",.allow 0 "7",
          .allow 301 "7"] :=
  window_bound (limits_refill (l := (5/60,5)) List.mem_cons_self).1
    (limits_refill (l := (5/60,5)) List.mem_cons_self).2 (by simp [Event.time])

end MiniDiscord.RateLimit.TokenBucket
