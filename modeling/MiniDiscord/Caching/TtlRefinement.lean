import MiniDiscord.Caching.TtlCache

/-! # What the cache answers

The items of the cache trim the map: an item is gone only where the map's entry is past its
deadline. A call of `Get` so has an answer of the map at the moment of its first lock
section, and one that finds the item expired at the reading of the clock after it.
-/
namespace MiniDiscord.TtlCache
open Transition ExpiringMap

variable {V : Type} {d : Int64} {s s' : State V} {b b' : Both V} {e : Event V}
  {es fs : List (Event V)} {t t₀ : CallID} {p : Position V} {key : String} {item : Item V}
  {entry : Entry V ℤ} {now now' : ℤ} {P Q : Both V → Prop} {v : V}

/-- All that a step can do. -/
inductive Does (s : State V) : Event V → State V → Prop
  | set {t : CallID} {key : String} {value : V} {duration : Int64} :
      s.calls.lookup t = none →
      Does s (.call t (.set key value duration)) (s.setCall t (s.startSet key value duration))
  | get {t : CallID} {key : String} : s.calls.lookup t = none →
      Does s (.call t (.get key)) (s.setCall t (.reading key))
  | startDelete {t : CallID} {key : String} : s.calls.lookup t = none →
      Does s (.call t (.delete key)) (s.setCall t (.deleting key))
  | startDeleteByPrefix {t : CallID} {start : String} : s.calls.lookup t = none →
      Does s (.call t (.deleteByPrefix start)) (s.setCall t (.deletingByPrefix start))
  | miss {t : CallID} {key : String} : s.calls.lookup t = some (.reading key) →
      s.items.lookup key = none → Does s (.read t) (s.setCall t (.got key none))
  | hit {t : CallID} {key : String} {item : Item V} : s.calls.lookup t = some (.reading key) →
      s.items.lookup key = some item → ¬ 0 < item.expiration →
      Does s (.read t) (s.setCall t (.got key (some item.value)))
  | found {t : CallID} {key : String} {item : Item V} : s.calls.lookup t = some (.reading key) →
      s.items.lookup key = some item → 0 < item.expiration →
      Does s (.read t) (s.setCall t (.checking key item))
  | expired {t : CallID} {now : ℤ} {key : String} {item : Item V} :
      s.calls.lookup t = some (.checking key item) → s.clock ≤ now ∧ now < 2 ^ 63 →
      item.expiration < unixNano now →
      Does s (.check t now) ({ s with clock := now }.setCall t (.removing key item))
  | fresh {t : CallID} {now : ℤ} {key : String} {item : Item V} :
      s.calls.lookup t = some (.checking key item) → s.clock ≤ now ∧ now < 2 ^ 63 →
      ¬ item.expiration < unixNano now →
      Does s (.check t now) ({ s with clock := now }.setCall t (.got key (some item.value)))
  | remove {t : CallID} {key : String} {item current : Item V} :
      s.calls.lookup t = some (.removing key item) → s.items.lookup key = some current →
      current.expiration = item.expiration →
      Does s (.remove t) ({ s with items := s.items.erase key }.setCall t (.got key none))
  | leave {t : CallID} {key : String} {item : Item V} :
      s.calls.lookup t = some (.removing key item) →
      Does s (.remove t) (s.setCall t (.got key none))
  | time {t : CallID} {now : ℤ} {key : String} {value : V} {duration : Int64} :
      s.calls.lookup t = some (.timing key value duration) → s.clock ≤ now ∧ now < 2 ^ 63 →
      Does s (.time t now)
        ({ s with clock := now }.setCall t (.storing key value (some (now + duration.toInt))))
  | store {t : CallID} {now : ℤ} {key : String} {value : V} {expiresAt : Option ℤ} :
      s.calls.lookup t = some (.storing key value expiresAt) → s.clock ≤ now ∧ now < 2 ^ 63 →
      Does s (.store t now)
        ({ s with
          clock := now
          items := s.items.insert key ⟨value,now,State.expiration expiresAt⟩ }.setCall t .stored)
  | deleteNone {t : CallID} {key : String} : s.calls.lookup t = some (.deleting key) →
      s.items.lookup key = none → Does s (.delete t) (s.setCall t (.deleted false))
  | delete {t : CallID} {key : String} : s.calls.lookup t = some (.deleting key) →
      Does s (.delete t) ({ s with items := s.items.erase key }.setCall t (.deleted true))
  | deleteByPrefix {t : CallID} {start : String} :
      s.calls.lookup t = some (.deletingByPrefix start) → Does s (.deleteByPrefix t)
        ({ s with items := s.items.filter (fun key _ => !State.hasPrefix start key) }.setCall t
          (.deletedByPrefix
            (s.items.keys.filter (fun key => State.hasPrefix start key = true)).card))
  | evictExpired {now : ℤ} : s.clock ≤ now ∧ now < 2 ^ 63 → Does s (.evictExpired now)
      { s with clock := now, items := s.items.filter (fun _ item => !item.expired now) }

theorem readClock_eq (h : s.readClock now = some s') :
    (s.clock ≤ now ∧ now < 2 ^ 63) ∧ s' = { s with clock := now } := by
  unfold State.readClock at h
  split at h
  · rename_i hn
    exact ⟨hn,(Option.some.inj h).symm⟩
  · cases h

theorem does_of_step (h : step s e = some s') : Does s e s' := by
  cases e with
  | call t op =>
    simp only [step,State.call] at h
    split at h
    · cases h
    · rename_i hn
      cases op with
      | set => cases h; exact .set hn
      | get => cases h; exact .get hn
      | delete => cases h; exact .startDelete hn
      | deleteByPrefix => cases h; exact .startDeleteByPrefix hn
  | read t =>
    obtain ⟨p,hp,h⟩ := Option.bind_eq_some_iff.mp h
    unfold State.read at h
    split at h
    · split at h
      · rename_i hi
        cases h
        exact .miss hp hi
      · rename_i item hi
        split at h
        · rename_i hpos
          cases h
          exact .found hp hi hpos
        · rename_i hpos
          cases h
          exact .hit hp hi hpos
    · cases h
  | check t now =>
    obtain ⟨p,hp,h⟩ := Option.bind_eq_some_iff.mp h
    unfold State.check at h
    split at h
    · obtain ⟨s₁,hs,h⟩ := Option.map_eq_some_iff.mp h
      obtain ⟨hn,rfl⟩ := readClock_eq hs
      split at h
      · rename_i hexp
        cases h
        exact .expired hp hn hexp
      · rename_i hexp
        cases h
        exact .fresh hp hn hexp
    · cases h
  | remove t =>
    obtain ⟨p,hp,h⟩ := Option.bind_eq_some_iff.mp h
    unfold State.remove at h
    split at h
    · split at h
      · rename_i current hc
        split at h
        · rename_i he
          cases h
          exact .remove hp hc he
        · cases h
          exact .leave hp
      · cases h
        exact .leave hp
    · cases h
  | time t now =>
    obtain ⟨p,hp,h⟩ := Option.bind_eq_some_iff.mp h
    unfold State.time at h
    split at h
    · obtain ⟨s₁,hs,rfl⟩ := Option.map_eq_some_iff.mp h
      obtain ⟨hn,rfl⟩ := readClock_eq hs
      exact .time hp hn
    · cases h
  | store t now =>
    obtain ⟨p,hp,h⟩ := Option.bind_eq_some_iff.mp h
    unfold State.store at h
    split at h
    · obtain ⟨s₁,hs,rfl⟩ := Option.map_eq_some_iff.mp h
      obtain ⟨hn,rfl⟩ := readClock_eq hs
      exact .store hp hn
    · cases h
  | delete t =>
    obtain ⟨p,hp,h⟩ := Option.bind_eq_some_iff.mp h
    unfold State.delete at h
    split at h
    · split at h
      · rename_i hi
        cases h
        exact .deleteNone hp hi
      · cases h
        exact .delete hp
    · cases h
  | deleteByPrefix t =>
    obtain ⟨p,hp,h⟩ := Option.bind_eq_some_iff.mp h
    unfold State.deleteByPrefix at h
    split at h
    · cases h
      exact .deleteByPrefix hp
    · cases h
  | evictExpired now =>
    obtain ⟨s₁,hs,rfl⟩ := Option.map_eq_some_iff.mp h
    obtain ⟨hn,rfl⟩ := readClock_eq hs
    exact .evictExpired hn

theorem Does.clock_le (h : Does s e s') : s.clock ≤ s'.clock := by
  cases h with
  | expired _ hn => exact hn.1
  | fresh _ hn => exact hn.1
  | time _ hn => exact hn.1
  | store _ hn => exact hn.1
  | evictExpired hn => exact hn.1
  | _ => exact le_rfl

theorem Does.clock_lt (h : Does s e s') (hs : s.clock < 2 ^ 63) : s'.clock < 2 ^ 63 := by
  cases h with
  | expired _ hn => exact hn.2
  | fresh _ hn => exact hn.2
  | time _ hn => exact hn.2
  | store _ hn => exact hn.2
  | evictExpired hn => exact hn.2
  | _ => exact hs

/-! ## Items and entries -/

/-- The item stands for the entry: as long as `UnixNano` represents the time, the one has
expired where the other is past its deadline. -/
def Represents (item : Item V) (entry : Entry V ℤ) : Prop :=
  item.value = entry.value ∧
    ∀ now, 0 ≤ now → now < 2 ^ 63 → item.expired now = !entry.live now

theorem toInt_unixNano (h0 : 0 ≤ now) (h : now < 2 ^ 63) : (unixNano now).toInt = now :=
  Int64.toInt_ofInt_of_le (by omega) h

theorem expired_iff (h0 : 0 ≤ now) (h : now < 2 ^ 63) :
    item.expired now = true ↔ 0 < item.expiration.toInt ∧ item.expiration.toInt < now := by
  simp only [Item.expired,Bool.and_eq_true,decide_eq_true_eq,Int64.lt_iff_toInt_lt,
    toInt_unixNano h0 h]
  rfl

theorem expired_mono (h0 : 0 ≤ now) (hn : now ≤ now') (h : now' < 2 ^ 63)
    (he : item.expired now = true) : item.expired now' = true := by
  obtain ⟨hpos,hlt⟩ := (expired_iff h0 (by omega)).mp he
  exact (expired_iff (by omega) h).mpr ⟨hpos,by omega⟩

/-- A deadline that `UnixNano` cannot represent becomes one that is never reached. -/
theorem represents_some {value : V} {created deadline : ℤ} (h0 : 0 < deadline)
    (h : deadline < 2 ^ 64) :
    Represents ⟨value,created,unixNano deadline⟩ ⟨value,some deadline⟩ := by
  refine ⟨rfl,?_⟩
  intro now hn hlt
  rw [Bool.eq_iff_iff,expired_iff hn hlt]
  simp only [Entry.live,Option.all_some,Bool.not_eq_true',decide_eq_false_iff_not,not_le]
  by_cases hd : deadline < 2 ^ 63
  · rw [toInt_unixNano h0.le hd]
    exact ⟨And.right,fun h => ⟨h0,h⟩⟩
  · have hneg : (unixNano deadline).toInt = deadline - 2 ^ 64 := by
      rw [unixNano,Int64.toInt_ofInt]
      have hsize : (Int64.size : ℤ) = 2 ^ 64 := rfl
      rw [Int.bmod_def,hsize]
      omega
    rw [hneg]
    omega

theorem represents_none {value : V} {created : ℤ} :
    Represents ⟨value,created,0⟩ ⟨value,none⟩ := by
  refine ⟨rfl,?_⟩
  intro now _ _
  simp [Item.expired,Entry.live]

theorem Represents.expired (h : Represents item entry) (h0 : 0 ≤ now) (hlt : now < 2 ^ 63)
    (he : item.expired now = true) : entry.live now = false := by
  have hl := h.2 now h0 hlt
  rw [he] at hl
  simpa using hl.symm

theorem Represents.live (h : Represents item entry) (h0 : 0 ≤ now) (hlt : now < 2 ^ 63)
    (he : item.expired now = false) : entry.live now = true := by
  have hl := h.2 now h0 hlt
  rw [he] at hl
  simpa using hl.symm

/-! ## What the cache keeps -/

/-- What a call has found so far of the clock and of the item. -/
def CallOk (s : State V) : Position V → Prop
  | .timing _ _ duration => 0 < duration
  | .storing _ _ expiresAt => ∀ deadline ∈ expiresAt, 0 < deadline ∧ deadline < 2 ^ 64
  | .checking _ item => 0 < item.expiration
  | .removing _ item => item.expired s.clock = true
  | _ => True

structure CacheOk (b : Both V) : Prop where
  nonneg : 0 ≤ b.cache.clock
  lt : b.cache.clock < 2 ^ 63
  calls : ∀ t p, b.cache.calls.lookup t = some p → CallOk b.cache p
  trims : Trims Represents b.cache.clock (fun key => b.cache.items.lookup key) b.map

theorem CallOk.mono (h : CallOk s p) (h0 : 0 ≤ s.clock) (hn : s.clock ≤ s'.clock)
    (hlt : s'.clock < 2 ^ 63) : CallOk s' p := by
  cases p with
  | removing key item => exact expired_mono h0 hn hlt h
  | _ => exact h

theorem callOk_startSet {value : V} {duration : Int64} :
    CallOk s (s.startSet key value duration) := by
  unfold State.startSet
  generalize (if duration = 0 then s.defaultExpiration else duration) = duration
  dsimp only
  split
  · rename_i hpos
    exact hpos
  · rintro deadline ⟨⟩

theorem calls_setCall {s₁ : State V} (h : ∀ t p, s.calls.lookup t = some p → CallOk s p)
    (h0 : 0 ≤ s.clock) (hn : s.clock ≤ s₁.clock) (hlt : s₁.clock < 2 ^ 63)
    (hcalls : s₁.calls = s.calls) (hp : CallOk s₁ p) :
    ∀ t₀ p₀, (s₁.setCall t p).calls.lookup t₀ = some p₀ → CallOk (s₁.setCall t p) p₀ := by
  intro t₀ p₀ h₀
  simp only [State.setCall,GoMap.lookup_insert_eq,hcalls] at h₀
  split at h₀
  · cases h₀
    exact hp.mono (h0.trans hn) le_rfl hlt
  · exact (h t₀ p₀ h₀).mono h0 hn hlt

theorem CacheOk.callsOk (hb : CacheOk b) (h : Does b.cache e s') :
    ∀ t p, s'.calls.lookup t = some p → CallOk s' p := by
  have hset : ∀ {s₁ : State V} {t : CallID} {p : Position V}, b.cache.clock ≤ s₁.clock →
      s₁.clock < 2 ^ 63 → s₁.calls = b.cache.calls → CallOk s₁ p →
      ∀ t₀ p₀, (s₁.setCall t p).calls.lookup t₀ = some p₀ → CallOk (s₁.setCall t p) p₀ :=
    fun hn hlt hcalls hp => calls_setCall hb.calls hb.nonneg hn hlt hcalls hp
  have hlt := hb.lt
  cases h with
  | set => exact hset le_rfl hlt rfl callOk_startSet
  | found _ _ hpos => exact hset le_rfl hlt rfl hpos
  | @expired t now key item hp hn hexp =>
    have hpos : 0 < item.expiration := hb.calls t _ hp
    refine hset hn.1 hn.2 rfl ?_
    exact Bool.and_eq_true_iff.mpr ⟨decide_eq_true hpos,decide_eq_true hexp⟩
  | @time t now key value duration hp hn =>
    have hpos : 0 < duration := hb.calls t _ hp
    refine hset hn.1 hn.2 rfl ?_
    rintro deadline ⟨⟩
    have hd : 0 < duration.toInt := Int64.lt_iff_toInt_lt.mp hpos
    have hmax := duration.toInt_lt
    have h0 := hb.nonneg
    omega
  | fresh _ hn => exact hset hn.1 hn.2 rfl trivial
  | store _ hn => exact hset hn.1 hn.2 rfl trivial
  | evictExpired hn =>
    intro t p hp
    exact (hb.calls t p hp).mono hb.nonneg hn.1 hn.2
  | get => exact hset le_rfl hlt rfl trivial
  | startDelete => exact hset le_rfl hlt rfl trivial
  | startDeleteByPrefix => exact hset le_rfl hlt rfl trivial
  | miss => exact hset le_rfl hlt rfl trivial
  | hit => exact hset le_rfl hlt rfl trivial
  | leave => exact hset le_rfl hlt rfl trivial
  | remove => exact hset le_rfl hlt rfl trivial
  | deleteNone => exact hset le_rfl hlt rfl trivial
  | delete => exact hset le_rfl hlt rfl trivial
  | deleteByPrefix => exact hset le_rfl hlt rfl trivial

theorem represents_stored {expiresAt : Option ℤ}
    (h : ∀ deadline ∈ expiresAt, 0 < deadline ∧ deadline < 2 ^ 64) :
    Represents ⟨v,now,State.expiration expiresAt⟩ ⟨v,expiresAt⟩ := by
  cases expiresAt with
  | none => exact represents_none
  | some deadline =>
    obtain ⟨h0,hlt⟩ := h deadline rfl
    exact represents_some h0 hlt

/-- Expiring is about the expiration alone. -/
theorem expired_congr {current : Item V} (h : current.expiration = item.expiration) :
    current.expired now = item.expired now := by
  simp only [Item.expired,h]

/-- `Get` and the eviction drop nothing that is not past its deadline. -/
theorem CacheOk.trims_step (hb : CacheOk b) (h : Does b.cache e s') :
    Trims Represents s'.clock (fun key => s'.items.lookup key)
      ((written b.cache e).elim b.map (·.apply b.map)) := by
  have ht := hb.trims
  cases h with
  | expired _ hn => exact ht.mono hn.1
  | fresh _ hn => exact ht.mono hn.1
  | time _ hn => exact ht.mono hn.1
  | @store t now key value expiresAt hp hn =>
    have hR : Represents ⟨value,now,State.expiration expiresAt⟩ ⟨value,expiresAt⟩ :=
      represents_stored (hb.calls t _ hp)
    have hset := (ht.mono hn.1).set (k := key) hR
    simp only [written,hp,Option.elim_some]
    refine hset.congr ?_
    intro k
    simp only [State.setCall,GoMap.lookup_insert_eq,Function.update_apply]
  | @delete t key hp =>
    have hdel := ht.deleteWhere (fun k => decide (k = key))
    simp only [written,hp,Option.elim_some]
    refine hdel.congr ?_
    intro k
    simp only [State.setCall,GoMap.lookup_erase_eq,decide_eq_true_eq]
  | @deleteNone t key hp hk =>
    have hdel := ht.deleteWhere (fun k => decide (k = key))
    simp only [written,hp,Option.elim_some]
    refine hdel.congr ?_
    intro k
    simp only [State.setCall,decide_eq_true_eq]
    split
    · rename_i he
      rw [he,hk]
    · rfl
  | @deleteByPrefix t start hp =>
    have hdel := ht.deleteWhere (State.hasPrefix start)
    simp only [written,hp,Option.elim_some]
    refine hdel.congr ?_
    intro k
    simp only [State.setCall,GoMap.lookup_filter]
    cases b.cache.items.lookup k with
    | none => simp
    | some item => cases State.hasPrefix start k <;> simp
  | @remove t key item current hp hc he =>
    apply ht.evict
    intro k
    simp only [State.setCall,GoMap.lookup_erase_eq]
    split
    · rename_i hk
      refine Or.inr ⟨rfl,?_⟩
      intro item' entry hi hR
      rw [hk,hc] at hi
      cases hi
      have hexp : item.expired b.cache.clock = true := hb.calls t _ hp
      exact hR.expired hb.nonneg hb.lt ((expired_congr he).trans hexp)
    · exact Or.inl rfl
  | @evictExpired now hn =>
    apply (ht.mono hn.1).evict
    intro k
    simp only [GoMap.lookup_filter]
    cases hi : b.cache.items.lookup k with
    | none => exact Or.inl rfl
    | some item =>
      cases he : item.expired now with
      | false => exact Or.inl (Option.filter_some_pos (by rw [he]; rfl))
      | true =>
        refine Or.inr ⟨Option.filter_some_neg (by rw [he]; rfl),?_⟩
        intro item' entry hi' hR
        cases hi'
        exact hR.expired (hb.nonneg.trans hn.1) hn.2 he
  | _ => exact ht

theorem stepBoth_eq (h : stepBoth b e = some b') :
    step b.cache e = some b'.cache ∧ b'.map = (written b.cache e).elim b.map (·.apply b.map) := by
  obtain ⟨s,hs,rfl⟩ := Option.map_eq_some_iff.mp h
  exact ⟨hs,rfl⟩

theorem CacheOk.step (hb : CacheOk b) (h : stepBoth b e = some b') : CacheOk b' := by
  obtain ⟨hs,hm⟩ := stepBoth_eq h
  have hd := does_of_step hs
  exact ⟨hb.nonneg.trans hd.clock_le,hd.clock_lt hb.lt,hb.callsOk hd,hm ▸ hb.trims_step hd⟩

theorem cacheOk_start : CacheOk (Both.start d : Both V) where
  nonneg := le_rfl
  lt := by simp [Both.start,newCache]
  calls _ _ h := by simp [Both.start,newCache] at h
  trims := by
    simp only [Both.start,newCache,Finmap.lookup_empty]
    exact Trims.empty

theorem cacheOk_of_runs (h : Runs stepBoth (Both.start d) es b) : CacheOk b :=
  h.invariant cacheOk_start (fun hb _ he => hb.step he)

/-! ## What a call has seen -/

theorem Moment.append (h : Moment d es t P) (fs : List (Event V)) : Moment d (es ++ fs) t P := by
  obtain ⟨gs,hs,b,rfl,hb,hrest⟩ := h
  exact ⟨gs,hs ++ fs,b,List.append_assoc gs hs fs,hb,hrest⟩

theorem Moment.imp (h : Moment d es t P) (hPQ : ∀ b, P b → Q b) : Moment d es t Q := by
  obtain ⟨fs,gs,b,he,hb,hin,hP⟩ := h
  exact ⟨fs,gs,b,he,hb,hin,hPQ b hP⟩

/-- The end of the run so far is a moment of it. -/
theorem moment_of (h : Runs stepBoth (Both.start d) es b) (hin : InCall b t) (hP : P b)
    (fs : List (Event V)) : Moment d (es ++ fs) t P := ⟨es,fs,b,rfl,h,hin,hP⟩

theorem Unwritten.of_append (h : Unwritten d (es ++ fs) t key) : Unwritten d es t key := by
  rintro gs e hs b w rfl
  exact h gs e (hs ++ fs) b w (List.append_assoc gs (e :: hs) fs)

theorem Unwritten.map_eq (h : Unwritten d (es ++ [e]) t key)
    (hr : Runs stepBoth (Both.start d) es b) (hin : InCall b t) (he : stepBoth b e = some b') :
    b'.map key = b.map key := by
  obtain ⟨-,hm⟩ := stepBoth_eq he
  rw [hm]
  cases hw : written b.cache e with
  | none => rfl
  | some w => exact Write.apply_of_not_touches (h es e [] b w rfl hr hin hw)

/-- The item stood for the map's entry at a moment up to now. -/
def Stood (now : ℤ) (key : String) (item : Item V) (b : Both V) : Prop :=
  0 ≤ b.cache.clock ∧ b.cache.clock ≤ now ∧ ∃ entry, b.map key = some entry ∧ Represents item entry

theorem Stood.mono (h : Stood now key item b) (hn : now ≤ now') : Stood now' key item b :=
  ⟨h.1,h.2.1.trans hn,h.2.2⟩

/-- What a call of `Get` knows of the map where it stands. -/
def Seen (d : Int64) (es : List (Event V)) (b : Both V) (t : CallID) : Position V → Prop
  | .checking key item => Moment d es t (Stood b.cache.clock key item) ∧
      (Unwritten d es t key → ∃ entry, b.map key = some entry ∧ Represents item entry)
  | .removing key _ => Unwritten d es t key → Moment d es t (fun b => b.answer key = none)
  | .got key (some v) => Moment d es t (fun b => b.answer key = some v)
  | .got key none => Unwritten d es t key → Moment d es t (fun b => b.answer key = none)
  | _ => True

def AllSeen (d : Int64) (es : List (Event V)) (b : Both V) : Prop :=
  ∀ t p, b.cache.calls.lookup t = some p → Seen d es b t p

theorem Seen.mono (h : Seen d es b t p) (ht : b.cache.calls.lookup t = some p)
    (hr : Runs stepBoth (Both.start d) es b) (he : stepBoth b e = some b') :
    Seen d (es ++ [e]) b' t p := by
  cases p with
  | checking key item =>
    obtain ⟨hm,hu⟩ := h
    have hn := (does_of_step (stepBoth_eq he).1).clock_le
    refine ⟨(hm.append [e]).imp (fun b hb => hb.mono hn),?_⟩
    intro hun
    rw [hun.map_eq hr ⟨_,ht,rfl⟩ he]
    exact hu hun.of_append
  | removing key item => exact fun hun => (h hun.of_append).append [e]
  | got key result =>
    cases result with
    | none => exact fun hun => (h hun.of_append).append [e]
    | some v => exact h.append [e]
  | _ => trivial

theorem AllSeen.setCall (ha : AllSeen d es b) (hr : Runs stepBoth (Both.start d) es b)
    (he : stepBoth b e = some b') (hcalls : b'.cache.calls = b.cache.calls.insert t p)
    (hp : Seen d (es ++ [e]) b' t p) : AllSeen d (es ++ [e]) b' := by
  intro t₀ p₀ h₀
  rw [hcalls,GoMap.lookup_insert_eq] at h₀
  split at h₀
  · rename_i hk
    subst hk
    cases h₀
    exact hp
  · exact (ha t₀ p₀ h₀).mono h₀ hr he

theorem CacheOk.stood (hb : CacheOk b) (hi : b.cache.items.lookup key = some item) :
    Stood b.cache.clock key item b := ⟨hb.nonneg,le_rfl,hb.trims.sound key item hi⟩

/-- An item that has not expired by now was live when it stood for the entry. -/
theorem Stood.answer (h : Stood now key item b) (hlt : now < 2 ^ 63)
    (he : item.expired now = false) : b.answer key = some item.value := by
  obtain ⟨h0,hn,entry,hm,hR⟩ := h
  have hlive : entry.live b.cache.clock = true := by
    apply hR.live h0 (by omega)
    by_contra hexp
    rw [expired_mono h0 hn hlt (by simpa using hexp)] at he
    cases he
  exact get_eq_some_iff.mpr ⟨entry,hm,hlive,hR.1.symm⟩

theorem seen_startSet {value : V} {duration : Int64} :
    Seen d es b t (s.startSet key value duration) := by
  unfold State.startSet
  generalize (if duration = 0 then s.defaultExpiration else duration) = duration
  dsimp only
  split <;> trivial

theorem AllSeen.step (ha : AllSeen d es b) (hr : Runs stepBoth (Both.start d) es b)
    (he : stepBoth b e = some b') : AllSeen d (es ++ [e]) b' := by
  have hb := cacheOk_of_runs hr
  have hset : ∀ {t : CallID} {p : Position V}, b'.cache.calls = b.cache.calls.insert t p →
      Seen d (es ++ [e]) b' t p → AllSeen d (es ++ [e]) b' := fun hc hp => ha.setCall hr he hc hp
  obtain ⟨hs,hm⟩ := stepBoth_eq he
  obtain ⟨s',m'⟩ := b'
  cases does_of_step hs with
  | set => exact hset rfl seen_startSet
  | miss hp hi => exact hset rfl (fun _ => moment_of hr ⟨_,hp,rfl⟩ (hb.trims.get_eq_none hi) _)
  | @hit t key item hp hi hpos =>
    have hfresh : item.expired b.cache.clock = false := by simp [Item.expired,hpos]
    exact hset rfl (moment_of hr ⟨_,hp,rfl⟩ ((hb.stood hi).answer hb.lt hfresh) _)
  | @found t key item hp hi =>
    refine hset rfl ⟨moment_of hr ⟨_,hp,rfl⟩ (hb.stood hi) _,fun _ => ?_⟩
    rw [hm]
    exact hb.trims.sound key item hi
  | @expired t now key item hp hn hexp =>
    refine hset rfl (fun hun => ⟨_,[],_,(List.append_nil _).symm,hr.append (Runs.single he),
      ⟨.removing key item,Finmap.lookup_insert _,rfl⟩,?_⟩)
    -- the entry is past its deadline at this reading of the clock
    obtain ⟨entry,hentry,hR⟩ := (ha t _ hp).2 hun.of_append
    have hpos : 0 < item.expiration := hb.calls t _ hp
    have hexpired : item.expired now = true :=
      Bool.and_eq_true_iff.mpr ⟨decide_eq_true hpos,decide_eq_true hexp⟩
    apply get_eq_none_iff.mpr
    intro entry' h'
    rw [hun.map_eq hr ⟨_,hp,rfl⟩ he,hentry] at h'
    cases h'
    exact hR.expired (hb.nonneg.trans hn.1) hn.2 hexpired
  | @fresh t now key item hp hn hexp =>
    have hfresh : item.expired now = false := by simp only [Item.expired,hexp,decide_false,Bool.and_false]
    exact hset rfl (((ha t _ hp).1.append _).imp
      (fun _ hstood => (hstood.mono hn.1).answer hn.2 hfresh))
  | remove hp => exact hset rfl (fun hun => (ha _ _ hp hun.of_append).append _)
  | leave hp => exact hset rfl (fun hun => (ha _ _ hp hun.of_append).append _)
  | evictExpired =>
    intro t p ht
    exact (ha t p ht).mono ht hr he
  | _ => exact hset rfl trivial

theorem allSeen_of_runs (h : Runs stepBoth (Both.start d : Both V) es b) : AllSeen d es b :=
  RunsWhen.history h (fun _ _ ht => by simp [Both.start,newCache] at ht)
    (fun hr ha _ he => ha.step hr he)

/-- The steps that drop items by themselves. -/
def Event.drops : Event V → Bool
  | .remove _ | .evictExpired _ => true
  | _ => false

theorem lookup_of_drops (hd : e.drops = true) (h : Does s e s') :
    s'.items.lookup key = s.items.lookup key ∨ s'.items.lookup key = none := by
  cases h with
  | remove =>
    simp only [State.setCall,GoMap.lookup_erase_eq]
    split
    · exact Or.inr rfl
    · exact Or.inl rfl
  | leave => exact Or.inl rfl
  | evictExpired =>
    simp only [GoMap.lookup_filter]
    cases s.items.lookup key with
    | none => exact Or.inr rfl
    | some item =>
      cases he : item.expired _ with
      | false => exact Or.inl (Option.filter_some_pos (by rw [he]; rfl))
      | true => exact Or.inr (Option.filter_some_neg (by rw [he]; rfl))
  | _ => cases hd

/-- What lives in the map keeps its item. -/
theorem CacheOk.keeps (hb : CacheOk b) (hd : e.drops = true) (h : stepBoth b e = some b')
    (hm : b.map key = some entry) (hl : entry.live b'.cache.clock = true) :
    b'.cache.items.lookup key = b.cache.items.lookup key := by
  obtain ⟨hs,hmap⟩ := stepBoth_eq h
  have hsame : b'.map = b.map := by
    rw [hmap]
    cases e with
    | remove => rfl
    | evictExpired => rfl
    | _ => cases hd
  obtain ⟨item,hi⟩ := (hb.step h).trims.complete key entry (by rw [hsame]; exact hm) hl
  rcases lookup_of_drops hd (does_of_step hs) with heq | hn
  · exact heq
  · cases hi.symm.trans hn

/-- In every run of the cache, with the map of the same writes: the lazy removal and the
eviction keep what lives in the map, whatever lives has its item, every hit is an answer of
the map at a moment of the call, and so is every result where the key is not written during
the call. -/
theorem cache_refines_map (h : Runs step (newCache d : State V) es s) :
    ∃ m, Runs stepBoth (Both.start d) es ⟨s,m⟩ ∧
    (∀ e s', step s e = some s' → e.drops = true → ∀ key entry, m key = some entry →
      entry.live s'.clock = true → s'.items.lookup key = s.items.lookup key) ∧
    (∀ key v, get m s.clock key = some v →
      ∃ item, s.items.lookup key = some item ∧ item.value = v) ∧
    (∀ t key v, s.calls.lookup t = some (.got key (some v)) →
      Moment d es t (fun b => b.answer key = some v)) ∧
    ∀ t key result, s.calls.lookup t = some (.got key result) → Unwritten d es t key →
      Moment d es t (fun b => b.answer key = result) := by
  obtain ⟨m,hm⟩ := exists_runs_both h (fun _ => none)
  have hb := cacheOk_of_runs hm
  have hseen := allSeen_of_runs hm
  refine ⟨m,hm,?_,?_,?_,?_⟩
  · intro e s' he hd key entry hk hl
    have hboth : stepBoth ⟨s,m⟩ e = some ⟨s',(written s e).elim m (·.apply m)⟩ := by
      simp only [stepBoth,he,Option.map_some]
    exact hb.keeps hd hboth hk hl
  · intro key v hv
    obtain ⟨entry,hk,hl,rfl⟩ := get_eq_some_iff.mp hv
    obtain ⟨item,hi⟩ := hb.trims.complete key entry hk hl
    obtain ⟨entry',hk',hR⟩ := hb.trims.sound key item hi
    cases hk.symm.trans hk'
    exact ⟨item,hi,hR.1⟩
  · intro t key v ht
    exact hseen t _ ht
  · intro t key result ht hun
    have hgot := hseen t _ ht
    cases result with
    | none => exact hgot hun
    | some v => exact hgot

/-- The item is set again between the reading of the clock and the removal. -/
def setAgain : List (Event ℕ) :=
  [.call 0 (.set "user:7" 1 10),.time 0 5,.store 0 6,.call 1 (.get "user:7"),.read 1,.check 1 16,
    .call 2 (.set "user:7" 2 10),.time 2 17,.store 2 18,.remove 1,.evictExpired 27,
    .call 3 (.get "user:7"),.read 3,.check 3 27]

theorem cache_refines_map_setAgain : ∃ s, Runs step (newCache 60) setAgain s ∧
    s.calls.lookup 1 = some (.got "user:7" none) ∧
    Moment 60 setAgain 3 (fun b => b.answer "user:7" = some 2) := by
  have hrun : Runs step (newCache 60) setAgain (after step (newCache 60) setAgain) :=
    runs_after (by decide +kernel)
  obtain ⟨m,-,-,-,hhit,-⟩ := cache_refines_map hrun
  exact ⟨_,hrun,by rfl,hhit 3 "user:7" 2 (by rfl)⟩

end MiniDiscord.TtlCache
