import MiniDiscord.Auth.EmailTokens

/-! # Which verification link works

A verification acts on a row that it has locked and that is unused until it commits, so no
token is verified twice. Only a creation adds an unused token; that it is the only one of
its user rests on what its own `DELETE` did not see.
-/
namespace MiniDiscord.Auth.EmailVerification
open Transition ReadCommitted

variable {s s' : State} {e : Event} {t j : CallID} {u : UserID} {x : TokenHash} {row : TokenRow}
  {db : Tables} {w : Write} {ws : List Write}

/-- The row that a write changes. -/
def Write.target : Write → Option TokenHash
  | .deleteToken h => some h
  | .insertToken h _ => some h
  | .useToken h _ => some h
  | .verifyUser _ => none

def Write.inserts : Write → Bool
  | .insertToken _ _ => true
  | _ => false

theorem apply_of_ne (h : w.target ≠ some x) : (apply db w).tokens.lookup x = db.tokens.lookup x := by
  cases w with
  | deleteToken y =>
    have hne : x ≠ y := fun he => h (congrArg some he.symm)
    simp [apply, hne]
  | insertToken y row =>
    have hne : x ≠ y := fun he => h (congrArg some he.symm)
    simp [apply, hne]
  | useToken y now =>
    have hne : x ≠ y := fun he => h (congrArg some he.symm)
    unfold apply
    dsimp only
    split
    · rfl
    · simp [hne]
  | verifyUser => rfl

theorem foldl_of_ne (h : ∀ w ∈ ws, w.target ≠ some x) :
    (ws.foldl apply db).tokens.lookup x = db.tokens.lookup x := by
  induction ws generalizing db with
  | nil => rfl
  | cons w ws ih =>
    rw [List.foldl_cons,ih (fun w hw => h w (List.mem_cons_of_mem _ hw)),
      apply_of_ne (h w List.mem_cons_self)]

/-- Deleting and using a token leave no new unused one. -/
theorem unused_of_apply (hw : w.inserts = false) (hx : (apply db w).tokens.lookup x = some row)
    (hu : row.usedAt = none) : db.tokens.lookup x = some row := by
  cases w with
  | deleteToken y =>
    exact (GoMap.lookup_of_erase hx).2
  | insertToken => cases hw
  | useToken y now =>
    unfold apply at hx
    dsimp only at hx
    split at hx
    · exact hx
    · rw [GoMap.lookup_insert_eq] at hx
      split at hx
      · cases hx
        cases hu
      · exact hx
  | verifyUser => exact hx

theorem unused_of_foldl (hw : ∀ w ∈ ws, w.inserts = false)
    (hx : (ws.foldl apply db).tokens.lookup x = some row) (hu : row.usedAt = none) :
    db.tokens.lookup x = some row := by
  induction ws generalizing db with
  | nil => exact hx
  | cons w ws ih =>
    exact unused_of_apply (hw w List.mem_cons_self)
      (ih (fun w hm => hw w (List.mem_cons_of_mem _ hm)) hx) hu

/-- The call holds the lock of an unused token of the user. -/
structure LocksUnused (s : State) (t : CallID) (h : TokenHash) (u : UserID) : Prop where
  lock : s.tokenLocks h = some t
  unused : ∃ row, s.db.tokens.lookup h = some row ∧ row.userID = u ∧ row.usedAt = none

/-- What a call has locked and written, where it stands. -/
def Holds (s : State) (t : CallID) : Call → Prop
  | .deleting u _ _ _ => ∀ w ∈ s.store.pending t, ∃ h, w = .deleteToken h ∧ LocksUnused s t h u
  | .checking h row => s.store.pending t = [] ∧ s.tokenLocks h = some t ∧
      s.db.tokens.lookup h = some row
  | .updatingToken h u => s.store.pending t = [] ∧ LocksUnused s t h u
  | .updatingUser h u => ∃ now, s.store.pending t = [.useToken h now] ∧ LocksUnused s t h u
  | .committing h u => ∃ now, s.store.pending t = [.useToken h now,.verifyUser u] ∧
      LocksUnused s t h u
  | _ => s.store.pending t = []

/-- Other calls keep what a call has written, locked and found. -/
structure Keeps (s s' : State) (t : CallID) : Prop where
  pending : s'.store.pending t = s.store.pending t
  locks : ∀ h, s.tokenLocks h = some t → s'.tokenLocks h = some t
  rows : ∀ h row, s.tokenLocks h = some t → s.db.tokens.lookup h = some row →
    s'.db.tokens.lookup h = some row

theorem Keeps.locksUnused (hk : Keeps s s' t) (h : LocksUnused s t x u) : LocksUnused s' t x u := by
  obtain ⟨row,hr,hu⟩ := h.unused
  exact ⟨hk.locks x h.lock,row,hk.rows x row h.lock hr,hu⟩

theorem Keeps.holds (hk : Keeps s s' t) {c : Call} (h : Holds s t c) : Holds s' t c := by
  have hp := hk.pending
  cases c with
  | deleting =>
    intro w hw
    rw [hp] at hw
    obtain ⟨y,hy,hl⟩ := h w hw
    exact ⟨y,hy,hk.locksUnused hl⟩
  | checking y row => exact ⟨hp.trans h.1,hk.locks y h.2.1,hk.rows y row h.2.1 h.2.2⟩
  | updatingToken => exact ⟨hp.trans h.1,hk.locksUnused h.2⟩
  | updatingUser =>
    obtain ⟨now,hn,hl⟩ := h
    exact ⟨now,hp.trans hn,hk.locksUnused hl⟩
  | committing =>
    obtain ⟨now,hn,hl⟩ := h
    exact ⟨now,hp.trans hn,hk.locksUnused hl⟩
  | idle => exact hp.trans h
  | inserting => exact hp.trans h
  | selecting => exact hp.trans h

/-- Every waiting write is on a row that its call has locked, and none inserts. -/
theorem Holds.pending {c : Call} (h : Holds s t c) (hw : w ∈ s.store.pending t) :
    w.inserts = false ∧ ∀ y, w.target = some y → s.tokenLocks y = some t := by
  cases c with
  | deleting =>
    obtain ⟨y,rfl,hl⟩ := h w hw
    refine ⟨rfl,fun y' hy => ?_⟩
    cases hy
    exact hl.lock
  | updatingUser =>
    obtain ⟨now,hp,hl⟩ := h
    rw [hp] at hw
    rw [List.mem_singleton.mp hw]
    refine ⟨rfl,fun y hy => ?_⟩
    cases hy
    exact hl.lock
  | committing =>
    obtain ⟨now,hp,hl⟩ := h
    rw [hp] at hw
    rcases List.mem_cons.mp hw with rfl | hw
    · refine ⟨rfl,fun y hy => ?_⟩
      cases hy
      exact hl.lock
    · rw [List.mem_singleton.mp hw]
      exact ⟨rfl,fun y hy => nomatch hy⟩
  | checking => rw [h.1] at hw; cases hw
  | updatingToken => rw [h.1] at hw; cases hw
  | _ =>
    rw [show s.store.pending t = [] from h] at hw
    cases hw

theorem Keeps.trans {s₁ s₂ s₃ : State} (h : Keeps s₁ s₂ t) (h' : Keeps s₂ s₃ t) : Keeps s₁ s₃ t where
  pending := h'.pending.trans h.pending
  locks y hy := h'.locks y (h.locks y hy)
  rows y row hy hr := h'.rows y row (h.locks y hy) (h.rows y row hy hr)

theorem keeps_setCall (s : State) (j : CallID) (c : Call) : Keeps s (s.setCall j c) t :=
  ⟨rfl,fun _ => id,fun _ _ _ => id⟩

section Frames
variable (hne : t ≠ j)
include hne

theorem keeps_write (s : State) (w : Write) : Keeps s (s.write j w) t :=
  ⟨pending_write_of_ne s.store hne,fun _ => id,fun _ _ _ => id⟩

omit hne in
theorem keeps_lockToken (hl : s.tokenLocks x = none) : Keeps s (s.lockToken j x) t where
  pending := rfl
  locks y hy := by
    have hyx : y ≠ x := by
      rintro rfl
      rw [hl] at hy
      cases hy
    exact (Function.update_of_ne hyx _ _).trans hy
  rows _ _ _ := id

theorem keeps_release (s : State) : Keeps s (s.release j) t where
  pending := rfl
  locks y hy := by
    change (if s.tokenLocks y = some j then none else s.tokenLocks y) = some t
    rw [if_neg (by rw [hy]; exact fun h => hne (Option.some.inj h)),hy]
  rows _ _ _ := id

theorem keeps_abort (s : State) : Keeps s (s.abort j) t := by
  have hr : Keeps s { s with store := s.store.rollback j } t :=
    ⟨pending_rollback_of_ne s.store hne,fun _ => id,fun _ _ _ => id⟩
  exact (hr.trans (keeps_release hne _)).trans (keeps_setCall _ _ _)

theorem keeps_commit (hw : ∀ w ∈ s.store.pending j, ∀ y, w.target = some y →
    s.tokenLocks y ≠ some t) : Keeps s (s.commit j) t := by
  have hc : Keeps s { s with store := s.store.commit apply j } t := by
    refine ⟨pending_commit_of_ne apply s.store hne,fun _ => id,fun y row hy hr => ?_⟩
    exact (foldl_of_ne (fun w hm ht => hw w hm y ht hy)).trans hr
  exact hc.trans (keeps_release hne _)

/-- A call that holds what it should commits to its own rows. -/
theorem Holds.keeps_commit {c : Call} (h : Holds s j c) : Keeps s (s.commit j) t := by
  refine EmailVerification.keeps_commit hne (fun w hw y hy hl => ?_)
  rw [(h.pending hw).2 y hy] at hl
  exact hne (Option.some.inj hl).symm

end Frames

@[simp] theorem pending_commit_self (s : State) : (s.commit j).store.pending j = [] :=
  pending_commit apply s.store

@[simp] theorem pending_abort_self (s : State) : (s.abort j).store.pending j = [] :=
  pending_rollback s.store

/-- One call moves on, the others keep what they hold. -/
theorem holds_of {c : Call} (h : ∀ t, Holds s t (s.calls t)) (hk : ∀ t, t ≠ j → Keeps s s' t)
    (hc : s'.calls = Function.update s.calls j c) (hj : Holds s' j c) :
    ∀ t, Holds s' t (s'.calls t) := by
  intro t
  rw [hc]
  by_cases ht : t = j
  · subst ht
    rw [Function.update_self]
    exact hj
  · rw [Function.update_of_ne ht]
    exact (hk t ht).holds (h t)

theorem mem_unused (h : unused db u x = true) : ∃ row, db.tokens.lookup x = some row ∧
    row.userID = u ∧ row.usedAt = none := by
  unfold unused at h
  cases hr : db.tokens.lookup x with
  | none =>
    rw [hr] at h
    cases h
  | some row =>
    rw [hr] at h
    exact ⟨row,rfl,of_decide_eq_true h⟩

theorem step_holds (h : ∀ t, Holds s t (s.calls t)) (he : step s e = some s') :
    ∀ t, Holds s' t (s'.calls t) := by
  have hj : ∀ {j c}, s.calls j = c → Holds s j c := fun hc => hc ▸ h _
  cases step_view he with
  | @create j u y expiresAt hc =>
    refine holds_of h (fun t _ => keeps_setCall s j _) rfl ?_
    have hp : s.store.pending j = [] := hj hc
    intro w hw
    change w ∈ s.store.pending j at hw
    rw [hp] at hw
    cases hw
  | @deleteRow j u y expiresAt rows x hc _ hl hu =>
    refine holds_of h (fun t ht => ((keeps_write ht s _).trans (keeps_lockToken hl)).trans
      (keeps_setCall _ _ _)) rfl ?_
    have hx : (s.lockToken j x).tokenLocks x = some j := Function.update_self _ _ _
    have hk : Keeps s (s.lockToken j x) j := keeps_lockToken hl
    intro w hw
    change w ∈ (s.store.write j (.deleteToken x)).pending j at hw
    rw [pending_write] at hw
    rcases List.mem_append.mp hw with hw | hw
    · obtain ⟨z,rfl,hz⟩ := hj hc w hw
      have hz' := hk.locksUnused hz
      exact ⟨z,rfl,hz'.lock,hz'.unused⟩
    · exact ⟨x,List.mem_singleton.mp hw,hx,mem_unused hu⟩
  | @skipRow j u y expiresAt rows x hc =>
    have hk := (keeps_setCall s j (.deleting u y expiresAt (rows.erase x))).holds (hj hc)
    exact holds_of h (fun t _ => keeps_setCall s j _) rfl hk
  | @deleted j u y expiresAt hc =>
    exact holds_of h (fun t ht => ((hj hc).keeps_commit ht).trans (keeps_setCall _ _ _)) rfl
      (pending_commit_self s)
  | @insert j u y expiresAt hc hl hn =>
    have hp : s.store.pending j = [] := hj hc
    refine holds_of h (fun t ht => ?_) rfl (pending_commit_self (s.write j _))
    refine ((keeps_write ht s (.insertToken y ⟨u,expiresAt,none⟩)).trans
      (keeps_commit ht (fun w hw z hz => ?_))).trans ⟨rfl,fun _ => id,fun _ _ _ => id⟩
    change w ∈ (s.store.write j (.insertToken y ⟨u,expiresAt,none⟩)).pending j at hw
    rw [pending_write,hp] at hw
    rw [List.mem_singleton.mp hw] at hz
    cases hz
    change s.tokenLocks y ≠ some t
    rw [hl]
    simp
  | @duplicate j u y expiresAt hc =>
    exact holds_of h (fun t _ => keeps_setCall s j _) rfl (hj hc)
  | @verify j y hc => exact holds_of h (fun t _ => keeps_setCall s j _) rfl (hj hc)
  | @unknown j y hc => exact holds_of h (fun t ht => keeps_abort ht s) rfl (pending_abort_self s)
  | @select j y row hc hr hl =>
    refine holds_of h (fun t ht => (keeps_lockToken hl).trans (keeps_setCall _ _ _)) rfl ?_
    exact ⟨hj hc,Function.update_self _ _ _,hr⟩
  | @refused j y row now hc => exact holds_of h (fun t ht => keeps_abort ht s) rfl (pending_abort_self s)
  | @checked j y row now hc hu =>
    obtain ⟨hp,hl,hr⟩ := hj hc
    exact holds_of h (fun t _ => keeps_setCall s j _) rfl ⟨hp,hl,row,hr,rfl,hu⟩
  | @updateToken j y u now hc =>
    obtain ⟨hp,hl⟩ := hj hc
    refine holds_of h (fun t ht => (keeps_write ht s _).trans (keeps_setCall _ _ _)) rfl ⟨now,?_,?_⟩
    · exact (pending_write s.store).trans (by rw [hp]; rfl)
    · exact ⟨hl.lock,hl.unused⟩
  | @updateUser j y u hc hl =>
    obtain ⟨now,hp,hl⟩ := hj hc
    have hu : ∀ t, Keeps s (s.lockUser j u) t := fun t => ⟨rfl,fun _ => id,fun _ _ _ => id⟩
    refine holds_of h (fun t ht => (keeps_write ht s _).trans ⟨rfl,fun _ => id,fun _ _ _ => id⟩) rfl
      ⟨now,?_,?_⟩
    · exact (pending_write s.store).trans (by rw [hp]; rfl)
    · exact ⟨hl.lock,hl.unused⟩
  | @commit j y u hc =>
    exact holds_of h (fun t ht => ((hj hc).keeps_commit ht).trans ⟨rfl,fun _ => id,fun _ _ _ => id⟩) rfl
      (pending_commit_self s)
  | @fail j hc => exact holds_of h (fun t ht => keeps_abort ht s) rfl (pending_abort_self s)

/-- What a step does to the committed tables and to the two histories. -/
inductive Commits (s : State) : Event → State → Prop
  | same {e : Event} {s' : State} : (∀ t, e ≠ .insert t) → s'.db = s.db → s'.created = s.created →
      s'.verified = s.verified → Commits s e s'
  | duplicate {t : CallID} {u : UserID} {h : TokenHash} {expiresAt : ℤ} {s' : State} :
      s.calls t = .inserting u h expiresAt → h ∈ s.db.tokens → s'.db = s.db →
      s'.created = s.created → s'.verified = s.verified → Commits s (.insert t) s'
  | deleted {t : CallID} {u : UserID} {h : TokenHash} {expiresAt : ℤ} {s' : State} :
      s.calls t = .deleting u h expiresAt ∅ → s'.db = (s.store.pending t).foldl apply s.db →
      s'.created = s.created → s'.verified = s.verified → Commits s (.deleted t) s'
  | inserted {t : CallID} {u : UserID} {h : TokenHash} {expiresAt : ℤ} {s' : State} :
      s.calls t = .inserting u h expiresAt → h ∉ s.db.tokens →
      s'.db = apply s.db (.insertToken h ⟨u,expiresAt,none⟩) → s'.created = s.created ++ [(u,h)] →
      s'.verified = s.verified → Commits s (.insert t) s'
  | verified {t : CallID} {h : TokenHash} {u : UserID} {s' : State} : s.calls t = .committing h u →
      s'.db = (s.store.pending t).foldl apply s.db → s'.created = s.created →
      s'.verified = s.verified ++ [h] → Commits s (.commit t) s'

theorem step_commits (h : ∀ t, Holds s t (s.calls t)) (he : step s e = some s') :
    Commits s e s' := by
  cases step_view he with
  | deleted hc => exact .deleted hc rfl rfl rfl
  | @insert j u y expiresAt hc _ hn =>
    refine .inserted hc hn ?_ rfl rfl
    have hp : s.store.pending j = [] := by
      have hj := h j
      rw [hc] at hj
      exact hj
    change ((s.store.write j (.insertToken y ⟨u,expiresAt,none⟩)).pending j).foldl apply s.db = _
    rw [pending_write,hp]
    rfl
  | duplicate hc hn => exact .duplicate hc hn rfl rfl rfl
  | commit hc => exact .verified hc rfl rfl rfl
  | _ => exact .same (fun t ht => nomatch ht) rfl rfl rfl

/-- A verified token is used for good, and none is verified twice. -/
structure Once (s : State) : Prop where
  holds : ∀ t, Holds s t (s.calls t)
  used : ∀ h ∈ s.verified, ∃ row, s.db.tokens.lookup h = some row ∧ row.usedAt ≠ none
  nodup : s.verified.Nodup

theorem once_init : Once init where
  holds _ := rfl
  used _ hh := nomatch hh
  nodup := List.nodup_nil

/-- A used token is no token that some call is about to delete or to use. -/
theorem LocksUnused.ne {y : TokenHash} (hl : LocksUnused s t y u)
    (hr : s.db.tokens.lookup x = some row) (hu : row.usedAt ≠ none) : y ≠ x := by
  rintro rfl
  obtain ⟨row',hr',-,hn⟩ := hl.unused
  rw [hr] at hr'
  cases hr'
  exact hu hn

theorem step_once (h : Once s) (he : step s e = some s') : Once s' := by
  have hj : ∀ {j c}, s.calls j = c → Holds s j c := fun hc => hc ▸ h.holds _
  refine ⟨step_holds h.holds he,?_,?_⟩
  case refine_1 =>
    intro x hx
    cases step_commits h.holds he with
    | same _ hdb _ hv =>
      rw [hv] at hx
      rw [hdb]
      exact h.used x hx
    | duplicate _ _ hdb _ hv =>
      rw [hv] at hx
      rw [hdb]
      exact h.used x hx
    | @deleted t u y expiresAt _ hc hdb _ hv =>
      rw [hv] at hx
      obtain ⟨row,hr,hu⟩ := h.used x hx
      refine ⟨row,?_,hu⟩
      rw [hdb,foldl_of_ne,hr]
      intro w hw ht
      obtain ⟨z,rfl,hz⟩ := hj hc w hw
      exact hz.ne hr hu (Option.some.inj ht)
    | @inserted t u y expiresAt _ _ hn hdb _ hv =>
      rw [hv] at hx
      obtain ⟨row,hr,hu⟩ := h.used x hx
      refine ⟨row,?_,hu⟩
      rw [hdb,apply_of_ne,hr]
      intro ht
      rw [Option.some.inj ht] at hn
      exact hn (Finmap.mem_of_lookup_eq_some hr)
    | @verified t y u _ hc hdb _ hv =>
      obtain ⟨now,hp,hl⟩ := hj hc
      rw [hdb,hp]
      rw [hv] at hx
      rcases List.mem_append.mp hx with hx | hx
      · obtain ⟨row,hr,hu⟩ := h.used x hx
        refine ⟨row,?_,hu⟩
        have hyx := hl.ne hr hu
        rw [foldl_of_ne,hr]
        intro w hw ht
        rcases List.mem_cons.mp hw with rfl | hw
        · exact hyx (Option.some.inj ht)
        · rw [List.mem_singleton.mp hw] at ht
          cases ht
      · rw [List.mem_singleton.mp hx]
        obtain ⟨row,hr,-,-⟩ := hl.unused
        refine ⟨{ row with usedAt := some now },?_,by simp⟩
        simp [apply, hr]
  case refine_2 =>
    cases step_commits h.holds he with
    | same _ _ _ hv =>
      rw [hv]
      exact h.nodup
    | duplicate _ _ _ _ hv =>
      rw [hv]
      exact h.nodup
    | deleted _ _ _ hv =>
      rw [hv]
      exact h.nodup
    | inserted _ _ _ _ hv =>
      rw [hv]
      exact h.nodup
    | @verified t y u _ hc _ _ hv =>
      obtain ⟨now,-,hl⟩ := hj hc
      rw [hv,List.nodup_append]
      refine ⟨h.nodup,List.nodup_singleton y,?_⟩
      intro z hz z' hz' hzz
      rw [List.mem_singleton.mp hz'] at hzz
      subst hzz
      obtain ⟨row,hr,hu⟩ := h.used z hz
      exact hl.ne hr hu rfl

/-- The token inserted last for a user. -/
def State.newest (s : State) (u : UserID) : Option TokenHash :=
  (s.created.filter (fun c => decide (c.1 = u))).getLast?.map Prod.snd

/-- Each user has at most one unused token, the one inserted last. -/
def NewestOnly (s : State) : Prop := ∀ h row, s.db.tokens.lookup h = some row →
  row.usedAt = none → s.newest row.userID = some h

/-- A token is inserted when its user has no unused one. -/
def InsertsAlone (s : State) : Event → Prop
  | .insert t => match s.calls t with
    | .inserting u h _ => h ∉ s.db.tokens → s.outstanding u = ∅
    | _ => True
  | _ => True

instance (s : State) (e : Event) : Decidable (InsertsAlone s e) := by
  unfold InsertsAlone
  split
  · split <;> infer_instance
  · infer_instance

theorem mem_outstanding (s : State) (u : UserID) (x : TokenHash) : x ∈ s.outstanding u ↔
    ∃ row, s.db.tokens.lookup x = some row ∧ row.userID = u ∧ row.usedAt = none := by
  unfold State.outstanding
  rw [Finset.mem_filter]
  constructor
  · exact fun h => mem_unused h.2
  · rintro ⟨row,hr,hu⟩
    refine ⟨(GoMap.mem_keys_iff _ _).mpr ⟨row,hr⟩,?_⟩
    rw [unused,hr]
    exact decide_eq_true hu

theorem newest_append (s' : State) {c : List (UserID × TokenHash)} (h : s'.created = c ++ [(u,x)]) :
    s'.newest u = some x := by
  simp [State.newest, h]

theorem newest_append_of_ne {v : UserID} (h : s'.created = s.created ++ [(u,x)]) (hv : v ≠ u) :
    s'.newest v = s.newest v := by
  simp [State.newest, h, hv.symm]

/-- A step inserts alone if and only if it keeps the newest token the only unused one. -/
theorem insertsAlone_iff (h : Once s) (hn : NewestOnly s) (he : step s e = some s') :
    InsertsAlone s e ↔ NewestOnly s' := by
  have hj : ∀ {j c}, s.calls j = c → Holds s j c := fun hc => hc ▸ h.holds _
  have hkept : (∀ x row, s'.db.tokens.lookup x = some row → row.usedAt = none →
      s.db.tokens.lookup x = some row) → s'.created = s.created → NewestOnly s' := by
    intro hdb hc x row hr hu
    have hx := hn x row (hdb x row hr hu) hu
    unfold State.newest at hx ⊢
    rw [hc]
    exact hx
  have hother : (∀ t, e ≠ .insert t) → InsertsAlone s e := by
    intro hne
    unfold InsertsAlone
    split
    · exact absurd rfl (hne _)
    · trivial
  cases step_commits h.holds he with
  | same hne hdb hc _ =>
    exact iff_of_true (hother hne) (hkept (fun x row hr _ => hdb ▸ hr) hc)
  | @duplicate t u y expiresAt _ hc hy hdb hcr _ =>
    refine iff_of_true ?_ (hkept (fun x row hr _ => hdb ▸ hr) hcr)
    unfold InsertsAlone
    dsimp only
    rw [hc]
    exact fun hn => absurd hy hn
  | @deleted t u y expiresAt _ hc hdb hcr _ =>
    refine iff_of_true (hother (fun t h => nomatch h)) (hkept (fun x row hr hu => ?_) hcr)
    rw [hdb] at hr
    exact unused_of_foldl (fun w hw => ((hj hc).pending hw).1) hr hu
  | @verified t y u _ hc hdb hcr _ =>
    refine iff_of_true (hother (fun t h => nomatch h)) (hkept (fun x row hr hu => ?_) hcr)
    rw [hdb] at hr
    exact unused_of_foldl (fun w hw => ((hj hc).pending hw).1) hr hu
  | @inserted t u y expiresAt _ hc hy hdb hcr _ =>
    have hi : InsertsAlone s (.insert t) ↔ s.outstanding u = ∅ := by
      unfold InsertsAlone
      dsimp only
      rw [hc]
      exact ⟨fun h => h hy,fun h _ => h⟩
    have hlookup : ∀ x, s'.db.tokens.lookup x =
        if x = y then some ⟨u,expiresAt,none⟩ else s.db.tokens.lookup x := by
      intro x
      rw [hdb]
      exact GoMap.lookup_insert_eq _ _ _ _
    rw [hi]
    constructor
    · intro hempty x row hr hu
      rw [hlookup] at hr
      split at hr
      · rename_i hx
        cases hr
        rw [hx]
        exact newest_append s' hcr
      · have hne : row.userID ≠ u := by
          intro hru
          have hmem := (mem_outstanding s u x).mpr ⟨row,hr,hru,hu⟩
          rw [hempty] at hmem
          cases hmem
        rw [newest_append_of_ne hcr hne]
        exact hn x row hr hu
    · intro hn'
      rw [Finset.eq_empty_iff_forall_notMem]
      intro x hx
      obtain ⟨row,hr,hru,hu⟩ := (mem_outstanding s u x).mp hx
      have hxy : x ≠ y := by
        rintro rfl
        exact hy (Finmap.mem_of_lookup_eq_some hr)
      have hnew := hn' x row (by rw [hlookup,if_neg hxy,hr]) hu
      rw [hru,newest_append s' hcr] at hnew
      exact hxy (Option.some.inj hnew).symm

/-- The event belongs to a verification and is not the commit that makes it succeed. -/
def Unsuccessful (s s' : State) (e : Event) : Prop :=
  ((s.calls e.call).verifies = true ∨ (s'.calls e.call).verifies = true) ∧ ∀ t, e ≠ .commit t

theorem unsuccessful_commits (he : step s e = some s') (hu : Unsuccessful s s' e) :
    s'.db = s.db ∧ s'.created = s.created ∧ s'.verified = s.verified := by
  obtain ⟨hv,hne⟩ := hu
  have hnot : ∀ {t : CallID} {c c' : Call}, e.call = t → s.calls t = c → s'.calls t = c' →
      c.verifies = false → c'.verifies = false → False := by
    intro t c c' ht hc hc' hf hf'
    rw [ht,hc,hc',hf,hf'] at hv
    exact hv.elim (fun h => nomatch h) (fun h => nomatch h)
  cases step_view he with
  | deleted hc => exact (hnot rfl hc (Function.update_self _ _ _) rfl rfl).elim
  | insert hc => exact (hnot rfl hc (Function.update_self _ _ _) rfl rfl).elim
  | commit => exact absurd rfl (hne _)
  | _ => exact ⟨rfl,rfl,rfl⟩

/-- A verification that ends without its commit is rolled back. -/
theorem unsuccessful_aborts (he : step s e = some s') (hu : Unsuccessful s s' e)
    (hidle : s'.calls e.call = .idle) : s' = s.abort e.call := by
  obtain ⟨hv,hne⟩ := hu
  have hnot : ∀ {t : CallID} {c : Call}, e.call = t → s.calls t = c → c.verifies = false → False := by
    intro t c ht hc hf
    rw [hidle,ht,hc,hf] at hv
    exact hv.elim (fun h => nomatch h) (fun h => nomatch h)
  have hself : ∀ {t : CallID} {s₁ : State} {c : Call}, s' = s₁.setCall t c → e.call = t → c = .idle := by
    intro t s₁ c hs ht
    rw [hs,ht] at hidle
    change Function.update s₁.calls t c t = .idle at hidle
    rw [Function.update_self] at hidle
    exact hidle
  cases step_view he with
  | create => cases hself rfl rfl
  | deleteRow => cases hself rfl rfl
  | skipRow => cases hself rfl rfl
  | deleted => cases hself rfl rfl
  | insert hc => exact (hnot rfl hc rfl).elim
  | duplicate hc => exact (hnot rfl hc rfl).elim
  | verify => cases hself rfl rfl
  | select => cases hself rfl rfl
  | checked => cases hself rfl rfl
  | updateToken => cases hself rfl rfl
  | updateUser => cases hself rfl rfl
  | commit => exact absurd rfl (hne _)
  | unknown => rfl
  | refused => rfl
  | fail => rfl

theorem abort_locks (s : State) (t : CallID) (y : TokenHash) : (s.abort t).tokenLocks y ≠ some t := by
  change (if s.tokenLocks y = some t then none else s.tokenLocks y) ≠ some t
  split
  · simp
  · assumption

theorem newest_init : NewestOnly init := fun _ _ hr => nomatch hr

/-- However the statements interleave, no token is verified twice, and a verification that
does not succeed changes nothing. Each user's only unused token is the newest one all along
if and only if each token was inserted when its user had no unused one. -/
theorem newest_link_works {es : List Event} {s : State} (h : Runs step init es s) :
    s.verified.Nodup ∧
    (∀ e s', step s e = some s' → Unsuccessful s s' e →
      s'.db = s.db ∧ s'.created = s.created ∧ s'.verified = s.verified ∧
      (s'.calls e.call = .idle →
        s'.store.pending e.call = [] ∧ ∀ y, s'.tokenLocks y ≠ some e.call)) ∧
    (RunsWhen step InsertsAlone init es s ↔
      ∀ fs gs s', es = fs ++ gs → Runs step init fs s' → NewestOnly s') := by
  have ho : Once s := h.invariant once_init (fun hP _ he => step_once hP he)
  refine ⟨ho.nodup,fun e s' he hu => ?_,?_⟩
  · obtain ⟨hdb,hc,hv⟩ := unsuccessful_commits he hu
    refine ⟨hdb,hc,hv,fun hidle => ?_⟩
    rw [unsuccessful_aborts he hu hidle]
    exact ⟨pending_abort_self s,abort_locks s e.call⟩
  · exact RunsWhen.iff_along h once_init newest_init (fun hP he => step_once hP he)
      (fun hI hQ he => insertsAlone_iff hI hQ he)

/-- A user asks for two links, one after the other, and follows the second. -/
def resentAndVerified : List Event :=
  [.create 0 1 "a" 100,.deleted 0,.insert 0,.create 1 1 "b" 200,.deleteRow 1 "a",.deleted 1,
    .insert 1,.verify 2 "a",.select 2,.verify 3 "b",.select 3,.check 3 50,.updateToken 3 50,
    .updateUser 3,.commit 3]

theorem newest_link_works_resent : ∃ s, Runs step init resentAndVerified s ∧ s.verified = ["b"] ∧
    s.verified.Nodup ∧ ∀ fs gs s', resentAndVerified = fs ++ gs → Runs step init fs s' →
      NewestOnly s' := by
  have hrun : Runs step init resentAndVerified (after step init resentAndVerified) :=
    runs_after (by decide +kernel)
  have hwhen : RunsWhen step InsertsAlone init resentAndVerified (after step init resentAndVerified) :=
    runsWhen_after (by decide +kernel)
  obtain ⟨hnodup,-,hiff⟩ := newest_link_works hrun
  exact ⟨_,hrun,by decide +kernel,hnodup,hiff.mp hwhen⟩

/-- The user asks twice at once: neither `DELETE` sees the other's token. -/
def resentTwice : List Event :=
  [.create 0 1 "a" 100,.create 1 1 "b" 100,.deleted 0,.deleted 1,.insert 0,.insert 1]

theorem calls_of_ne (he : step s e = some s') (ht : e.call ≠ t) : s'.calls t = s.calls t := by
  have hne : ∀ {j : CallID} {c : Call}, j ≠ t → Function.update s.calls j c t = s.calls t :=
    fun hj => Function.update_of_ne hj.symm _ _
  cases step_view he <;> exact hne ht

theorem two_links_work : ¬ ∀ es s, Runs step init es s → (∀ t, s.calls t = .idle) → NewestOnly s := by
  intro h
  obtain ⟨s,hs,hf⟩ := exists_runs_of_exec step init resentTwice
    (fun s => (s.calls 0,s.calls 1,s.db.tokens.lookup "a",s.newest 1))
    (.idle,.idle,some ⟨1,100,none⟩,some "b") (by decide +kernel)
  simp only [Prod.mk.injEq] at hf
  obtain ⟨h0,h1,ha,hb⟩ := hf
  have hidle : ∀ t, s.calls t = .idle := by
    intro t
    by_cases ht : t = 0 ∨ t = 1
    · rcases ht with rfl | rfl
      · exact h0
      · exact h1
    · push Not at ht
      refine hs.frame (f := fun s => s.calls t) (fun {s s' e} he hstep => calls_of_ne hstep ?_)
      have hcall : ∀ e ∈ resentTwice, e.call = 0 ∨ e.call = 1 := by decide
      rcases hcall e he with hc | hc
      · rw [hc]
        exact ht.1.symm
      · rw [hc]
        exact ht.2.symm
  have hnewest := h _ s hs hidle "a" _ ha rfl
  rw [hb] at hnewest
  simp at hnewest

end MiniDiscord.Auth.EmailVerification
