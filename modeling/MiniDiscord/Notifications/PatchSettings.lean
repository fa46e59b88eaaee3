import Mathlib.Data.Fintype.Defs
import MiniDiscord.Notifications.Settings
import MiniDiscord.Transactions.ReadMergeWrite

/-! # Partial updates of the global settings

`handlePatchGlobalSettings` loads the settings, puts the fields of the body over them,
stores all three and loads them again; each call of the storage is one step. Any number of
requests of one user may be under way. A request remembers which had stored before it
loaded, which the code does not know.
-/
namespace MiniDiscord.Notifications
open ChatHub Transition ReadMergeWrite

/-- A field of the body: `invalid` is a value of another type, or no level or time. -/
inductive RawField (A : Type) where
  | absent
  | null
  | value (a : A)
  | invalid
  deriving DecidableEq

structure PatchBody where
  defaultLevel : RawField NotificationLevel
  hideMessagePreview : RawField Bool
  dndUntil : RawField Time
  deriving DecidableEq

/-- The row that `UpsertGlobalNotificationSettings` writes. -/
structure GlobalSettings where
  defaultLevel : NotificationLevel
  hideMessagePreview : Bool
  dndUntil : Option Time
  deriving DecidableEq

def Tables.globalSettings (t : Tables) (userID : UserID) : GlobalSettings :=
  let s := t.getNotificationSettings userID
  ⟨s.defaultLevel,s.hideMessagePreview,s.dndUntil⟩

def Tables.upsertGlobalNotificationSettings (t : Tables) (userID : UserID) (g : GlobalSettings) :
    Tables :=
  { t with
    users := ⟨userID,g.defaultLevel,g.hideMessagePreview,g.dndUntil⟩ ::
      t.users.filter (fun r => decide (r.userID ≠ userID))
    userKey := by
      intro r hr r' hr' he
      rcases List.mem_cons.mp hr with rfl | hr
      · rcases List.mem_cons.mp hr' with rfl | hr'
        · rfl
        · exact absurd he.symm (of_decide_eq_true (List.mem_filter.mp hr').2)
      · rcases List.mem_cons.mp hr' with rfl | hr'
        · exact absurd he (of_decide_eq_true (List.mem_filter.mp hr).2)
        · exact t.userKey r (List.mem_filter.mp hr).1 r' (List.mem_filter.mp hr').1 he }

/-- `null` is no level. -/
def patchLevel (current : NotificationLevel) : RawField NotificationLevel → Option NotificationLevel
  | .absent => some current
  | .value level => some level
  | _ => none

/-- `null` leaves a Go `bool` as it is. -/
def patchPreview (current : Bool) : RawField Bool → Option Bool
  | .absent => some current
  | .null => some current
  | .value hide => some hide
  | .invalid => none

/-- `null` clears the time. -/
def patchDND (current : Option Time) : RawField Time → Option (Option Time)
  | .absent => some current
  | .null => some none
  | .value until_ => some (some until_)
  | .invalid => none

def merge (current : GlobalSettings) (body : PatchBody) : Except String GlobalSettings :=
  match patchLevel current.defaultLevel body.defaultLevel with
  | none => .error "invalid default_level"
  | some defaultLevel =>
    match patchPreview current.hideMessagePreview body.hideMessagePreview with
    | none => .error "invalid hide_message_preview"
    | some hidePreview =>
      match patchDND current.dndUntil body.dndUntil with
      | none => .error "invalid dnd_until"
      | some dndUntil => .ok ⟨defaultLevel,hidePreview,dndUntil⟩

/-- Where a request stands. `after` are the requests that had stored when it loaded. -/
inductive Patch where
  | received
  | loaded (current : GlobalSettings) (after : List ℕ)
  | stored
  | responded (status : ℕ) (error : String)
  deriving DecidableEq

structure Patching where
  tables : Tables
  stores : List ℕ
  requests : ℕ → Patch

namespace Patching

def init (t : Tables) : Patching := ⟨t,[],fun _ => .received⟩

def setRequest (s : Patching) (i : ℕ) (p : Patch) : Patching :=
  { s with requests := Function.update s.requests i p }

end Patching

/-- The storage calls of request `i`, and whether they succeed. -/
inductive PatchEvent where
  | load (i : ℕ) (ok : Bool)
  | store (i : ℕ) (ok : Bool)
  | reload (i : ℕ) (ok : Bool)
  deriving DecidableEq

def patchStep (userID : UserID) (body : ℕ → PatchBody) (s : Patching) : PatchEvent → Option Patching
  | .load i ok =>
    match s.requests i with
    | .received => some (s.setRequest i
        (if ok then .loaded (s.tables.globalSettings userID) s.stores
          else .responded 500 "failed to load notification settings"))
    | _ => none
  | .store i ok =>
    match s.requests i with
    | .loaded current _ =>
      match merge current (body i) with
      | .error err => some (s.setRequest i (.responded 400 err))
      | .ok g =>
        if ok then some ({ s with
          tables := s.tables.upsertGlobalNotificationSettings userID g
          stores := s.stores ++ [i] }.setRequest i .stored)
        else some (s.setRequest i (.responded 500 "failed to update notification settings"))
    | _ => none
  | .reload i ok =>
    match s.requests i with
    | .stored => some (s.setRequest i
        (if ok then .responded 200 "" else .responded 500 "failed to reload notification settings"))
    | _ => none

/-! ## Fields -/

inductive Field where
  | defaultLevel
  | hideMessagePreview
  | dndUntil
  deriving DecidableEq

instance : Fintype Field :=
  ⟨{.defaultLevel,.hideMessagePreview,.dndUntil},fun f => by cases f <;> decide⟩

inductive Setting where
  | level (level : NotificationLevel)
  | preview (hide : Bool)
  | dnd (until_ : Option Time)
  deriving DecidableEq

def GlobalSettings.get (g : GlobalSettings) : Field → Setting
  | .defaultLevel => .level g.defaultLevel
  | .hideMessagePreview => .preview g.hideMessagePreview
  | .dndUntil => .dnd g.dndUntil

/-- The value that a body names for a field. -/
def PatchBody.gives (b : PatchBody) : Field → Option Setting
  | .defaultLevel => match b.defaultLevel with
    | .value level => some (.level level)
    | _ => none
  | .hideMessagePreview => match b.hideMessagePreview with
    | .value hide => some (.preview hide)
    | _ => none
  | .dndUntil => match b.dndUntil with
    | .value until_ => some (.dnd (some until_))
    | .null => some (.dnd none)
    | _ => none

/-- A request that is accepted puts what it names over what it loaded. -/
theorem merge_get {current g : GlobalSettings} {b : PatchBody} (h : merge current b = .ok g) :
    g.get = overlay b.gives current.get := by
  obtain ⟨level,hide,dnd⟩ := b
  funext f
  cases level <;> cases hide <;> cases dnd <;> cases h <;> cases f <;> rfl

theorem globalSettings_upsert (t : Tables) (userID : UserID) (g : GlobalSettings) :
    (t.upsertGlobalNotificationSettings userID g).globalSettings userID = g := by
  simp [Tables.globalSettings, Tables.getNotificationSettings, Tables.userRow,
    Tables.upsertGlobalNotificationSettings]

/-! ## The settings as a memory -/

def Patch.snapshot : Patch → Option (Snapshot Field Setting ℕ)
  | .loaded current after => some ⟨current.get,after⟩
  | _ => none

def Patching.memory (userID : UserID) (s : Patching) : Memory Field Setting ℕ where
  value := (s.tables.globalSettings userID).get
  writes := s.stores
  snapshots i := (s.requests i).snapshot

/-- Each field that a stored request leaves out was loaded after the first that names it. -/
def FreshStores (body : ℕ → PatchBody) (s : Patching) : PatchEvent → Prop
  | .store i ok => match s.requests i with
    | .loaded current after => (merge current (body i)).isOk = true → ok = true →
        ∀ f, (body i).gives f = none →
          Names (fun i => (body i).gives) s.stores f → Names (fun i => (body i).gives) after f
    | _ => True
  | _ => True

instance (body : ℕ → PatchBody) (s : Patching) (e : PatchEvent) :
    Decidable (FreshStores body s e) := by
  unfold FreshStores
  split
  · split <;> infer_instance
  · infer_instance

variable {userID : UserID} {body : ℕ → PatchBody} {s s' : Patching} {e : PatchEvent}

theorem memory_setRequest (s : Patching) (i : ℕ) (p : Patch) :
    (s.setRequest i p).memory userID = { s.memory userID with
      snapshots := Function.update (s.memory userID).snapshots i p.snapshot } := by
  unfold Patching.memory Patching.setRequest
  congr 1
  funext j
  by_cases hj : j = i
  · subst hj
    simp
  · simp [hj]

/-- A storage call is a step of the memory, fresh when the guard says so. -/
theorem patchStep_memory (he : patchStep userID body s e = some s') :
    ∃ e', ReadMergeWrite.step (fun i => (body i).gives) (s.memory userID) e' =
        some (s'.memory userID) ∧
      (FreshStores body s e ↔ Fresh (fun i => (body i).gives) (s.memory userID) e') := by
  have hdrop : ∀ {i : ℕ} {p : Patch}, p.snapshot = none → s' = s.setRequest i p →
      FreshStores body s e → ∃ e', ReadMergeWrite.step (fun i => (body i).gives) (s.memory userID) e' =
        some (s'.memory userID) ∧
      (FreshStores body s e ↔ Fresh (fun i => (body i).gives) (s.memory userID) e') := by
    intro i p hp hs hf
    refine ⟨.drop i,?_,iff_of_true hf trivial⟩
    rw [hs,memory_setRequest,hp]
    rfl
  cases e with
  | load i ok =>
    unfold patchStep at he
    dsimp only at he
    split at he
    · rename_i hr
      have hs := (Option.some.inj he).symm
      cases ok with
      | false => exact hdrop rfl hs trivial
      | true =>
        refine ⟨.read i,?_,iff_of_true trivial trivial⟩
        have hn : ((s.memory userID).snapshots i).isNone = true := by
          simp [Patching.memory, hr, Patch.snapshot]
        rw [hs,if_pos rfl,memory_setRequest,ReadMergeWrite.step,if_pos hn]
        rfl
    · cases he
  | store i ok =>
    unfold patchStep at he
    dsimp only at he
    split at he
    · rename_i current after hr
      have hg : FreshStores body s (.store i ok) ↔ ((merge current (body i)).isOk = true → ok = true →
          ∀ f, (body i).gives f = none → Names (fun i => (body i).gives) s.stores f →
            Names (fun i => (body i).gives) after f) := by
        unfold FreshStores
        dsimp only
        rw [hr]
      split at he
      · rename_i err hm
        refine hdrop rfl (Option.some.inj he).symm (hg.mpr (fun hok => ?_))
        rw [hm] at hok
        cases hok
      · rename_i g hm
        cases ok with
        | false => exact hdrop rfl (Option.some.inj he).symm (hg.mpr (fun _ h => nomatch h))
        | true =>
          have hs := (Option.some.inj he).symm
          have hsnap : (s.memory userID).snapshots i = some ⟨current.get,after⟩ := by
            simp [Patching.memory, hr, Patch.snapshot]
          refine ⟨.write i,?_,?_⟩
          · rw [hs,memory_setRequest,ReadMergeWrite.step,hsnap,Option.map_some,
              ← merge_get hm]
            simp only [Patching.memory, globalSettings_upsert, Patch.snapshot]
          · rw [hg]
            constructor
            · intro h s' hs'
              rw [hsnap] at hs'
              cases hs'
              exact h (by rw [hm]; rfl) rfl
            · intro h _ _
              exact h _ hsnap
    · cases he
  | reload i ok =>
    unfold patchStep at he
    dsimp only at he
    split at he
    · have hs := (Option.some.inj he).symm
      refine hdrop ?_ hs trivial
      split <;> rfl
    · cases he

def Succeeded (s : Patching) (i : ℕ) : Prop := s.requests i = .responded 200 ""

/-- Every request that there was has been answered with the updated settings. -/
def AllSucceeded (s : Patching) : Prop := ∀ i, s.requests i = .received ∨ Succeeded s i

/-- A request past its store has stored, and no other one. -/
structure Accounted (s : Patching) : Prop where
  stored : ∀ i, s.requests i = .stored ∨ Succeeded s i → i ∈ s.stores
  pending : ∀ i ∈ s.stores, s.requests i ≠ .received

def PatchEvent.request : PatchEvent → ℕ
  | .load i _ => i
  | .store i _ => i
  | .reload i _ => i

theorem requests_of_ne {i : ℕ} (he : patchStep userID body s e = some s') (hi : e.request ≠ i) :
    s'.requests i = s.requests i := by
  have hne : ∀ {t : Patching} {j : ℕ} {p : Patch}, j ≠ i →
      (t.setRequest j p).requests i = t.requests i :=
    fun hj => Function.update_of_ne hj.symm _ _
  cases e with
  | load j ok =>
    unfold patchStep at he
    dsimp only at he
    split at he
    · rw [← Option.some.inj he]
      exact hne hi
    · cases he
  | store j ok =>
    unfold patchStep at he
    dsimp only at he
    split at he
    · split at he
      · rw [← Option.some.inj he]
        exact hne hi
      · split at he <;> (rw [← Option.some.inj he]; exact hne hi)
    · cases he
  | reload j ok =>
    unfold patchStep at he
    dsimp only at he
    split at he
    · rw [← Option.some.inj he]
      exact hne hi
    · cases he

/-- Only the requests of a schedule have to be looked at. -/
theorem allSucceeded_of_runs {t : Tables} {es : List PatchEvent}
    (h : Runs (patchStep userID body) (Patching.init t) es s)
    (hs : ∀ e ∈ es, s.requests e.request = .responded 200 "") : AllSucceeded s := by
  intro i
  by_cases hi : ∃ e ∈ es, e.request = i
  · obtain ⟨e,he,rfl⟩ := hi
    exact Or.inr (hs e he)
  · push Not at hi
    left
    exact h.frame (f := fun s => s.requests i) (fun he hstep => requests_of_ne hstep (hi _ he))

theorem accounted_init (t : Tables) : Accounted (Patching.init t) where
  stored _ h := h.elim (fun h => nomatch h) (fun h => nomatch h)
  pending _ h := nomatch h

/-- A request moves on; what it becomes is stored only if it has stored. -/
theorem Accounted.setRequest (h : Accounted s) {i : ℕ} {p : Patch} (hp : p ≠ .received)
    (hi : p = .stored ∨ p = .responded 200 "" → i ∈ s.stores) : Accounted (s.setRequest i p) := by
  have hne : ∀ {j}, j ≠ i → (s.setRequest i p).requests j = s.requests j :=
    fun hj => Function.update_of_ne hj _ _
  have heq : (s.setRequest i p).requests i = p := Function.update_self _ _ _
  constructor
  · intro j hj
    by_cases hji : j = i
    · subst hji
      unfold Succeeded at hj
      rw [heq] at hj
      exact hi hj
    · unfold Succeeded at hj
      rw [hne hji] at hj
      exact h.stored j hj
  · intro j hj
    by_cases hji : j = i
    · subst hji
      rw [heq]
      exact hp
    · rw [hne hji]
      exact h.pending j hj

theorem step_accounted (h : Accounted s) (he : patchStep userID body s e = some s') :
    Accounted s' := by
  cases e with
  | load i ok =>
    unfold patchStep at he
    dsimp only at he
    split at he
    · rw [← Option.some.inj he]
      refine h.setRequest ?_ ?_ <;> split <;> simp
    · cases he
  | store i ok =>
    unfold patchStep at he
    dsimp only at he
    split at he
    · rename_i current after hr
      split at he
      · rw [← Option.some.inj he]
        exact h.setRequest (by simp) (by simp)
      · split at he
        · rw [← Option.some.inj he]
          refine Accounted.setRequest ⟨fun j hj => ?_,fun j hj => ?_⟩ (by simp) (fun _ => by simp)
          · exact List.mem_append_left _ (h.stored j hj)
          · rcases List.mem_append.mp hj with hj | hj
            · exact h.pending j hj
            · rw [List.mem_singleton.mp hj]
              change s.requests i ≠ .received
              rw [hr]
              simp
        · rw [← Option.some.inj he]
          exact h.setRequest (by simp) (by simp)
    · cases he
  | reload i ok =>
    unfold patchStep at he
    dsimp only at he
    split at he
    · rename_i hr
      rw [← Option.some.inj he]
      exact h.setRequest (by split <;> simp) (fun _ => h.stored i (Or.inl hr))
    · cases he

/-- Once all have succeeded, those that stored are those that there were. -/
theorem Accounted.mem_stores (h : Accounted s) (hs : AllSucceeded s) {i : ℕ} :
    i ∈ s.stores ↔ Succeeded s i :=
  ⟨fun hi => (hs i).resolve_left (h.pending i hi),fun hi => h.stored i (Or.inr hi)⟩

theorem untouched_init (t : Tables) : Untouched (fun i => (body i).gives)
    (t.globalSettings userID).get ((Patching.init t).memory userID) where
  older _ _ hs := nomatch hs
  value _ _ := rfl
  snapshots _ _ hs := nomatch hs

theorem composed_init (t : Tables) : Composed (fun i => (body i).gives)
    ((Patching.init t).memory userID) where
  value _ hf := by
    obtain ⟨_,hi,_⟩ := hf
    cases hi
  snapshots _ _ hs := nomatch hs

theorem untouched_of_runs {t : Tables} {es : List PatchEvent}
    (h : Runs (patchStep userID body) (Patching.init t) es s) :
    Untouched (fun i => (body i).gives) (t.globalSettings userID).get (s.memory userID) := by
  refine h.invariant (P := fun s => Untouched (fun i => (body i).gives)
    (t.globalSettings userID).get (s.memory userID)) (untouched_init t) (fun hP _ he => ?_)
  obtain ⟨e',he',-⟩ := patchStep_memory he
  exact step_untouched hP he'

theorem composed_of_runs {t : Tables} {es : List PatchEvent}
    (h : RunsWhen (patchStep userID body) (FreshStores body) (Patching.init t) es s) :
    Composed (fun i => (body i).gives) (s.memory userID) := by
  refine (h.invariant (P := fun s => Untouched (fun i => (body i).gives)
    (t.globalSettings userID).get (s.memory userID) ∧ Composed (fun i => (body i).gives)
      (s.memory userID)) ⟨untouched_init t,composed_init t⟩ (fun hP hg he => ?_)).2
  obtain ⟨e',he',hf⟩ := patchStep_memory he
  exact ⟨step_untouched hP.1 he',step_composed hP.1 hP.2 (hf.mp hg) he'⟩

/-- Where every request that stores has loaded each field it leaves out after the first
request that names it stored, the updates compose. A store that breaks this puts a named
field back to its initial value. -/
theorem settings_compose (t : Tables) (userID : UserID) (body : ℕ → PatchBody)
    {es : List PatchEvent} {s : Patching}
    (h : Runs (patchStep userID body) (Patching.init t) es s) :
    (RunsWhen (patchStep userID body) (FreshStores body) (Patching.init t) es s →
      AllSucceeded s → ∀ f,
        ((∀ i, Succeeded s i → (body i).gives f = none) →
          (s.tables.globalSettings userID).get f = (t.globalSettings userID).get f) ∧
        ((∃ i, Succeeded s i ∧ (body i).gives f ≠ none) →
          ∃ i, Succeeded s i ∧ (body i).gives f = some ((s.tables.globalSettings userID).get f))) ∧
    ∀ e s', patchStep userID body s e = some s' → ¬ FreshStores body s e →
      ∃ f, (∃ i ∈ s'.stores, (body i).gives f ≠ none) ∧
        (s'.tables.globalSettings userID).get f = (t.globalSettings userID).get f := by
  have hu := untouched_of_runs h
  constructor
  · intro hg hall f
    have ha : Accounted s := h.invariant (accounted_init t) (fun hP _ he => step_accounted hP he)
    constructor
    · intro hn
      refine hu.value f ?_
      rintro ⟨i,hi,hf⟩
      have hnone := hn i ((ha.mem_stores hall).mp hi)
      exact Option.isSome_iff_ne_none.mp hf hnone
    · rintro ⟨i,hi,hf⟩
      obtain ⟨j,hj,hx⟩ := (composed_of_runs hg).value f
        ⟨i,(ha.mem_stores hall).mpr hi,Option.isSome_iff_ne_none.mpr hf⟩
      exact ⟨j,(ha.mem_stores hall).mp hj,hx⟩
  · intro e s' he hn
    obtain ⟨e',he',hf⟩ := patchStep_memory he
    obtain ⟨f,⟨i,hi,hx⟩,hv⟩ := value_of_stale hu (fun h => hn (hf.mpr h)) he'
    exact ⟨f,⟨i,hi,Option.isSome_iff_ne_none.mp hx⟩,hv⟩

/-- One request turns the previews off, another one sets the level to mentions. -/
def previewAndLevel : ℕ → PatchBody
  | 0 => ⟨.absent,.value true,.absent⟩
  | _ => ⟨.value .mentions,.absent,.absent⟩

def noRows : Tables := Tables.empty

/-- The second request loads when the first one has stored. -/
def oneAfterTheOther : List PatchEvent :=
  [.load 0 true,.store 0 true,.load 1 true,.store 1 true,.reload 0 true,.reload 1 true]

theorem settings_compose_two : ∃ s, Runs (patchStep 1 previewAndLevel) (Patching.init noRows)
    oneAfterTheOther s ∧ AllSucceeded s ∧ ∀ f,
      ((∀ i, Succeeded s i → (previewAndLevel i).gives f = none) →
        (s.tables.globalSettings 1).get f = (noRows.globalSettings 1).get f) ∧
      ((∃ i, Succeeded s i ∧ (previewAndLevel i).gives f ≠ none) →
        ∃ i, Succeeded s i ∧ (previewAndLevel i).gives f = some ((s.tables.globalSettings 1).get f)) := by
  have hrun : Runs (patchStep 1 previewAndLevel) (Patching.init noRows) oneAfterTheOther
      (after (patchStep 1 previewAndLevel) (Patching.init noRows) oneAfterTheOther) :=
    runs_after (by decide +kernel)
  have hfresh : RunsWhen (patchStep 1 previewAndLevel) (FreshStores previewAndLevel)
      (Patching.init noRows) oneAfterTheOther
      (after (patchStep 1 previewAndLevel) (Patching.init noRows) oneAfterTheOther) :=
    runsWhen_after (by decide +kernel)
  have hall := allSucceeded_of_runs hrun (by decide +kernel)
  exact ⟨_,hrun,hall,(settings_compose noRows 1 previewAndLevel hrun).1 hfresh hall⟩

/-- Both load before either stores. -/
def bothLoadFirst : List PatchEvent :=
  [.load 0 true,.load 1 true,.store 0 true,.store 1 true,.reload 0 true,.reload 1 true]

theorem preview_lost : ¬ ∀ t userID body es s, Runs (patchStep userID body) (Patching.init t) es s →
    AllSucceeded s → ∀ f, (∃ i, Succeeded s i ∧ (body i).gives f ≠ none) →
      ∃ i, Succeeded s i ∧ (body i).gives f = some ((s.tables.globalSettings userID).get f) := by
  intro h
  have hrun : Runs (patchStep 1 previewAndLevel) (Patching.init noRows) bothLoadFirst
      (after (patchStep 1 previewAndLevel) (Patching.init noRows) bothLoadFirst) :=
    runs_after (by decide +kernel)
  have ha : Accounted (after (patchStep 1 previewAndLevel) (Patching.init noRows) bothLoadFirst) :=
    hrun.invariant (accounted_init noRows) (fun hP _ he => step_accounted hP he)
  have hall := allSucceeded_of_runs hrun (by decide +kernel)
  obtain ⟨i,hi,hx⟩ := h _ _ _ _ _ hrun hall .hideMessagePreview
    ⟨0,(ha.mem_stores hall).mp (by decide +kernel),by decide⟩
  have hlost : ∀ i ∈ (after (patchStep 1 previewAndLevel) (Patching.init noRows) bothLoadFirst).stores,
      (previewAndLevel i).gives .hideMessagePreview ≠ some
        (((after (patchStep 1 previewAndLevel) (Patching.init noRows) bothLoadFirst).tables.globalSettings
          1).get .hideMessagePreview) := by decide +kernel
  exact hlost i ((ha.mem_stores hall).mpr hi) hx

end MiniDiscord.Notifications
