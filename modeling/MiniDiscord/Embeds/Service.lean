import MiniDiscord.Embeds.Previews
import MiniDiscord.Transition.LabelledRuns
import Mathlib.Logic.Function.Basic

/-! # The embed service

Workers take jobs and resolve the link of each through memory, the table and a fetch that those
who wait for the same link share. What was resolved is linked to the message and broadcast. Any
worker may give up at any point, an entry in memory may expire at any time, and a row may be
deleted from the table.
-/
namespace MiniDiscord.Embeds
open Transition

abbrev WorkerID := ℕ
abbrev CallID := ℕ

structure Job where
  messageID : ℤ
  channelID : ℤ
  recipientIDs : List ℤ
deriving DecidableEq

/-- What a worker does for its job. The string is the normalized URL of the link. -/
inductive Stage
  | idle
  | resolving (job : Job) (url : String)
  /-- Memory had nothing. -/
  | missed (job : Job) (url : String)
  /-- A fresh row was read and is about to be put into memory. -/
  | reading (job : Job) (entry : CachedPreview)
  /-- The table had nothing fresh either. -/
  | needed (job : Job) (url : String)
  | waiting (job : Job) (call : CallID)
  | resolved (job : Job) (entry : CachedPreview)
  | linked (job : Job) (entry : CachedPreview)
deriving DecidableEq

def Stage.entry : Stage → Option CachedPreview
  | .reading _ entry | .resolved _ entry | .linked _ entry => some entry
  | _ => none

/-- What the goroutine of a shared fetch does. -/
inductive Phase
  | fetching
  /-- The row is stored and the entry about to be put into memory. -/
  | stored (entry : CachedPreview)
  | done (entry : CachedPreview)
deriving DecidableEq

def Phase.entry : Phase → Option CachedPreview
  | .fetching => none
  | .stored entry | .done entry => some entry

structure Call where
  hash : String
  url : String
  phase : Phase
deriving DecidableEq

/-- A call of `BroadcastEmbeds`. -/
structure Broadcast where
  job : Job
  entry : CachedPreview
deriving DecidableEq

structure State where
  rows : GoMap String Row
  nextRow : ℕ
  cache : GoMap String CachedPreview
  calls : GoMap CallID Call
  nextCall : CallID
  /-- The calls in flight, by the hash of their link. -/
  active : GoMap String CallID
  workers : WorkerID → Stage
  sent : List Broadcast

def init : State := ⟨∅,0,∅,∅,0,∅,fun _ => .idle,[]⟩

inductive Event
  | take (w : WorkerID) (job : Job) (url : String)
  | lookUp (w : WorkerID)
  | read (w : WorkerID) (now : ℤ)
  | readFails (w : WorkerID)
  | keep (w : WorkerID)
  | share (w : WorkerID)
  | store (c : CallID) (page : Option Page) (buffer : Option (Fin 16 → UInt8)) (now : ℤ)
  | storeFails (c : CallID)
  | remember (c : CallID)
  | remove (c : CallID)
  | receive (w : WorkerID)
  | link (w : WorkerID)
  | broadcast (w : WorkerID)
  | giveUp (w : WorkerID)
  | expire (hash : String)
  | deleteRow (hash : String)

def State.setWorker (s : State) (w : WorkerID) (stage : Stage) : State :=
  { s with workers := Function.update s.workers w stage }

def State.setCall (s : State) (c : CallID) (call : Call) : State :=
  { s with calls := s.calls.insert c call }

/-- `resolve` returns an entry: the worker goes on with it if it is a preview. -/
def Stage.given (job : Job) (entry : CachedPreview) : Stage :=
  if entry.ok then .resolved job entry else .idle

section
variable (cfg : Config) (hashOf : String → String)

def step (s : State) : Event → Option State
  | .take w job url =>
    match s.workers w with
    | .idle => some (s.setWorker w (.resolving job url))
    | _ => none
  | .lookUp w =>
    match s.workers w with
    | .resolving job url =>
      match s.cache.lookup (hashOf url) with
      | some entry => some (s.setWorker w (.given job entry))
      | none => some (s.setWorker w (.missed job url))
    | _ => none
  | .read w now =>
    match s.workers w with
    | .missed job url =>
      match s.rows.lookup (hashOf url) with
      | none => some (s.setWorker w (.needed job url))
      | some row =>
        if isFresh cfg row now then
          some (s.setWorker w (.reading job (toCached row.toLinkPreviewRecord row.id)))
        else some (s.setWorker w (.needed job url))
    | _ => none
  | .readFails w =>
    match s.workers w with
    | .missed job url => some (s.setWorker w (.needed job url))
    | _ => none
  | .keep w =>
    match s.workers w with
    | .reading job entry =>
      some ({ s with cache := s.cache.insert entry.hash entry }.setWorker w (.given job entry))
    | _ => none
  | .share w =>
    match s.workers w with
    | .needed job url =>
      match s.active.lookup (hashOf url) with
      | some c => some (s.setWorker w (.waiting job c))
      | none =>
        some ({ s with
          calls := s.calls.insert s.nextCall ⟨hashOf url,url,.fetching⟩
          nextCall := s.nextCall + 1
          active := s.active.insert (hashOf url) s.nextCall }.setWorker w
            (.waiting job s.nextCall))
    | _ => none
  | .store c page buffer now =>
    match s.calls.lookup c with
    | some ⟨hash,url,.fetching⟩ =>
      match upsertLinkPreview s.rows (fetchedRecord hash url buffer page) now s.nextRow with
      | none => some (s.setCall c ⟨hash,url,.done noPreview⟩)
      | some row =>
        some ({ s with rows := s.rows.insert hash row, nextRow := s.nextRow + 1 }.setCall c
          ⟨hash,url,.stored (toCached row.toLinkPreviewRecord row.id)⟩)
    | _ => none
  | .storeFails c =>
    match s.calls.lookup c with
    | some ⟨hash,url,.fetching⟩ => some (s.setCall c ⟨hash,url,.done noPreview⟩)
    | _ => none
  | .remember c =>
    match s.calls.lookup c with
    | some ⟨hash,url,.stored entry⟩ =>
      some ({ s with cache := s.cache.insert entry.hash entry }.setCall c ⟨hash,url,.done entry⟩)
    | _ => none
  | .remove c =>
    match s.calls.lookup c with
    | some ⟨hash,_,.done _⟩ =>
      if s.active.lookup hash = some c then some { s with active := s.active.erase hash }
      else none
    | _ => none
  | .receive w =>
    match s.workers w with
    | .waiting job c =>
      match s.calls.lookup c with
      | some ⟨_,_,.done entry⟩ => some (s.setWorker w (.given job entry))
      | _ => none
    | _ => none
  | .link w =>
    match s.workers w with
    | .resolved job entry =>
      -- The foreign key of `message_embeds`.
      if entry.hash ∈ s.rows then some (s.setWorker w (.linked job entry)) else none
    | _ => none
  | .broadcast w =>
    match s.workers w with
    | .linked job entry =>
      some ({ s with sent := s.sent ++ [Broadcast.mk job entry] }.setWorker w .idle)
    | _ => none
  | .giveUp w => some (s.setWorker w .idle)
  | .expire hash => some { s with cache := s.cache.erase hash }
  | .deleteRow hash => some { s with rows := s.rows.erase hash }

end

/-! ## Where previews are -/

/-- The places that hold a preview: memory, a shared fetch, a worker, what was broadcast. -/
inductive Held (s : State) (x : CachedPreview) : Prop
  | cache (hash : String) (h : s.cache.lookup hash = some x)
  | call (c : CallID) (call : Call) (hc : s.calls.lookup c = some call)
      (h : call.phase.entry = some x)
  | worker (w : WorkerID) (h : (s.workers w).entry = some x)
  | sent (b : Broadcast) (hb : b ∈ s.sent) (h : b.entry = x)

/-- A preview that is no new one: it was held, or is none, or a row has it. -/
inductive Known (s : State) (x : CachedPreview) : Prop
  | held (h : Held s x)
  | none (h : x = noPreview)
  | row (hash : String) (row : Row) (h : s.rows.lookup hash = some row)
      (hx : x = toCached row.toLinkPreviewRecord row.id)

/-- What a step does to the table, and that it holds no preview of its own making. -/
inductive Does (s s' : State) : Event → Prop
  | moves {e : Event} : s'.rows = s.rows → s'.nextRow = s.nextRow →
      (∀ x, Held s' x → Known s x) → Does s s' e
  | stores {c : CallID} {page : Option Page} {buffer : Option (Fin 16 → UInt8)}
      {now : ℤ} (call : Call) (row : Row) : s.calls.lookup c = some call →
      upsertLinkPreview s.rows (fetchedRecord call.hash call.url buffer page) now s.nextRow =
        some row →
      s'.rows = s.rows.insert call.hash row → s'.nextRow = s.nextRow + 1 →
      (∀ x, Held s' x → Held s x ∨ x = toCached row.toLinkPreviewRecord row.id) →
      Does s s' (.store c page buffer now)
  | deletes {hash : String} : s'.rows = s.rows.erase hash → s'.nextRow = s.nextRow →
      (∀ x, Held s' x → Known s x) → Does s s' (.deleteRow hash)

variable {s s' : State} {x : CachedPreview}

theorem held_setWorker {w : WorkerID} {stage : Stage} (h : Held (s.setWorker w stage) x) :
    stage.entry = some x ∨ Held s x := by
  cases h with
  | cache hash h => exact Or.inr (.cache hash h)
  | call c call hc h => exact Or.inr (.call c call hc h)
  | sent b hb h => exact Or.inr (.sent b hb h)
  | worker w' h =>
    change (Function.update s.workers w stage w').entry = some x at h
    by_cases hw : w' = w
    · rw [hw,Function.update_self] at h
      exact Or.inl h
    · rw [Function.update_of_ne hw] at h
      exact Or.inr (.worker w' h)

theorem held_setCall {c : CallID} {call : Call} (h : Held (s.setCall c call) x) :
    call.phase.entry = some x ∨ Held s x := by
  cases h with
  | cache hash h => exact Or.inr (.cache hash h)
  | worker w h => exact Or.inr (.worker w h)
  | sent b hb h => exact Or.inr (.sent b hb h)
  | call c' call' hc h =>
    change (s.calls.insert c call).lookup c' = some call' at hc
    rw [GoMap.lookup_insert_eq] at hc
    split at hc
    · cases hc
      exact Or.inl h
    · exact Or.inr (.call c' call' hc h)

theorem held_remember {entry : CachedPreview}
    (h : Held { s with cache := s.cache.insert entry.hash entry } x) :
    x = entry ∨ Held s x := by
  cases h with
  | worker w h => exact Or.inr (.worker w h)
  | call c call hc h => exact Or.inr (.call c call hc h)
  | sent b hb h => exact Or.inr (.sent b hb h)
  | cache hash h =>
    change (s.cache.insert entry.hash entry).lookup hash = some x at h
    rw [GoMap.lookup_insert_eq] at h
    split at h
    · cases h
      exact Or.inl rfl
    · exact Or.inr (.cache hash h)

theorem entry_given {job : Job} {entry : CachedPreview}
    (h : (Stage.given job entry).entry = some x) : x = entry := by
  rw [Stage.given] at h
  split at h
  · exact (Option.some.inj h).symm
  · cases h

/-- A state with the same places holds the same previews. -/
theorem Held.congr (h : Held s' x) (hcache : s'.cache = s.cache) (hcalls : s'.calls = s.calls)
    (hworkers : s'.workers = s.workers) (hsent : s'.sent = s.sent) : Held s x := by
  cases h with
  | cache hash h =>
    rw [hcache] at h
    exact .cache hash h
  | call c call hc h =>
    rw [hcalls] at hc
    exact .call c call hc h
  | worker w h =>
    rw [hworkers] at h
    exact .worker w h
  | sent b hb h =>
    rw [hsent] at hb
    exact .sent b hb h

theorem held_call {c n : CallID} {call : Call} {active : GoMap String CallID}
    (hcall : call.phase.entry = none)
    (h : Held { s with calls := s.calls.insert c call, nextCall := n, active := active } x) :
    Held s x := by
  rcases held_setCall (s := { s with nextCall := n, active := active }) h with h | h
  · rw [hcall] at h
    cases h
  · exact h.congr rfl rfl rfl rfl

theorem held_sent {b : Broadcast} (h : Held { s with sent := s.sent ++ [b] } x) :
    x = b.entry ∨ Held s x := by
  cases h with
  | cache hash h => exact Or.inr (.cache hash h)
  | call c call hc h => exact Or.inr (.call c call hc h)
  | worker w h => exact Or.inr (.worker w h)
  | sent b' hb h =>
    rcases List.mem_append.mp hb with hb | hb
    · exact Or.inr (.sent b' hb h)
    · obtain rfl := List.mem_singleton.mp hb
      exact Or.inl h.symm

theorem held_expire {hash : String} (h : Held { s with cache := s.cache.erase hash } x) :
    Held s x := by
  cases h with
  | worker w h => exact .worker w h
  | call c call hc h => exact .call c call hc h
  | sent b hb h => exact .sent b hb h
  | cache hash' h =>
    change (s.cache.erase hash).lookup hash' = some x at h
    exact .cache hash' (GoMap.lookup_of_erase h).2

/-! ## What a step does -/

variable {e : Event} {w : WorkerID} {stage : Stage} {job : Job} {entry : CachedPreview}

theorem Does.worker (hstage : ∀ x, stage.entry = some x → Known s x) :
    Does s (s.setWorker w stage) e := by
  refine .moves rfl rfl ?_
  intro x h
  rcases held_setWorker h with h | h
  · exact hstage x h
  · exact .held h

theorem Does.empty (hstage : stage.entry = none) : Does s (s.setWorker w stage) e :=
  .worker fun x hx => by rw [hstage] at hx; cases hx

/-- A worker that is given an entry of a known preview holds no other. -/
theorem Does.given (hentry : Known s entry) : Does s (s.setWorker w (.given job entry)) e :=
  .worker fun x hx => by rw [entry_given hx]; exact hentry

theorem Does.finish {c : CallID} {call : Call} (hcall : call.phase = .done noPreview) :
    Does s (s.setCall c call) e := by
  refine .moves rfl rfl ?_
  intro x h
  rcases held_setCall h with h | h
  · rw [hcall] at h
    cases h
    exact .none rfl
  · exact .held h

theorem Does.keep (hentry : Held s entry) :
    Does s ({ s with cache := s.cache.insert entry.hash entry }.setWorker w (.given job entry))
      e := by
  refine .moves rfl rfl ?_
  intro x h
  rcases held_setWorker h with h | h
  · rw [entry_given h]
    exact .held hentry
  · rcases held_remember h with rfl | h
    · exact .held hentry
    · exact .held h

theorem Does.remember {c : CallID} {call : Call} (hcall : call.phase = .done entry)
    (hentry : Held s entry) :
    Does s ({ s with cache := s.cache.insert entry.hash entry }.setCall c call) e := by
  refine .moves rfl rfl ?_
  intro x h
  rcases held_setCall h with h | h
  · rw [hcall] at h
    cases h
    exact .held hentry
  · rcases held_remember h with rfl | h
    · exact .held hentry
    · exact .held h

theorem Does.broadcast (hentry : Held s entry) :
    Does s ({ s with sent := s.sent ++ [Broadcast.mk job entry] }.setWorker w .idle) e := by
  refine .moves rfl rfl ?_
  intro x h
  rcases held_setWorker h with h | h
  · cases h
  · rcases held_sent h with rfl | h
    · exact .held hentry
    · exact .held h

/-- What a step does, case by case. -/
theorem does_of_step {cfg : Config} {hashOf : String → String}
    (h : step cfg hashOf s e = some s') : Does s s' e := by
  cases e with
  | take w job url =>
    simp only [step] at h
    split at h
    · cases h
      exact .empty rfl
    · cases h
  | lookUp w =>
    simp only [step] at h
    split at h
    · split at h
      · rename_i entry hentry
        cases h
        exact .given (.held (.cache _ hentry))
      · cases h
        exact .empty rfl
    · cases h
  | read w now =>
    simp only [step] at h
    split at h
    · split at h
      · cases h
        exact .empty rfl
      · rename_i row hrow
        split at h
        · cases h
          apply Does.worker
          intro x hx
          cases hx
          exact .row _ row hrow rfl
        · cases h
          exact .empty rfl
    · cases h
  | readFails w =>
    simp only [step] at h
    split at h
    · cases h
      exact .empty rfl
    · cases h
  | keep w =>
    simp only [step] at h
    split at h
    · rename_i job entry hstage
      cases h
      exact .keep (.worker w (by rw [hstage]; rfl))
    · cases h
  | share w =>
    simp only [step] at h
    split at h
    · split at h
      · cases h
        exact .empty rfl
      · cases h
        refine .moves rfl rfl ?_
        intro x hx
        rcases held_setWorker hx with hx | hx
        · cases hx
        · exact .held (held_call rfl hx)
    · cases h
  | store c page buffer now =>
    simp only [step] at h
    split at h
    · rename_i hash url hcall
      split at h
      · cases h
        exact .finish rfl
      · rename_i row hrow
        cases h
        refine .stores _ row hcall hrow rfl rfl ?_
        intro x hx
        rcases held_setCall hx with hx | hx
        · cases hx
          exact Or.inr rfl
        · exact Or.inl (hx.congr rfl rfl rfl rfl)
    · cases h
  | storeFails c =>
    simp only [step] at h
    split at h
    · cases h
      exact .finish rfl
    · cases h
  | remember c =>
    simp only [step] at h
    split at h
    · rename_i hash url entry hcall
      cases h
      exact .remember rfl (.call c _ hcall rfl)
    · cases h
  | remove c =>
    simp only [step] at h
    split at h
    · split at h
      · cases h
        exact .moves rfl rfl fun x hx => .held (hx.congr rfl rfl rfl rfl)
      · cases h
    · cases h
  | receive w =>
    simp only [step] at h
    split at h
    · split at h
      · rename_i hash url entry hcall
        cases h
        exact .given (.held (.call _ _ hcall rfl))
      · cases h
    · cases h
  | link w =>
    simp only [step] at h
    split at h
    · rename_i job entry hstage
      split at h
      · cases h
        apply Does.worker
        intro x hx
        cases hx
        exact .held (.worker w (by rw [hstage]; rfl))
      · cases h
    · cases h
  | broadcast w =>
    simp only [step] at h
    split at h
    · rename_i job entry hstage
      cases h
      exact .broadcast (.worker w (by rw [hstage]; rfl))
    · cases h
  | giveUp w =>
    cases h
    exact .empty rfl
  | expire hash =>
    cases h
    exact .moves rfl rfl fun x hx => .held (held_expire hx)
  | deleteRow hash =>
    cases h
    exact .deletes rfl rfl fun x hx => .held (hx.congr rfl rfl rfl rfl)

end MiniDiscord.Embeds
