import MiniDiscord.Data.GoMap
import MiniDiscord.Sfu.Room
import MiniDiscord.Transactions.ReadCommitted
import MiniDiscord.Transition.LabelledRuns

/-! # Email verification tokens

Any number of calls of `CreateEmailVerificationToken` and `VerifyEmailByToken`, statement
by statement. The `DELETE` of a creation is a transaction of its own: it goes through the
rows that were there when it began, waits for each that is locked, and looks at it again.
A verification locks its row with `FOR UPDATE`, and the row of its user when it updates it.
Every statement and every commit may fail.
-/
namespace MiniDiscord.Auth.EmailVerification
open Transition ReadCommitted

abbrev TokenHash := String
abbrev CallID := ℕ

structure TokenRow where
  userID : UserID
  expiresAt : ℤ
  usedAt : Option ℤ
  deriving DecidableEq

/-- `tokens` is keyed by the unique `token_hash`. -/
structure Tables where
  tokens : GoMap TokenHash TokenRow
  emailVerified : Finset UserID

inductive Write where
  | deleteToken (tokenHash : TokenHash)
  | insertToken (tokenHash : TokenHash) (row : TokenRow)
  | useToken (tokenHash : TokenHash) (now : ℤ)
  | verifyUser (userID : UserID)

def apply (db : Tables) : Write → Tables
  | .deleteToken tokenHash => { db with tokens := db.tokens.erase tokenHash }
  | .insertToken tokenHash row => { db with tokens := db.tokens.insert tokenHash row }
  | .useToken tokenHash now =>
    match db.tokens.lookup tokenHash with
    | none => db
    | some row => { db with tokens := db.tokens.insert tokenHash { row with usedAt := some now } }
  | .verifyUser userID => { db with emailVerified := insert userID db.emailVerified }

/-- `user_id = $1 AND used_at IS NULL`. -/
def unused (db : Tables) (userID : UserID) (tokenHash : TokenHash) : Bool :=
  (db.tokens.lookup tokenHash).any (fun row => decide (row.userID = userID ∧ row.usedAt = none))

/-- The statement that is next. -/
inductive Call where
  | idle
  | deleting (userID : UserID) (tokenHash : TokenHash) (expiresAt : ℤ) (rows : Finset TokenHash)
  | inserting (userID : UserID) (tokenHash : TokenHash) (expiresAt : ℤ)
  | selecting (tokenHash : TokenHash)
  | checking (tokenHash : TokenHash) (row : TokenRow)
  | updatingToken (tokenHash : TokenHash) (userID : UserID)
  | updatingUser (tokenHash : TokenHash) (userID : UserID)
  | committing (tokenHash : TokenHash) (userID : UserID)
  deriving DecidableEq

/-- A call of `VerifyEmailByToken`. -/
def Call.verifies : Call → Bool
  | .selecting _ => true
  | .checking _ _ => true
  | .updatingToken _ _ => true
  | .updatingUser _ _ => true
  | .committing _ _ => true
  | _ => false

/-- `created` are the inserted tokens and `verified` those whose verification succeeded, in
their order. -/
structure State where
  store : Store CallID Tables Write
  tokenLocks : TokenHash → Option CallID
  userLocks : UserID → Option CallID
  calls : CallID → Call
  created : List (UserID × TokenHash)
  verified : List TokenHash

def init : State where
  store := ⟨⟨∅,∅⟩,fun _ => []⟩
  tokenLocks := fun _ => none
  userLocks := fun _ => none
  calls := fun _ => .idle
  created := []
  verified := []

namespace State

def db (s : State) : Tables := s.store.committed

def setCall (s : State) (t : CallID) (c : Call) : State :=
  { s with calls := Function.update s.calls t c }

def write (s : State) (t : CallID) (w : Write) : State := { s with store := s.store.write t w }

def lockToken (s : State) (t : CallID) (tokenHash : TokenHash) : State :=
  { s with tokenLocks := Function.update s.tokenLocks tokenHash (some t) }

def lockUser (s : State) (t : CallID) (userID : UserID) : State :=
  { s with userLocks := Function.update s.userLocks userID (some t) }

/-- The locks of a transaction go with it. -/
def release (s : State) (t : CallID) : State :=
  { s with
    tokenLocks := fun h => if s.tokenLocks h = some t then none else s.tokenLocks h
    userLocks := fun u => if s.userLocks u = some t then none else s.userLocks u }

def commit (s : State) (t : CallID) : State :=
  { s with store := s.store.commit apply t }.release t

/-- The error is returned, and the deferred `Rollback` runs. -/
def abort (s : State) (t : CallID) : State :=
  ({ s with store := s.store.rollback t }.release t).setCall t .idle

/-- What the `DELETE` of a creation sees when it begins. -/
def outstanding (s : State) (userID : UserID) : Finset TokenHash :=
  s.db.tokens.keys.filter (fun h => unused s.db userID h = true)

end State

inductive Event where
  | create (t : CallID) (userID : UserID) (tokenHash : TokenHash) (expiresAt : ℤ)
  | deleteRow (t : CallID) (tokenHash : TokenHash)
  | deleted (t : CallID)
  | insert (t : CallID)
  | verify (t : CallID) (tokenHash : TokenHash)
  | select (t : CallID)
  | check (t : CallID) (now : ℤ)
  | updateToken (t : CallID) (now : ℤ)
  | updateUser (t : CallID)
  | commit (t : CallID)
  | fail (t : CallID)
  deriving DecidableEq

def Event.call : Event → CallID
  | .create t _ _ _ => t
  | .deleteRow t _ => t
  | .deleted t => t
  | .insert t => t
  | .verify t _ => t
  | .select t => t
  | .check t _ => t
  | .updateToken t _ => t
  | .updateUser t => t
  | .commit t => t
  | .fail t => t

def step (s : State) : Event → Option State
  | .create t u h expiresAt =>
    if s.calls t = .idle then some (s.setCall t (.deleting u h expiresAt (s.outstanding u)))
    else none
  | .deleteRow t x =>
    match s.calls t with
    | .deleting u h expiresAt rows =>
      if x ∈ rows ∧ s.tokenLocks x = none then
        let k := .deleting u h expiresAt (rows.erase x)
        if unused s.db u x = true then
          some (((s.write t (.deleteToken x)).lockToken t x).setCall t k)
        else some (s.setCall t k)
      else none
    | _ => none
  | .deleted t =>
    match s.calls t with
    | .deleting u h expiresAt rows =>
      if rows = ∅ then some ((s.commit t).setCall t (.inserting u h expiresAt)) else none
    | _ => none
  | .insert t =>
    match s.calls t with
    | .inserting u h expiresAt =>
      if s.tokenLocks h ≠ none then none
      else if h ∈ s.db.tokens then some (s.setCall t .idle)
      else some ({ (s.write t (.insertToken h ⟨u,expiresAt,none⟩)).commit t with
        created := s.created ++ [(u,h)] }.setCall t .idle)
    | _ => none
  | .verify t h => if s.calls t = .idle then some (s.setCall t (.selecting h)) else none
  | .select t =>
    match s.calls t with
    | .selecting h =>
      match s.db.tokens.lookup h with
      | none => some (s.abort t)
      | some row =>
        if s.tokenLocks h = none then some ((s.lockToken t h).setCall t (.checking h row)) else none
    | _ => none
  | .check t now =>
    match s.calls t with
    | .checking h row =>
      if row.usedAt ≠ none ∨ row.expiresAt < now then some (s.abort t)
      else some (s.setCall t (.updatingToken h row.userID))
    | _ => none
  | .updateToken t now =>
    match s.calls t with
    | .updatingToken h u => some ((s.write t (.useToken h now)).setCall t (.updatingUser h u))
    | _ => none
  | .updateUser t =>
    match s.calls t with
    | .updatingUser h u =>
      if s.userLocks u = none then
        some (((s.write t (.verifyUser u)).lockUser t u).setCall t (.committing h u))
      else none
    | _ => none
  | .commit t =>
    match s.calls t with
    | .committing h _ =>
      some ({ s.commit t with verified := s.verified ++ [h] }.setCall t .idle)
    | _ => none
  | .fail t => if s.calls t = .idle then none else some (s.abort t)

/-- Everything a statement can do, with the test that let it happen. -/
inductive StepView (s : State) : Event → State → Prop
  | create {t u h expiresAt} : s.calls t = .idle →
      StepView s (.create t u h expiresAt) (s.setCall t (.deleting u h expiresAt (s.outstanding u)))
  | deleteRow {t u h expiresAt rows x} : s.calls t = .deleting u h expiresAt rows → x ∈ rows →
      s.tokenLocks x = none → unused s.db u x = true →
      StepView s (.deleteRow t x) (((s.write t (.deleteToken x)).lockToken t x).setCall t
        (.deleting u h expiresAt (rows.erase x)))
  | skipRow {t u h expiresAt rows x} : s.calls t = .deleting u h expiresAt rows → x ∈ rows →
      unused s.db u x = false →
      StepView s (.deleteRow t x) (s.setCall t (.deleting u h expiresAt (rows.erase x)))
  | deleted {t u h expiresAt} : s.calls t = .deleting u h expiresAt ∅ →
      StepView s (.deleted t) ((s.commit t).setCall t (.inserting u h expiresAt))
  | insert {t u h expiresAt} : s.calls t = .inserting u h expiresAt → s.tokenLocks h = none →
      h ∉ s.db.tokens →
      StepView s (.insert t) ({ (s.write t (.insertToken h ⟨u,expiresAt,none⟩)).commit t with
        created := s.created ++ [(u,h)] }.setCall t .idle)
  | duplicate {t u h expiresAt} : s.calls t = .inserting u h expiresAt → h ∈ s.db.tokens →
      StepView s (.insert t) (s.setCall t .idle)
  | verify {t h} : s.calls t = .idle → StepView s (.verify t h) (s.setCall t (.selecting h))
  | unknown {t h} : s.calls t = .selecting h → s.db.tokens.lookup h = none →
      StepView s (.select t) (s.abort t)
  | select {t h row} : s.calls t = .selecting h → s.db.tokens.lookup h = some row →
      s.tokenLocks h = none →
      StepView s (.select t) ((s.lockToken t h).setCall t (.checking h row))
  | refused {t h row now} : s.calls t = .checking h row → row.usedAt ≠ none ∨ row.expiresAt < now →
      StepView s (.check t now) (s.abort t)
  | checked {t h row now} : s.calls t = .checking h row → row.usedAt = none →
      StepView s (.check t now) (s.setCall t (.updatingToken h row.userID))
  | updateToken {t h u now} : s.calls t = .updatingToken h u →
      StepView s (.updateToken t now)
        ((s.write t (.useToken h now)).setCall t (.updatingUser h u))
  | updateUser {t h u} : s.calls t = .updatingUser h u → s.userLocks u = none →
      StepView s (.updateUser t)
        (((s.write t (.verifyUser u)).lockUser t u).setCall t (.committing h u))
  | commit {t h u} : s.calls t = .committing h u →
      StepView s (.commit t) ({ s.commit t with verified := s.verified ++ [h] }.setCall t .idle)
  | fail {t} : s.calls t ≠ .idle → StepView s (.fail t) (s.abort t)

theorem step_view {s s' : State} {e : Event} (he : step s e = some s') : StepView s e s' := by
  cases e with
  | create t u h expiresAt =>
    dsimp only [step] at he
    split at he
    · cases he
      exact .create ‹_›
    · cases he
  | deleteRow t x =>
    dsimp only [step] at he
    split at he
    · rename_i hc
      split at he
      · rename_i hx
        split at he
        · cases he
          exact .deleteRow hc hx.1 hx.2 ‹_›
        · cases he
          exact .skipRow hc hx.1 (by simpa using ‹¬ unused s.db _ x = true›)
      · cases he
    · cases he
  | deleted t =>
    dsimp only [step] at he
    split at he
    · rename_i hc
      split at he
      · rename_i hr
        cases he
        rw [hr] at hc
        exact .deleted hc
      · cases he
    · cases he
  | insert t =>
    dsimp only [step] at he
    split at he
    · rename_i hc
      split at he
      · cases he
      · rename_i hl
        split at he
        · cases he
          exact .duplicate hc ‹_›
        · cases he
          exact .insert hc (not_not.mp hl) ‹_›
    · cases he
  | verify t h =>
    dsimp only [step] at he
    split at he
    · cases he
      exact .verify ‹_›
    · cases he
  | select t =>
    dsimp only [step] at he
    split at he
    · rename_i hc
      split at he
      · cases he
        exact .unknown hc ‹_›
      · split at he
        · cases he
          exact .select hc ‹_› ‹_›
        · cases he
    · cases he
  | check t now =>
    dsimp only [step] at he
    split at he
    · rename_i hc
      split at he
      · cases he
        exact .refused hc ‹_›
      · rename_i hn
        cases he
        exact .checked hc (not_not.mp (fun h => hn (Or.inl h)))
    · cases he
  | updateToken t now =>
    dsimp only [step] at he
    split at he
    · cases he
      exact .updateToken ‹_›
    · cases he
  | updateUser t =>
    dsimp only [step] at he
    split at he
    · split at he
      · cases he
        exact .updateUser ‹_› ‹_›
      · cases he
    · cases he
  | commit t =>
    dsimp only [step] at he
    split at he
    · cases he
      exact .commit ‹_›
    · cases he
  | fail t =>
    dsimp only [step] at he
    split at he
    · cases he
    · cases he
      exact .fail ‹_›

end MiniDiscord.Auth.EmailVerification
