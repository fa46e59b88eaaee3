import MiniDiscord.Sfu.Room
import MiniDiscord.Transition.LabelledRuns

/-! # Access and refresh tokens

Both kinds carry the same claims and pass the same validator. A token is known by its
number among those handed out; a string that is none of them is not signed with the
secret. What a token was handed out as, when, and for which other one is history.
-/
namespace MiniDiscord.Auth
open Transition

/-- Times and durations are in nanoseconds. -/
def second : ℤ := 1000000000
def minute : ℤ := 60 * second

/-- A numeric date has whole seconds. -/
def newNumericDate (t : ℤ) : ℤ := t / second * second

structure UserClaims where
  userID : UserID
  id : String
  issuedAt : ℤ
  expiresAt : ℤ

/-- `id` is the random token ID, if there is one. -/
def newUserClaims (now : ℤ) (id : Option String) (userID : UserID) (duration : ℤ) :
    Option UserClaims :=
  id.map (fun tokenID => ⟨userID,tokenID,newNumericDate now,newNumericDate (now + duration)⟩)

abbrev TokenID := ℕ

inductive Kind where
  | access
  | refresh
  deriving DecidableEq

/-- `parent` is the token it was renewed with, `login` the time of the login it descends from. -/
structure Token where
  claims : UserClaims
  kind : Kind
  issued : ℤ
  parent : Option TokenID
  login : ℤ

structure Config where
  jwtAccessExpirationInMinutes : ℤ
  jwtRefreshExpirationInMinutes : ℤ

def Config.accessLifetime (cfg : Config) : ℤ := minute * cfg.jwtAccessExpirationInMinutes
def Config.refreshLifetime (cfg : Config) : ℤ := minute * cfg.jwtRefreshExpirationInMinutes

structure User where
  id : UserID
  emailVerified : Bool
  isDeleted : Bool

structure State where
  now : ℤ
  tokens : List Token

def init (now : ℤ) : State := ⟨now,[]⟩

inductive Response (α : Type) where
  | error (status : ℕ) (text : String)
  | ok (body : α)

def Response.isOk {α : Type} : Response α → Bool
  | .error _ _ => false
  | .ok _ => true

def permissionDenied {α : Type} : Response α := .error 403 "permission denied"

/-- What `handleLogin` learns from the request and the storage. -/
structure LoginRequest where
  parsed : Bool
  valid : Bool
  user : Option User
  passwordMatches : Bool
  accessID : Option String
  refreshID : Option String

/-- The login is one that hands out tokens. -/
def LoginRequest.Succeeds (req : LoginRequest) : Prop :=
  req.parsed = true ∧ req.valid = true ∧ (∃ u ∈ req.user, u.emailVerified = true) ∧
    req.passwordMatches = true ∧ req.accessID.isSome = true ∧ req.refreshID.isSome = true

instance (req : LoginRequest) : Decidable req.Succeeds := by
  unfold LoginRequest.Succeeds
  infer_instance

structure LoginUserResponse where
  accessToken : TokenID
  refreshToken : TokenID
  accessTokenExpiresAt : ℤ
  refreshTokenExpiresAt : ℤ

structure RenewAccessTokenResponse where
  accessToken : TokenID
  accessTokenExpiresAt : ℤ

namespace State

/-- The library accepts what is signed with the secret and not yet expired. -/
def validateToken (s : State) (tokenString : TokenID) : Option UserClaims :=
  match s.tokens[tokenString]? with
  | none => none
  | some token => if s.now < token.claims.expiresAt then some token.claims else none

/-- `tokenString` is what the request carries, `found` what `GetUserByID` answers. -/
def withJWTAuth (s : State) (tokenString : Option TokenID) (found : Option User) : Response UserID :=
  match tokenString with
  | none => permissionDenied
  | some tokenString =>
    match s.validateToken tokenString with
    | none => permissionDenied
    | some claims =>
      if claims.userID ≤ 0 then permissionDenied else
      match found with
      | none => permissionDenied
      | some u => if u.isDeleted then permissionDenied else .ok u.id

def handleLogin (cfg : Config) (s : State) (req : LoginRequest) : Response LoginUserResponse × State :=
  if ¬ req.parsed then (.error 400 "invalid request body",s)
  else if ¬ req.valid then (.error 400 "invalid payload",s) else
  match req.user with
  | none => (.error 401 "invalid email or password",s)
  | some u =>
    if ¬ req.passwordMatches then (.error 401 "invalid email or password",s)
    else if ¬ u.emailVerified then
      (.error 403 "email not verified, please check your inbox",s) else
    match newUserClaims s.now req.accessID u.id cfg.accessLifetime,
        newUserClaims s.now req.refreshID u.id cfg.refreshLifetime with
    | some accessClaims, some refreshClaims =>
      (.ok ⟨s.tokens.length,s.tokens.length + 1,accessClaims.expiresAt,refreshClaims.expiresAt⟩,
        { s with tokens := s.tokens ++ [⟨accessClaims,.access,s.now,none,s.now⟩,
          ⟨refreshClaims,.refresh,s.now,none,s.now⟩] })
    | _, _ => (.error 400 "auth error",s)

/-- `tokenString` is none where the body has no token of the server's. -/
def handleRenewAccessToken (cfg : Config) (s : State) (parsed : Bool) (tokenString : Option TokenID)
    (id : Option String) : Response RenewAccessTokenResponse × State :=
  if ¬ parsed then (.error 400 "error decoding request body",s) else
  match tokenString with
  | none => (.error 401 "error verifying token",s)
  | some presented =>
    match s.validateToken presented, s.tokens[presented]? with
    | some refreshClaims, some token =>
      match newUserClaims s.now id refreshClaims.userID cfg.refreshLifetime with
      | none => (.error 500 "error creating token",s)
      | some accessClaims =>
        (.ok ⟨s.tokens.length,accessClaims.expiresAt⟩,
          { s with tokens := s.tokens ++ [⟨accessClaims,.access,s.now,some presented,token.login⟩] })
    | _, _ => (.error 401 "error verifying token",s)

end State

inductive Event where
  | wait (d : ℕ)
  | login (req : LoginRequest)
  | renew (parsed : Bool) (tokenString : Option TokenID) (id : Option String)
  | request (tokenString : Option TokenID) (found : Option User)

def step (cfg : Config) (s : State) : Event → Option State
  | .wait d => some { s with now := s.now + d }
  | .login req => some (s.handleLogin cfg req).2
  | .renew parsed tokenString id => some (s.handleRenewAccessToken cfg parsed tokenString id).2
  | .request _ _ => some s

/-! ## What a handler does -/

section Specs
variable {cfg : Config} {s s' : State} {e : Event} {i : TokenID}

/-- Whoever is let in has a token that validates. -/
theorem validateToken_of_withJWTAuth {found : Option User}
    (h : (s.withJWTAuth (some i) found).isOk = true) : (s.validateToken i).isSome = true := by
  unfold State.withJWTAuth at h
  dsimp only at h
  cases hv : s.validateToken i with
  | none =>
    rw [hv] at h
    cases h
  | some claims => rfl

theorem validateToken_of_renew {parsed : Bool} {id : Option String}
    (h : (s.handleRenewAccessToken cfg parsed (some i) id).1.isOk = true) :
    (s.validateToken i).isSome = true := by
  unfold State.handleRenewAccessToken at h
  split at h
  · cases h
  · dsimp only at h
    cases hv : s.validateToken i with
    | none =>
      rw [hv] at h
      cases h
    | some claims => rfl

theorem lt_expiresAt (h : (s.validateToken i).isSome = true) :
    ∃ token, s.tokens[i]? = some token ∧ s.now < token.claims.expiresAt := by
  unfold State.validateToken at h
  cases ht : s.tokens[i]? with
  | none =>
    rw [ht] at h
    cases h
  | some token =>
    refine ⟨token,rfl,?_⟩
    rw [ht] at h
    dsimp only at h
    by_contra hn
    rw [if_neg hn] at h
    cases h

theorem validateToken_isSome {token : Token} (h : s.tokens[i]? = some token)
    (hlt : s.now < token.claims.expiresAt) : (s.validateToken i).isSome = true := by
  unfold State.validateToken
  rw [h]
  dsimp only
  rw [if_pos hlt]
  rfl

/-- The tokens a login hands out. -/
theorem handleLogin_spec (cfg : Config) (s : State) (req : LoginRequest) : (s.handleLogin cfg req).2 = s ∨
    req.Succeeds ∧ ∃ userID accessID refreshID, (s.handleLogin cfg req).2 = { s with tokens := s.tokens ++
      [⟨⟨userID,accessID,newNumericDate s.now,newNumericDate (s.now + cfg.accessLifetime)⟩,
          .access,s.now,none,s.now⟩,
        ⟨⟨userID,refreshID,newNumericDate s.now,newNumericDate (s.now + cfg.refreshLifetime)⟩,
          .refresh,s.now,none,s.now⟩] } := by
  unfold State.handleLogin
  split
  · exact Or.inl rfl
  rename_i hparsed
  split
  · exact Or.inl rfl
  rename_i hvalid
  split
  · exact Or.inl rfl
  rename_i u hu
  split
  · exact Or.inl rfl
  rename_i hpassword
  split
  · exact Or.inl rfl
  rename_i hverified
  split
  · rename_i accessClaims refreshClaims ha hr
    obtain ⟨accessID,hid,rfl⟩ := Option.map_eq_some_iff.mp ha
    obtain ⟨refreshID,hid',rfl⟩ := Option.map_eq_some_iff.mp hr
    refine Or.inr ⟨⟨not_not.mp hparsed,not_not.mp hvalid,⟨u,hu,not_not.mp hverified⟩,
      not_not.mp hpassword,?_,?_⟩,u.id,accessID,refreshID,rfl⟩
    · rw [hid]
      rfl
    · rw [hid']
      rfl
  · exact Or.inl rfl

/-- The token a renewal hands out. -/
theorem handleRenewAccessToken_spec (cfg : Config) (s : State) (parsed : Bool)
    (tokenString : Option TokenID) (id : Option String) :
    (s.handleRenewAccessToken cfg parsed tokenString id).2 = s ∨
      ∃ presented token userID tokenID, parsed = true ∧ id.isSome = true ∧ tokenString = some presented ∧
        s.tokens[presented]? = some token ∧ s.now < token.claims.expiresAt ∧
        (s.handleRenewAccessToken cfg parsed tokenString id).2 = { s with tokens := s.tokens ++
          [⟨⟨userID,tokenID,newNumericDate s.now,newNumericDate (s.now + cfg.refreshLifetime)⟩,
            .access,s.now,some presented,token.login⟩] } := by
  unfold State.handleRenewAccessToken
  split
  · exact Or.inl rfl
  rename_i hparsed
  split
  · exact Or.inl rfl
  rename_i presented
  split
  · rename_i refreshClaims token hv ht
    split
    · exact Or.inl rfl
    · rename_i accessClaims hc
      obtain ⟨tokenID,hid,rfl⟩ := Option.map_eq_some_iff.mp hc
      obtain ⟨token',ht',hlt⟩ := lt_expiresAt (s := s) (i := presented) (by rw [hv]; rfl)
      rw [ht] at ht'
      obtain rfl := Option.some.inj ht'
      refine Or.inr ⟨presented,token,refreshClaims.userID,tokenID,not_not.mp hparsed,?_,rfl,ht,hlt,rfl⟩
      rw [hid]
      rfl
  · exact Or.inl rfl

end Specs
end MiniDiscord.Auth
