import MiniDiscord.Auth.Tokens

/-! # How long a session lasts

A renewal gives the new token the whole refresh lifetime, whatever token it was asked with.
So the lifetimes bound a session just as long as no renewal comes later than the login
itself, and no access lifetime is configured that differs from what is handed out.
-/
namespace MiniDiscord.Auth
open Transition

/-- The token descends, through any chain of renewals, from a login at this time. -/
inductive State.Descends (s : State) : TokenID → ℤ → Prop
  | login {i : TokenID} {token : Token} : s.tokens[i]? = some token → token.parent = none →
      Descends s i token.issued
  | renewed {i j : TokenID} {token : Token} {t : ℤ} : s.tokens[i]? = some token →
      token.parent = some j → Descends s j t → Descends s i t

/-- Let in by `WithJWTAuth` or by a renewal. -/
def State.Accepted (cfg : Config) (s : State) (i : TokenID) : Prop :=
  (∃ found, (s.withJWTAuth (some i) found).isOk = true) ∨
    ∃ parsed id, (s.handleRenewAccessToken cfg parsed (some i) id).1.isOk = true

structure SessionBounded (cfg : Config) (s : State) : Prop where
  session : ∀ i, s.Accepted cfg i → ∃ t, s.Descends i t ∧ s.now - t ≤ cfg.refreshLifetime
  access : ∀ (i : TokenID) (token : Token), s.tokens[i]? = some token → token.kind = .access → s.Accepted cfg i →
    s.now - token.issued ≤ cfg.accessLifetime

/-- Access tokens that a login hands out do not outlive its refresh tokens, and a token is
handed out for another only where both live as long and in the second of the login. Requests
that are refused are free. -/
def Bounding (cfg : Config) (s : State) : Event → Prop
  | .login req => req.Succeeds →
      cfg.jwtAccessExpirationInMinutes ≤ cfg.jwtRefreshExpirationInMinutes
  | .renew parsed tokenString id => parsed = true → id.isSome = true →
      ∀ i ∈ tokenString, (s.validateToken i).isSome = true →
        cfg.jwtRefreshExpirationInMinutes ≤ cfg.jwtAccessExpirationInMinutes ∧
          ∀ token ∈ s.tokens[i]?, newNumericDate s.now ≤ token.login + 1
  | _ => True

instance (cfg : Config) (s : State) (e : Event) : Decidable (Bounding cfg s e) := by
  cases e <;> unfold Bounding <;> infer_instance

/-! ## Dates -/

theorem newNumericDate_le (t : ℤ) : newNumericDate t ≤ t := by
  unfold newNumericDate second
  omega

theorem lt_newNumericDate_add (t : ℤ) : t < newNumericDate t + second := by
  unfold newNumericDate second
  omega

/-- A lifetime has whole minutes. -/
theorem newNumericDate_add (t : ℤ) (m : ℤ) :
    newNumericDate (t + minute * m) = newNumericDate t + minute * m := by
  unfold newNumericDate minute second
  omega

/-- The renewed token stays within both lifetimes just when it is asked for in the second of
the login, and the refresh lifetime is no longer than the access lifetime. -/
theorem renewed_bounded_iff (cfg : Config) (now login : ℤ) :
    (∀ t < newNumericDate (now + cfg.refreshLifetime),
      t - login ≤ cfg.refreshLifetime ∧ t - now ≤ cfg.accessLifetime) ↔
    cfg.jwtRefreshExpirationInMinutes ≤ cfg.jwtAccessExpirationInMinutes ∧
      newNumericDate now ≤ login + 1 := by
  have hle := newNumericDate_le now
  have hlt := lt_newNumericDate_add now
  rw [Config.refreshLifetime,newNumericDate_add,Config.accessLifetime]
  unfold minute second at *
  constructor
  · intro h
    have hlast := h (newNumericDate now + 60 * 1000000000 * cfg.jwtRefreshExpirationInMinutes - 1)
      (by omega)
    omega
  · rintro ⟨hcfg,hlogin⟩ t ht
    omega

/-! ## Runs -/

/-- What a token's expiry keeps of the two lifetimes. -/
structure TokenBounded (cfg : Config) (token : Token) : Prop where
  session : token.claims.expiresAt ≤ token.login + cfg.refreshLifetime + 1
  access : token.kind = .access → token.claims.expiresAt ≤ token.issued + cfg.accessLifetime + 1

structure Bounded (cfg : Config) (s : State) : Prop where
  descends : ∀ (i : TokenID) (token : Token), s.tokens[i]? = some token → s.Descends i token.login
  tokens : ∀ (i : TokenID) (token : Token), s.tokens[i]? = some token → TokenBounded cfg token

variable {cfg : Config} {s s' : State} {e : Event} {i : TokenID}

theorem State.Descends.append {t : ℤ} (h : s.Descends i t) (now : ℤ) (tokens : List Token) :
    State.Descends ⟨now,s.tokens ++ tokens⟩ i t := by
  induction h with
  | login hi hp =>
    have hlt := (List.getElem?_eq_some_iff.mp hi).1
    exact .login ((List.getElem?_append_left hlt).trans hi) hp
  | renewed hi hp _ ih =>
    have hlt := (List.getElem?_eq_some_iff.mp hi).1
    exact .renewed ((List.getElem?_append_left hlt).trans hi) hp ih

/-- It is enough to look at the tokens that are new. -/
theorem Bounded.append (h : Bounded cfg s) {tokens : List Token}
    (hd : ∀ k token, tokens[k]? = some token →
      State.Descends ⟨s.now,s.tokens ++ tokens⟩ (s.tokens.length + k) token.login)
    (hb : ∀ token ∈ tokens, TokenBounded cfg token) : Bounded cfg ⟨s.now,s.tokens ++ tokens⟩ := by
  have hcases : ∀ i token, (s.tokens ++ tokens)[i]? = some token → s.tokens[i]? = some token ∨
      ∃ k, i = s.tokens.length + k ∧ tokens[k]? = some token := by
    intro i token hi
    by_cases hlt : i < s.tokens.length
    · exact Or.inl ((List.getElem?_append_left hlt).symm.trans hi)
    · refine Or.inr ⟨i - s.tokens.length,by omega,?_⟩
      exact (List.getElem?_append_right (by omega)).symm.trans hi
  constructor
  · intro i token hi
    rcases hcases i token hi with hi | ⟨k,rfl,hk⟩
    · exact (h.descends i token hi).append _ _
    · exact hd k token hk
  · intro i token hi
    rcases hcases i token hi with hi | ⟨k,rfl,hk⟩
    · exact h.tokens i token hi
    · exact hb token (List.mem_of_getElem? hk)

theorem step_bounded (h : Bounded cfg s) (hg : Bounding cfg s e) (he : step cfg s e = some s') :
    Bounded cfg s' := by
  have hnow := newNumericDate_le s.now
  cases e with
  | wait d =>
    obtain rfl := Option.some.inj he
    have happ : Bounded cfg ⟨s.now + d,s.tokens⟩ := by
      constructor
      · intro i token hi
        have hd := (h.descends i token hi).append (s.now + d) []
        rwa [List.append_nil] at hd
      · exact h.tokens
    exact happ
  | request tokenString found =>
    obtain rfl := Option.some.inj he
    exact h
  | login req =>
    obtain rfl := Option.some.inj he
    obtain hs | ⟨hreq,userID,accessID,refreshID,hs⟩ := handleLogin_spec cfg s req
    · rwa [hs]
    · have hle : cfg.jwtAccessExpirationInMinutes ≤ cfg.jwtRefreshExpirationInMinutes := hg hreq
      rw [hs]
      refine h.append ?_ ?_
      · intro k token hk
        have hi := (List.getElem?_append_right (Nat.le_add_right s.tokens.length k)).trans
          ((congrArg _ (Nat.add_sub_cancel_left ..)).trans hk)
        have hparent : token.parent = none ∧ token.login = token.issued := by
          rcases List.mem_pair.mp (List.mem_of_getElem? hk) with rfl | rfl
          · exact ⟨rfl,rfl⟩
          · exact ⟨rfl,rfl⟩
        rw [hparent.2]
        exact .login hi hparent.1
      · intro token hm
        rcases List.mem_pair.mp hm with rfl | rfl
        · constructor
          · change newNumericDate (s.now + minute * _) ≤ s.now + minute * _ + 1
            rw [newNumericDate_add]
            unfold minute second
            omega
          · rintro -
            change newNumericDate (s.now + minute * _) ≤ s.now + minute * _ + 1
            rw [newNumericDate_add]
            omega
        · constructor
          · change newNumericDate (s.now + minute * _) ≤ s.now + minute * _ + 1
            rw [newNumericDate_add]
            omega
          · rintro ⟨⟩
  | renew parsed tokenString id =>
    obtain rfl := Option.some.inj he
    obtain hs | ⟨presented,old,userID,tokenID,hparsed,hid,rfl,hold,hlt,hs⟩ :=
      handleRenewAccessToken_spec cfg s parsed tokenString id
    · rwa [hs]
    · obtain ⟨hcfg,hall⟩ := hg hparsed hid presented rfl (validateToken_isSome hold hlt)
      have hlogin := hall old hold
      rw [hs]
      refine h.append ?_ ?_
      · intro k token hk
        have hi := (List.getElem?_append_right (Nat.le_add_right s.tokens.length k)).trans
          ((congrArg _ (Nat.add_sub_cancel_left ..)).trans hk)
        obtain rfl := List.mem_singleton.mp (List.mem_of_getElem? hk)
        exact .renewed hi rfl ((h.descends presented old hold).append _ _)
      · intro token hm
        obtain rfl := List.mem_singleton.mp hm
        constructor
        · change newNumericDate (s.now + minute * _) ≤ old.login + minute * _ + 1
          rw [newNumericDate_add]
          omega
        · rintro -
          change newNumericDate (s.now + minute * _) ≤ s.now + minute * _ + 1
          rw [newNumericDate_add]
          unfold minute second
          omega

theorem validates_of_accepted (h : s.Accepted cfg i) : (s.validateToken i).isSome = true := by
  rcases h with ⟨found,h⟩ | ⟨parsed,id,h⟩
  · exact validateToken_of_withJWTAuth h
  · exact validateToken_of_renew h

theorem Bounded.sessionBounded (h : Bounded cfg s) : SessionBounded cfg s := by
  constructor
  · intro i hacc
    obtain ⟨token,hi,hlt⟩ := lt_expiresAt (validates_of_accepted hacc)
    have hb := (h.tokens i token hi).session
    exact ⟨token.login,h.descends i token hi,by omega⟩
  · intro i token hi hkind hacc
    obtain ⟨token',hi',hlt⟩ := lt_expiresAt (validates_of_accepted hacc)
    rw [hi] at hi'
    obtain rfl := Option.some.inj hi'
    have hb := (h.tokens i token hi).access hkind
    omega

/-- Where every login and every renewal keeps within the lifetimes, sessions do. -/
theorem session_bounded {now : ℤ} {es : List Event}
    (h : RunsWhen (step cfg) (Bounding cfg) (init now) es s) : SessionBounded cfg s := by
  have h0 : Bounded cfg (init now) := ⟨fun i _ hi => (by cases i <;> cases hi),
    fun i _ hi => (by cases i <;> cases hi)⟩
  exact (h.invariant h0 (fun hs hg he => step_bounded hs hg he)).sessionBounded

/-- The configuration's defaults: a week and thirty days. -/
def defaults : Config := ⟨10080,43200⟩

def loginOf (userID : UserID) : Event :=
  .login ⟨true,true,some ⟨userID,true,false⟩,true,some "a",some "b"⟩

/-- A second before the refresh token expires it is renewed, and the new token is used a
second before it expires. -/
def renewsLate : List Event :=
  [loginOf 1, .wait 2591999000000000, .renew true (some 1) (some "c"), .wait 2591999000000000]

def renewedLate : State where
  now := 5183998000000000
  tokens := [⟨⟨1,"a",0,604800000000000⟩,.access,0,none,0⟩,
    ⟨⟨1,"b",0,2592000000000000⟩,.refresh,0,none,0⟩,
    ⟨⟨1,"c",2591999000000000,5183999000000000⟩,.access,2591999000000000,some 1,0⟩]

theorem session_outlives_login : Runs (step defaults) (init 0) renewsLate renewedLate ∧
    renewedLate.Accepted defaults 2 ∧
    (∀ t, renewedLate.Descends 2 t → defaults.refreshLifetime < renewedLate.now - t) ∧
    ∃ token, renewedLate.tokens[2]? = some token ∧ token.kind = .access ∧
      defaults.accessLifetime < renewedLate.now - token.issued := by
  refine ⟨runs_iff_exec.mpr rfl,Or.inl ⟨some ⟨1,true,false⟩,rfl⟩,?_,_,rfl,rfl,by decide⟩
  intro t ht
  cases ht with
  | login hi hp =>
    cases hi
    cases hp
  | renewed hi hp hj =>
    cases hi
    cases hp
    cases hj with
    | login hi hp =>
      cases hi
      decide
    | renewed hi hp _ =>
      cases hi
      cases hp

/-- Both lifetimes are an hour, and the token is renewed at once. -/
theorem session_bounded_hour : ∃ s, RunsWhen (step ⟨60,60⟩) (Bounding ⟨60,60⟩) (init 0)
    [loginOf 1, .renew true (some 1) (some "c"), .wait 3599000000000, .request (some 2) none] s ∧
      s.tokens.length = 3 ∧ SessionBounded ⟨60,60⟩ s := by
  obtain ⟨s,hrun,hs⟩ := exists_runsWhen_of_exec (step ⟨60,60⟩) (Bounding ⟨60,60⟩) (init 0)
    [loginOf 1, .renew true (some 1) (some "c"), .wait 3599000000000, .request (some 2) none]
    (fun s => s.tokens.length) 3 (by decide +kernel)
  exact ⟨s,hrun,hs,session_bounded hrun⟩

end MiniDiscord.Auth
