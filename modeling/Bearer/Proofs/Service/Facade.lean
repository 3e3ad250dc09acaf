/-
  The conduct of the operations.

  Every operation keeps the rules of conduct.  Where it succeeds, its history
  holds the reason: the tokens that a login or a refresh hands out were issued
  in it, a refresh has seen the record replace the token that it redeems, an
  accepted token has been cleared, and a revocation has reached the record
  unless the token had expired.

  Main statement: `Operation.obeys`.
-/
import Bearer.Proofs.Service.Operation
import Bearer.Proofs.Service.Stores
import Bearer.Proofs.Token.RoundTrip

namespace Bearer

/-- Why an operation may answer what it answers. -/
def Operation.Reason (issuer : Issuer) : (o : Operation) → History → o.Result → Prop
  | .login .., h, .ok (user, pair) =>
    h.Issued issuer.config .access user.id pair.access ∧
      h.Issued issuer.config .refresh user.id pair.refresh
  | .refresh token, h, .ok pair =>
    ∃ claims expiresAt, issuer.config.peek token = .ok claims ∧ h.Cleared claims ∧
      h.Issued issuer.config .access claims.user pair.access ∧
      h.Issued issuer.config .refresh claims.user pair.refresh ∧
      ⟨.session (.updateToken claims.user (some token) pair.refresh expiresAt), .ok true⟩ ∈ h
  | .logout user accessToken refreshToken, h, .ok () =>
    (∀ token, token = accessToken ∨ token = refreshToken →
      ∀ claims, issuer.config.peek token = .ok claims → claims.user = user → h.Voided claims) ∧
      ∃ found, ⟨.session (.deleteByUser user), .ok found⟩ ∈ h
  | .verify token, h, .ok claims =>
    (∃ time, h.Told time ∧ issuer.config.verify .access time token = .ok claims) ∧
      h.Cleared claims
  | .verify token, h, .error e =>
    (∃ time, h.Told time ∧ issuer.config.verify .access time token = .error e) ∨
      ∃ claims, issuer.config.peek token = .ok claims ∧ h.Denied claims e
  | .revoke token, h, .ok () =>
    ∃ claims, issuer.config.peek token = .ok claims ∧ (issuer.reports = true → h.Voided claims)
  | .revoke token, h, .error e => issuer.config.peek token = .error e ∨ h.Failed e
  | .revokeAll user, h, .ok () =>
    ∃ time expiresAt, h.Told time ∧
      time.deadline? issuer.config.longestLifetime = some expiresAt ∧
      ⟨.revocation (.insertCutoff user time expiresAt), .ok ()⟩ ∈ h ∧
      (∃ found, ⟨.session (.deleteByUser user), .ok found⟩ ∈ h) ∧
      ∃ reply before, h = ⟨.cache (.invalidate (Key.userPattern user)), reply⟩ :: before
  | _, _, _ => True

variable {issuer : Issuer} {o : Operation} {h : History}

open Service

/-! ## The issuer -/

namespace Issuer

theorem obeys_issue {kind : TokenKind} {user : UserId} {username : String} {time : Instant}
    (htold : h.Told time) {post : History → Except AuthError (String × Instant) → Prop}
    (next : ∀ (h' : History) (token : String) (expiresAt : Instant), h'.Extends h →
      h'.Issued issuer.config kind user token → post h' (.ok (token, expiresAt)))
    (fail : ∀ h' e, post h' (.error e)) :
    Obeys (conduct issuer o) post h (issuer.issue kind user username time) := by
  rw [issue, obeys_bind, obeys_lift]
  cases hdeadline : time.deadline? (issuer.config.lifetime kind) with
  | none =>
    rw [deadline, hdeadline]
    exact fail _ _
  | some expiresAt =>
    rw [deadline, hdeadline]
    dsimp only
    rw [obeys_bind, obeys_ask]
    refine ⟨trivial, fun tokenId => ?_⟩
    have hdrew : History.Extends (⟨.freshTokenId, tokenId⟩ :: h) h := History.Extends.step rfl
    exact next _ _ expiresAt hdrew ⟨username, time, expiresAt, tokenId, hdrew.mem htold,
      List.mem_cons_self .., hdeadline, rfl⟩

theorem obeys_issuePair {user : UserId} {username : String}
    {post : History → Except AuthError TokenPair → Prop}
    (next : ∀ (h' : History) (pair : TokenPair), h'.Extends h →
      h'.Issued issuer.config .access user pair.access →
      h'.Issued issuer.config .refresh user pair.refresh → post h' (.ok pair))
    (fail : ∀ h' e, post h' (.error e)) :
    Obeys (conduct issuer o) post h (issuer.issuePair user username) := by
  rw [issuePair, obeys_bind, obeys_now]
  refine ⟨trivial, fun time => ?_⟩
  have hnow : History.Extends (⟨.now, time⟩ :: h) h := History.Extends.step rfl
  dsimp only
  rw [obeys_bind]
  refine obeys_issue (List.mem_cons_self ..) (fun h' access accessExpiresAt hext haccess => ?_) fail
  dsimp only
  rw [obeys_bind]
  refine obeys_issue (hext.mem (List.mem_cons_self ..))
    (fun h'' refresh refreshExpiresAt hext' hrefresh => ?_) fail
  exact next h'' ⟨access, refresh, accessExpiresAt, refreshExpiresAt⟩
    (hext'.trans (hext.trans hnow)) (haccess.of_subset fun e => hext'.mem) hrefresh

theorem obeys_verify {kind : TokenKind} {token : String}
    {post : History → Except AuthError Claims → Prop}
    (next : ∀ (h' : History) (time : Instant) (claims : Claims), h'.Extends h → h'.Told time →
      issuer.config.verify kind time token = .ok claims → post h' (.ok claims))
    (fail : ∀ (h' : History) (time : Instant) e, h'.Told time →
      issuer.config.verify kind time token = .error e → post h' (.error e)) :
    Obeys (conduct issuer o) post h (issuer.verify kind token) := by
  rw [verify, obeys_bind, obeys_now]
  refine ⟨trivial, fun time => ?_⟩
  dsimp only
  rw [obeys_lift]
  cases hverify : issuer.config.verify kind time token with
  | error e => exact fail _ time e (List.mem_cons_self ..) hverify
  | ok claims =>
    exact next _ time claims (History.Extends.step rfl) (List.mem_cons_self ..) hverify

theorem obeys_revoke {token : String} {claims : Claims} (ho : o = .revoke token)
    (hpeek : issuer.config.peek token = .ok claims)
    {post : History → Except AuthError Unit → Prop}
    (next : ∀ h' : History, (issuer.reports = true → h'.Voided claims) → post h' (.ok ()))
    (fail : ∀ (h' : History) e, h'.Failed e → post h' (.error e)) :
    Obeys (conduct issuer o) post h (issuer.revoke claims.kind token) := by
  rw [revoke, obeys_bind, obeys_lift, hpeek]
  dsimp only
  split
  · next hkind => exact absurd rfl hkind
  · rw [obeys_bind, obeys_now]
    refine ⟨trivial, fun time => ?_⟩
    dsimp only
    split
    -- An expired token is passed over; any other one goes on record.
    · next hexpired =>
      exact next _ fun _ => Or.inl ⟨time, List.mem_cons_self .., hexpired⟩
    next hgood =>
    have hretires : o.Retires issuer claims.tokenId claims.expiresAt :=
      ⟨token, by simp [ho, Operation.retired], claims, hpeek, rfl, rfl⟩
    rw [obeys_bind, obeys_remember]
    refine ⟨⟨hretires, ⟨token, ho⟩, time, List.mem_cons_self .., hgood⟩, fun reply => ?_⟩
    dsimp only
    split
    · refine Blacklist.obeys_add hretires (fun h' _ hmem => ?_) fail
      exact next h' fun _ => Or.inr hmem
    · next hreports =>
      exact next _ fun hr => absurd hr hreports

end Issuer

/-! ## The facade -/

namespace Auth

theorem obeys_isRevoked {tokenId : String} {post : History → Except AuthError Bool → Prop}
    (found : ∀ h' : History, h'.Refused tokenId → post h' (.ok true))
    (clear : ∀ (h' : History) (time : Instant), h'.Extends h → h'.Told time →
      ⟨.revocation (.findActive tokenId time), .ok none⟩ ∈ h' → post h' (.ok false))
    (fail : ∀ (h' : History) e, h'.Failed e → post h' (.error e)) :
    Obeys (conduct issuer o) post h (isRevoked tokenId) := by
  rw [isRevoked, obeys_bind, obeys_isRemembered]
  refine ⟨trivial, fun remembered => ?_⟩
  dsimp only
  split
  · next hremembered =>
    subst hremembered
    exact found _ (Or.inl (List.mem_cons_self ..))
  · refine Blacklist.obeys_contains found (fun h' time hext htold hmem => ?_) fail
    exact clear h' time (hext.trans (History.Extends.step rfl)) htold hmem

theorem obeys_requireNotRevoked {claims : Claims} {post : History → Except AuthError Unit → Prop}
    (next : ∀ h' : History, h'.Extends h → h'.Cleared claims → post h' (.ok ()))
    (fail : ∀ (h' : History) e, h'.Denied claims e → post h' (.error e)) :
    Obeys (conduct issuer o) post h (requireNotRevoked claims) := by
  have hfail : ∀ (h' : History) e, h'.Failed e → post h' (.error e) :=
    fun h' e hfailed => fail h' e (Or.inl hfailed)
  rw [requireNotRevoked, obeys_bind]
  refine obeys_isRevoked (fun h' hrefused => fail h' _ (Or.inr ⟨rfl, Or.inl hrefused⟩))
    (fun h' time hext htold hmem => ?_) hfail
  dsimp only
  rw [if_neg Bool.false_ne_true, obeys_bind]
  refine Blacklist.obeys_isUserRevoked
    (fun h'' hcutoff => fail h'' _ (Or.inr ⟨rfl, Or.inr hcutoff⟩))
    (fun h'' cutoff hext' hfetch hrevokes => ?_)
    (fun h'' time' revokedBefore hext' htold' hfind hlater => ?_) hfail
  · exact next h'' (hext'.trans hext)
      ⟨⟨time, hext'.mem htold, hext'.mem hmem⟩, Or.inl ⟨cutoff, hfetch, hrevokes⟩⟩
  · exact next h'' (hext'.trans hext)
      ⟨⟨time, hext'.mem htold, hext'.mem hmem⟩,
        Or.inr ⟨time', revokedBefore, htold', hfind, hlater⟩⟩

theorem obeys_revokeOwned {user : UserId} {token : String} (htoken : token ∈ o.retired)
    {post : History → Except AuthError Unit → Prop}
    (next : ∀ h' : History, h'.Extends h →
      (∀ claims, issuer.config.peek token = .ok claims → claims.user = user → h'.Voided claims) →
      post h' (.ok ()))
    (fail : ∀ h' e, post h' (.error e)) :
    Obeys (conduct issuer o) post h (revokeOwned issuer user token) := by
  rw [revokeOwned]
  cases hpeek : issuer.config.peek token with
  | error e =>
    refine next h (History.Extends.refl h) fun claims hclaims => ?_
    rw [hpeek] at hclaims
    cases hclaims
  | ok found =>
    have hfound : ∀ claims, issuer.config.peek token = .ok claims → found = claims :=
      fun claims hclaims => Except.ok.inj (hpeek.symm.trans hclaims)
    dsimp only
    split
    · next hother =>
      refine next h (History.Extends.refl h) fun claims hclaims huser => absurd huser ?_
      exact hfound claims hclaims ▸ hother
    rw [obeys_bind, obeys_now]
    refine ⟨trivial, fun time => ?_⟩
    have hnow : History.Extends (⟨.now, time⟩ :: h) h := History.Extends.step rfl
    dsimp only
    split
    · next hexpired =>
      refine next _ hnow fun claims hclaims _ => Or.inl ⟨time, List.mem_cons_self .., ?_⟩
      exact hfound claims hclaims ▸ hexpired
    · refine Blacklist.obeys_add ⟨token, htoken, found, hpeek, rfl, rfl⟩
        (fun h' hext hmem => ?_) fun h' e _ => fail h' e
      refine next h' (hext.trans hnow) fun claims hclaims _ => Or.inr ?_
      exact hfound claims hclaims ▸ hmem

theorem obeys_login {username password : String} (htokenless : h.Tokenless) :
    Obeys (conduct issuer (.login username password))
      (Operation.Reason issuer (.login username password)) h
      (login issuer username password) := by
  rw [login, obeys_bind, obeys_user]
  refine ⟨trivial, fun reply => ?_⟩
  cases reply with
  | error e => exact trivial
  | ok user =>
    have huser (reply) : History.Extends (⟨.user (.verify username password), reply⟩ :: h) h :=
      History.Extends.step rfl
    dsimp only
    rw [obeys_bind]
    refine Issuer.obeys_issuePair (fun h' pair hext haccess hrefresh => ?_) fun _ _ => trivial
    dsimp only
    rw [obeys_bind]
    refine Sessions.obeys_create (hext.tokenless ((huser _).tokenless htokenless)) hrefresh
      ⟨username, password, rfl⟩ (fun h'' s hsub => ?_) fun _ _ => trivial
    dsimp only
    rw [obeys_bind, recordLogin, obeys_bind, obeys_now]
    refine ⟨trivial, fun time => ?_⟩
    dsimp only
    rw [obeys_bind, obeys_ask]
    refine ⟨trivial, fun written => ?_⟩
    -- The tokens were issued before the session was made and the login noted.
    have hsub' : ∀ e ∈ h', e ∈ (⟨.user (.update { user with lastLoginAt := some time }), written⟩ ::
        ⟨.now, time⟩ :: h'' : History) :=
      fun e he => List.mem_cons_of_mem _ (List.mem_cons_of_mem _ (hsub e he))
    exact ⟨haccess.of_subset hsub', hrefresh.of_subset hsub'⟩

theorem obeys_refresh {token : String} (htokenless : h.Tokenless) :
    Obeys (conduct issuer (.refresh token)) (Operation.Reason issuer (.refresh token)) h
      (refresh issuer token) := by
  rw [refresh, obeys_bind]
  -- The token is good by itself.
  refine Issuer.obeys_verify (fun h₁ time claims hext₁ _ hverify => ?_) fun _ _ _ _ _ => trivial
  have hpeek : issuer.config.peek token = .ok claims := (TokenConfig.verify_eq_ok_iff.1 hverify).1
  dsimp only
  rw [obeys_bind]
  -- Nothing speaks against it.
  refine obeys_requireNotRevoked (fun h₂ hext₂ hcleared => ?_) fun _ _ _ => trivial
  dsimp only
  rw [obeys_bind]
  -- A session holds it, for now.
  refine Sessions.obeys_getByToken fun h₃ result hext₃ => ?_
  cases result with
  | error e => exact trivial
  | ok found =>
    dsimp only
    split
    · exact trivial
    rw [obeys_bind]
    -- The new tokens are issued, and the old one goes on record before the row is written.
    refine Issuer.obeys_issuePair (fun h₄ pair hext₄ haccess hrefresh => ?_) fun _ _ => trivial
    dsimp only
    rw [obeys_bind]
    refine Blacklist.obeys_add ⟨token, List.mem_cons_self .., claims, hpeek, rfl, rfl⟩
      (fun h₅ hext₅ _ => ?_) fun _ _ _ => trivial
    dsimp only
    rw [obeys_bind, obeys_now]
    refine ⟨trivial, fun later => ?_⟩
    have hnow : History.Extends (⟨.now, later⟩ :: h₅) h₅ := History.Extends.step rfl
    have hext : History.Extends (⟨.now, later⟩ :: h₅) h₂ :=
      hnow.trans (hext₅.trans (hext₄.trans hext₃))
    dsimp only
    split
    -- The row is written only if it still holds the old token.
    · rw [obeys_bind]
      refine Sessions.obeys_rotate (hext.tokenless ((hext₂.trans hext₁).tokenless htokenless))
        (hrefresh.of_subset fun e => (hnow.trans hext₅).mem) rfl hpeek rfl
        (fun h₆ expiresAt hsub hmem => ?_) fun _ _ => trivial
      exact ⟨claims, expiresAt, hpeek,
        hcleared.of_subset fun e he => hsub e (hext.mem he),
        haccess.of_subset fun e he => hsub e ((hnow.trans hext₅).mem he),
        hrefresh.of_subset fun e he => hsub e ((hnow.trans hext₅).mem he), hmem⟩
    · exact trivial

theorem obeys_logout {user : UserId} {accessToken refreshToken : String} :
    Obeys (conduct issuer (.logout user accessToken refreshToken))
      (Operation.Reason issuer (.logout user accessToken refreshToken)) h
      (logout issuer user accessToken refreshToken) := by
  rw [logout, obeys_bind]
  refine obeys_revokeOwned (List.mem_cons_self ..) (fun h₁ _ haccess => ?_) fun _ _ => trivial
  dsimp only
  rw [obeys_bind]
  refine obeys_revokeOwned (List.mem_cons_of_mem _ (List.mem_cons_self ..))
    (fun h₂ hext₂ hrefresh => ?_) fun _ _ => trivial
  refine Sessions.obeys_delete (Or.inl ⟨accessToken, refreshToken, rfl⟩)
    (fun h₃ hext₃ hdeleted => ⟨?_, hdeleted⟩) fun _ _ => trivial
  rintro token (rfl | rfl) claims hpeek huser
  · exact (haccess claims hpeek huser).of_subset fun e he => hext₃.mem (hext₂.mem he)
  · exact (hrefresh claims hpeek huser).of_subset fun e => hext₃.mem

theorem obeys_verify {token : String} :
    Obeys (conduct issuer o) (Operation.Reason issuer (.verify token)) h
      (verify issuer token) := by
  rw [verify, obeys_bind]
  refine Issuer.obeys_verify (fun h₁ time claims _ htold hverify => ?_)
    fun h' time e htold hverify => Or.inl ⟨time, htold, hverify⟩
  have hpeek : issuer.config.peek token = .ok claims := (TokenConfig.verify_eq_ok_iff.1 hverify).1
  dsimp only
  rw [obeys_bind]
  refine obeys_requireNotRevoked (fun h₂ hext₂ hcleared => ?_)
    fun h' e hdenied => Or.inr ⟨claims, hpeek, hdenied⟩
  exact ⟨⟨time, hext₂.mem htold, hverify⟩, hcleared⟩

theorem obeys_revoke {token : String} :
    Obeys (conduct issuer (.revoke token)) (Operation.Reason issuer (.revoke token)) h
      (revoke issuer token) := by
  rw [revoke, obeys_bind, Issuer.peek, obeys_lift]
  cases hpeek : issuer.config.peek token with
  | error e => exact Or.inl hpeek
  | ok claims =>
    exact Issuer.obeys_revoke rfl hpeek
      (fun h' hvoided => ⟨claims, hpeek, hvoided⟩) fun _ _ hfailed => Or.inr hfailed

theorem obeys_revokeAll {user : UserId} :
    Obeys (conduct issuer (.revokeAll user)) (Operation.Reason issuer (.revokeAll user)) h
      (revokeAll issuer user) := by
  rw [revokeAll, obeys_bind, obeys_now]
  refine ⟨trivial, fun time => ?_⟩
  dsimp only
  rw [obeys_bind, obeys_lift, deadline]
  cases hdeadline : time.deadline? issuer.config.longestLifetime with
  | none => exact trivial
  | some expiresAt =>
    dsimp only
    rw [obeys_bind]
    -- The cutoff is written first, then the session goes, and at last the cache.
    refine Blacklist.obeys_revokeUser (List.mem_cons_self ..) rfl (fun h₁ hext₁ hcutoff => ?_)
      fun _ _ => trivial
    dsimp only
    rw [obeys_bind]
    refine Sessions.obeys_delete (Or.inr rfl) (fun h₂ hext₂ hdeleted => ?_) fun _ _ => trivial
    dsimp only
    rw [obeys_bind, obeys_cache]
    refine ⟨trivial, fun reply => ?_⟩
    obtain ⟨found, hfound⟩ := hdeleted
    have htold : h₂.Told time := hext₂.mem (hext₁.mem (List.mem_cons_self ..))
    exact ⟨time, expiresAt, List.mem_cons_of_mem _ htold, hdeadline,
      List.mem_cons_of_mem _ (hext₂.mem hcutoff), ⟨found, List.mem_cons_of_mem _ hfound⟩,
      reply, h₂, rfl⟩

theorem obeys_holdsToken {user : UserId} {token : String}
    {post : History → Except AuthError Bool → Prop} (next : ∀ h' result, post h' result) :
    Obeys (conduct issuer o) post h (holdsToken user token) := by
  rw [holdsToken, obeys_bind, obeys_attempt]
  refine Sessions.obeys_get fun h₁ found => ?_
  dsimp only
  split
  · split
    · exact next _ _
    · rw [obeys_bind, obeys_attempt]
      refine Sessions.obeys_getByToken fun h₂ byToken _ => ?_
      dsimp only
      split <;> exact next _ _
  all_goals exact next _ _

end Auth

theorem Janitor.obeys_tick {post : History → Except AuthError PurgeReport → Prop}
    (next : ∀ h' result, post h' result) :
    Obeys (conduct issuer .tidy) post h Janitor.tick := by
  rw [tick, obeys_bind, Sessions.purge, obeys_bind, obeys_now]
  refine ⟨trivial, fun time => ?_⟩
  refine (obeys_session (.deleteExpired time) _).2 ?_
  refine ⟨⟨List.mem_cons_self .., rfl⟩, fun sessions => ?_⟩
  cases sessions with
  | error e => exact next _ _
  | ok sessions =>
    dsimp only
    rw [obeys_bind, Blacklist.purge, obeys_bind, obeys_now]
    refine ⟨trivial, fun later => ?_⟩
    refine (obeys_revocation (.deleteExpired later) _).2
      ⟨⟨List.mem_cons_self .., rfl⟩, fun revocations => ?_⟩
    cases revocations <;> exact next _ _

/-- Every operation keeps the rules of conduct, and succeeds for a reason. -/
theorem Operation.obeys (issuer : Issuer) (o : Operation) :
    Obeys (conduct issuer o) (o.Reason issuer) [] (o.service issuer) := by
  cases o with
  | login username password => exact Auth.obeys_login History.tokenless_nil
  | refresh token => exact Auth.obeys_refresh History.tokenless_nil
  | logout user accessToken refreshToken => exact Auth.obeys_logout
  | verify token => exact Auth.obeys_verify
  | revoke token => exact Auth.obeys_revoke
  | revokeAll user => exact Auth.obeys_revokeAll
  | session user => exact Sessions.obeys_get fun _ _ => trivial
  | holdsToken user token => exact Auth.obeys_holdsToken fun _ _ => trivial
  | isRevoked tokenId =>
    exact Auth.obeys_isRevoked (fun _ _ => trivial) (fun _ _ _ _ _ => trivial) fun _ _ _ => trivial
  | tidy => exact Janitor.obeys_tick fun _ _ => trivial

end Bearer
