/-
  Pairs of tokens read back.

  A pair is issued whenever the calendar reaches the expiry of its refresh
  token.  Whoever has the settings then reads in each token, at any time, whom
  it was issued for and for what, with its times rounded down to what tokens
  state: the issue to the millisecond, the expiry to the second.  Whether the
  token is accepted is decided by its claims alone: until the last of its
  seconds it is good for its own kind and for no other, and from then on it has
  expired for all of them.

  Main statements: `verify_of_peek` and `issuePair_reads`.
-/
import Bearer.Proofs.Fleet.Issue

namespace Bearer

/-- When the token of a kind in a pair expires. -/
def TokenPair.expiresAt (pair : TokenPair) : TokenKind → Instant
  | .access => pair.accessExpiresAt
  | .refresh => pair.refreshExpiresAt

/-- What a token states that is issued under an id at a time and expires at another: both times
rounded down. -/
def Claims.issued (kind : TokenKind) (user : UserId) (username tokenId : String)
    (time expiresAt : Instant) : Claims where
  user
  username
  tokenId
  kind
  issuedAt := time.floorMilli
  expiresAt := expiresAt.floorSecond

/-- The verdict on a token that states these claims, asked for a kind at a time. -/
def Claims.verdict (claims : Claims) (kind : TokenKind) (now : Instant) : Except AuthError Claims :=
  if claims.expiresAt.second < now.second then .error .tokenExpired
  else if claims.kind = kind then .ok claims
  else .error .tokenInvalid

namespace TokenConfig

variable {c : TokenConfig} {kind : TokenKind} {token : String} {claims : Claims}

/-- What can be read is judged by its claims alone, expiry before kind. -/
theorem verify_of_peek (h : c.peek token = .ok claims) (kind : TokenKind) (now : Instant) :
    c.verify kind now token = claims.verdict kind now := by
  obtain ⟨p, hp, hexpiry, -, howner, hclaims⟩ := decode_eq_ok_iff.1 h
  have hsecond := (second_expiresAt hclaims).1
  unfold Claims.verdict
  split
  · next hlate =>
    -- The decoder looks at the expiry first.
    have hexpired : c.decode (some now) token = .error .tokenExpired := by
      rw [hsecond] at hlate
      simp only [decode, hp, bind, Except.bind]
      rw [if_neg (by omega), if_pos (by simpa using hlate)]
      rfl
    rw [verify, hexpired]
    rfl
  · next hgood =>
    have hdecoded : c.decode (some now) token = .ok claims :=
      decode_some_eq_ok_iff.2 ⟨h, by omega⟩
    simp only [verify, hdecoded, bind, Except.bind]
    by_cases hkind : claims.kind = kind
    · rw [if_neg (not_not_intro hkind), if_pos hkind]
      rfl
    · rw [if_pos hkind, if_neg hkind]
      rfl

/-- What a minted token states, read by its issuer. -/
theorem peek_mint_payload (c : TokenConfig) (kind : TokenKind) (user : UserId) (username : String)
    (tokenId : String) {now expiresAt : Instant} (hplain : now.Plain)
    (hpos : 0 ≤ expiresAt.second) :
    c.peek (c.mint (c.payload kind user username now expiresAt tokenId)) =
      .ok (.issued kind user username tokenId now expiresAt) :=
  peek_mint c kind user username tokenId (Instant.ofMillis?_eq_floorMilli hplain)
    (Instant.ofSeconds?_second expiresAt) hpos

/-- Settings that make sense: access tokens live, and refresh tokens live longer. -/
theorem lifetimes_of_validate (h : c.validate = .ok ()) :
    c.accessLifetime.isZero = false ∧ c.accessLifetime < c.refreshLifetime := by
  unfold validate at h
  split at h
  · cases h
  split at h
  · cases h
  next hzero =>
  split at h
  · cases h
  next hshort =>
  rw [Duration.le_def] at hshort
  exact ⟨by simpa using hzero, by rw [Duration.lt_def]; omega⟩

/-- With settings in order, the calendar reaches the expiry of an access token if it reaches the one
of a refresh token. -/
theorem deadlines_of_validate (h : c.validate = .ok ()) {now : Instant}
    (hfits : (now.deadline? c.refreshLifetime).isSome) (kind : TokenKind) :
    (now.deadline? (c.lifetime kind)).isSome := by
  cases kind with
  | access =>
    have hshorter : c.accessLifetime ≤ c.refreshLifetime := Nat.le_of_lt (lifetimes_of_validate h).2
    exact Instant.deadline?_isSome_of_le hshorter hfits
  | refresh => exact hfits

end TokenConfig

namespace Fleet

variable {n : Nat} {f : MemoryFleet n} {i : Fin n} {issuer : Issuer}

theorem perform_peek (f : MemoryFleet n) (i : Fin n) (issuer : Issuer) (token : String) :
    f.perform i (issuer.peek token) = (issuer.config.peek token, f) := by
  show f.perform i (liftM (issuer.config.peek token) : Service Claims) = _
  cases issuer.config.peek token <;> rfl

/-- One token is issued if the calendar reaches its expiry. -/
theorem perform_issue {kind : TokenKind} {time expiresAt : Instant} (user : UserId)
    (username : String) (h : time.deadline? (issuer.config.lifetime kind) = some expiresAt) :
    f.perform i (issuer.issue kind user username time) =
      (.ok (issuer.config.mint (issuer.config.payload kind user username time expiresAt
        (f.ids.id (f.minted + 1))), expiresAt), { f with minted := f.minted + 1 }) := by
  have hdeadline : Service.deadline time (issuer.config.lifetime kind) = .ok expiresAt := by
    rw [Service.deadline, h]
  rw [Issuer.issue, hdeadline]
  rfl

/-- A pair is issued if the calendar reaches the expiry of both tokens. -/
theorem perform_issuePair (user : UserId) (username : String)
    (h : ∀ kind, (f.wall.deadline? (issuer.config.lifetime kind)).isSome) :
    ∃ pair, f.perform i (issuer.issuePair user username) =
        (.ok pair, { f with minted := f.minted + 2 }) ∧
      ∀ kind, f.wall.deadline? (issuer.config.lifetime kind) = some (pair.expiresAt kind) ∧
        pair.token kind = issuer.config.mint (issuer.config.payload kind user username f.wall
          (pair.expiresAt kind) (f.ids.id (f.minted + kind.turn))) := by
  obtain ⟨accessExpiry, haccess⟩ := Option.isSome_iff_exists.1 (h .access)
  obtain ⟨refreshExpiry, hrefresh⟩ := Option.isSome_iff_exists.1 (h .refresh)
  have hnow : f.perform i Service.now = (.ok f.wall, f) := rfl
  rw [Issuer.issuePair, perform_bind, hnow]
  dsimp only
  rw [perform_bind, perform_issue user username haccess]
  dsimp only
  rw [perform_bind, perform_issue user username hrefresh]
  refine ⟨_, rfl, fun kind => ?_⟩
  cases kind with
  | access => exact ⟨haccess, rfl⟩
  | refresh => exact ⟨hrefresh, rfl⟩

/-- A pair that settings in order issue at any time from 1970 on reads back as it was issued: its
expiries are the deadlines, one after the other, and at every time every instance with these
settings reads the same claims in a token and judges it by them. -/
theorem issuePair_reads (f : MemoryFleet n) (i : Fin n) (issuer : Issuer) (user : UserId)
    (username : String) (hvalid : issuer.config.validate = .ok ()) (hplain : f.wall.Plain)
    (hepoch : .epoch ≤ f.wall)
    (hfits : (f.wall.deadline? issuer.config.refreshLifetime).isSome) :
    ∃ pair, (f.perform i (issuer.issuePair user username)).1 = .ok pair ∧
      f.wall < pair.accessExpiresAt ∧ pair.accessExpiresAt < pair.refreshExpiresAt ∧
      ∀ kind, ∃ claims : Claims,
        (claims.user = user ∧ claims.username = username ∧ claims.kind = kind ∧
          claims.issuedAt = f.wall.floorMilli ∧
          f.wall.deadline? (issuer.config.lifetime kind) = some (pair.expiresAt kind) ∧
          claims.expiresAt = (pair.expiresAt kind).floorSecond) ∧
        (claims.expiresAt ≤ pair.expiresAt kind ∧
          (pair.expiresAt kind).sinceEpoch < claims.expiresAt.sinceEpoch + 1000000000) ∧
        ∀ (m : Nat) (g : MemoryFleet m) (j : Fin m),
          (g.perform j (issuer.peek (pair.token kind))).1 = .ok claims ∧
          ∀ asked, (g.perform j (issuer.verify asked (pair.token kind))).1 =
            if (pair.expiresAt kind).second < g.wall.second then .error .tokenExpired
            else if kind = asked then .ok claims
            else .error .tokenInvalid := by
  obtain ⟨hpos, hlonger⟩ := TokenConfig.lifetimes_of_validate hvalid
  obtain ⟨pair, hissue, htokens⟩ := perform_issuePair user username
    (TokenConfig.deadlines_of_validate hvalid hfits) (f := f) (i := i)
  have haccess : f.wall.deadline? issuer.config.accessLifetime = some pair.accessExpiresAt :=
    (htokens .access).1
  have hrefresh : f.wall.deadline? issuer.config.refreshLifetime = some pair.refreshExpiresAt :=
    (htokens .refresh).1
  refine ⟨pair, by rw [hissue], Instant.lt_deadline hplain hpos haccess,
    Instant.deadline_lt_deadline hlonger haccess hrefresh, fun kind => ?_⟩
  obtain ⟨hdeadline, htoken⟩ := htokens kind
  -- The expiry lies past the epoch, so the token is no token without an expiry.
  have hpast : 0 ≤ (pair.expiresAt kind).second :=
    Instant.second_le (Instant.le_trans hepoch (Instant.le_deadline hdeadline))
  have hpeek := TokenConfig.peek_mint_payload issuer.config kind user username
    (f.ids.id (f.minted + kind.turn)) hplain hpast
  rw [← htoken] at hpeek
  refine ⟨.issued kind user username (f.ids.id (f.minted + kind.turn)) f.wall (pair.expiresAt kind),
    ⟨rfl, rfl, rfl, rfl, hdeadline, rfl⟩, ⟨?_, ?_⟩, fun m g j => ⟨?_, fun asked => ?_⟩⟩
  · exact Instant.floorSecond_le _
  · exact Instant.sinceEpoch_lt_floorSecond (Instant.plain_deadline hdeadline)
  · rw [perform_peek, hpeek]
  · rw [perform_verify, TokenConfig.verify_of_peek hpeek]
    rfl

open Demo

/-- At the start of 1970 the demo issuer issues such a pair, whose refresh token is good at the
other instance. -/
theorem issuePair_reads_demo :
    ∃ pair, (demo.perform 0 (demoIssuer.issuePair demoUser "demo")).1 = .ok pair ∧
      pair.accessExpiresAt < pair.refreshExpiresAt ∧
      ∃ claims, claims.user = demoUser ∧
        (demo.perform 1 (demoIssuer.verify .refresh pair.refresh)).1 = .ok claims := by
  obtain ⟨pair, hissued, hlater, hlonger, hreads⟩ :=
    issuePair_reads demo 0 demoIssuer demoUser "demo" (by decide) (by decide) (by decide)
      (by decide)
  obtain ⟨claims, ⟨huser, -⟩, -, hread⟩ := hreads .refresh
  have hgood : ¬ (pair.expiresAt .refresh).second < demo.wall.second := by
    have hle : demo.wall.second ≤ (pair.expiresAt .refresh).second :=
      Instant.second_le (Instant.le_trans (Instant.le_of_lt hlater) (Instant.le_of_lt hlonger))
    omega
  have hverdict := (hread 2 demo 1).2 .refresh
  rw [if_neg hgood, if_pos rfl] at hverdict
  exact ⟨pair, hissued, hlonger, claims, huser, hverdict⟩

end Fleet

end Bearer
