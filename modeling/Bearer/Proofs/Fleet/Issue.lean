/-
  What a fleet has issued.

  A token is minted at a time that the wall clock shows and under an id that is
  drawn, so both lie behind when the token is there.  What a login hands out has
  been minted so.

  As ids are drawn once, no two tokens of a run that are handed out share theirs.
  A session only ever holds a token that was minted for its user.

  Main statements: `execute_issued`, `minted_of_login`, `HandedOut.unique` and
  `Fresh.rightful`.
-/
import Bearer.Proofs.Fleet.Perform
import Bearer.Proofs.Fleet.Start

namespace Bearer

/-- Which token of a pair is minted when. -/
def TokenKind.turn : TokenKind → Nat
  | access => 1
  | refresh => 2

theorem TokenKind.turn_injective {k k' : TokenKind} (h : k.turn = k'.turn) : k = k' := by
  cases k <;> cases k' <;> first | rfl | cases h

/-- The token of a kind in a pair. -/
def TokenPair.token (pair : TokenPair) : TokenKind → String
  | .access => pair.access
  | .refresh => pair.refresh

namespace Fleet

variable {n : Nat} {f : MemoryFleet n} {i : Fin n} {o : Operation} {config : TokenConfig}
variable {kind : TokenKind} {user : UserId} {token : String}

/-- Whether a token of a kind has been minted for a user by now, with some settings. -/
def Minted (f : MemoryFleet n) (config : TokenConfig) (kind : TokenKind) (user : UserId)
    (token : String) : Prop :=
  ∃ username time expiresAt tokenId, time.Plain ∧ time ≤ f.wall ∧ f.HasDrawn tokenId ∧
    time.deadline? (config.lifetime kind) = some expiresAt ∧
    token = config.mint (config.payload kind user username time expiresAt tokenId)

/-- Whether a token states an id that has been drawn. -/
def Drawn (f : MemoryFleet n) (token : String) : Prop :=
  ∃ config payload, Token.Payload.InRange payload ∧ f.HasDrawn payload.tokenId ∧
    token = TokenConfig.mint config payload

/-- Whether every token that a session holds states an id that has been drawn. -/
def AllDrawn (f : MemoryFleet n) : Prop :=
  ∀ user row, f.origin.sessions.rows.get? user = some row → f.Drawn row.refreshToken

theorem Minted.drawn (hm : f.Minted config kind user token) : f.Drawn token := by
  obtain ⟨username, time, expiresAt, tokenId, -, -, hid, -, rfl⟩ := hm
  exact ⟨config, _, TokenConfig.inRange_payload .., hid, rfl⟩

theorem Drawn.mono {g : MemoryFleet n} (h : f.Drawn token) (hg : f.Onward g) : g.Drawn token := by
  obtain ⟨config, payload, hrange, hid, htoken⟩ := h
  exact ⟨config, payload, hrange, hid.mono hg, htoken⟩

/-- Whether a token states no id that is still to be drawn. -/
def Unforeseen (f : MemoryFleet n) (token : String) : Prop :=
  ∀ config payload number, Token.Payload.InRange payload → payload.tokenId = f.ids.id number →
    token = TokenConfig.mint config payload → number ≤ f.minted

theorem Drawn.unforeseen (h : f.Drawn token) : f.Unforeseen token := by
  obtain ⟨config, payload, hrange, hid, rfl⟩ := h
  intro config' payload' number hrange' hid' hsame
  obtain rfl := TokenConfig.mint_injective hrange hrange' hsame
  rw [hid'] at hid
  exact hasDrawn_id_iff.1 hid

theorem Unforeseen.mono {g : MemoryFleet n} (h : f.Unforeseen token) (hg : f.Onward g) :
    g.Unforeseen token := by
  intro config payload number hrange hid hsame
  rw [hg.ids] at hid
  exact Nat.le_trans (h config payload number hrange hid hsame) hg.minted

/-! ## The number of ids drawn -/

theorem play_onward (f : MemoryFleet n) (moves : List (Move n)) : f.Onward (f.play moves) :=
  play_keeps (P := f.Onward) (fun g i r hg => hg.trans (answer_onward g i r))
    (fun g e hg => hg.trans (happen_onward g e)) (.refl f) moves

/-- Whether all ids that a history has drawn have been counted. -/
def Counts (f : MemoryFleet n) (h : History) : Prop :=
  ∀ tokenId, h.Drew tokenId → f.HasDrawn tokenId

theorem counts_nil (f : MemoryFleet n) : f.Counts [] := by
  rintro tokenId hid
  cases hid

/-- An id is counted as it is drawn. -/
theorem Counts.answer {h : History} (hf : f.Counts h) (i : Fin n) (r : Request) :
    (answer i r f).2.Counts (⟨r, (answer i r f).1⟩ :: h) := by
  intro tokenId hid
  rcases List.mem_cons.1 hid with heq | hid
  · cases heq
    exact ⟨f.minted + 1, Nat.le_refl _, rfl⟩
  · exact (hf tokenId hid).mono (answer_onward f i r)

/-- What a token says that has been minted. -/
theorem Minted.of_peek (h : f.Minted config kind user token) {c : TokenConfig} {claims : Claims}
    (hpeek : c.peek token = .ok claims) :
    claims.user = user ∧ claims.issuedAt ≤ f.wall ∧
      ∃ time expiresAt, time.Plain ∧ time ≤ f.wall ∧
        time.deadline? (config.lifetime kind) = some expiresAt ∧
        claims.expiresAt.second = expiresAt.second := by
  obtain ⟨username, time, expiresAt, tokenId, hplain, htime, -, hdeadline, rfl⟩ := h
  obtain ⟨huser, -, -, -, -, hexpires⟩ := TokenConfig.stated_of_decode_mint hpeek
  have hissued := TokenConfig.issuedAt_le_of_decode_mint hplain hpeek
  exact ⟨huser, Instant.le_trans hissued htime, time, expiresAt, hplain, htime, hdeadline, hexpires⟩

/-! ## What operations hand out -/

/-- An operation has an answer for a reason, and what it has issued is minted at its end. -/
theorem execute_issued (hplain : f.wall.Plain) (i : Fin n) (o : Operation) :
    ∃ h : History, o.Reason (f.issuer i) h (f.execute i o).1 ∧
      ∀ config kind user token, h.Issued config kind user token →
        (f.execute i o).2.Minted config kind user token := by
  have hobeys := Operation.obeys (f.issuer i) o
  -- Times shown are the wall clock's, and ids drawn are numbers up to the count.
  have hrun := perform_of (fun h g => g.Counts h ∧ g.wall = f.wall) (fun _ => True) hobeys
    (fun hg hwall _ _ _ _ => ⟨hg.1.answer i _, (answer_wall _ i _).trans hwall⟩)
    ⟨counts_nil f, rfl⟩ (fun _ _ => trivial)
  · obtain ⟨⟨hdrew, hwall⟩, htold, hreason⟩ := hrun
    refine ⟨_, hreason, ?_⟩
    rintro config kind user token ⟨username, time, expiresAt, tokenId, hnow, hid, hdeadline, rfl⟩
    obtain rfl := htold time hnow
    exact ⟨username, f.wall, expiresAt, tokenId, hplain, hwall ▸ Instant.le_refl _,
      hdrew tokenId hid, hdeadline, rfl⟩

/-- A login hands out tokens minted for the user. -/
theorem minted_of_login (hplain : f.wall.Plain) {username password : String} {found : User}
    {pair : TokenPair} (hok : (f.execute i (.login username password)).1 = .ok (found, pair)) :
    let g := (f.execute i (.login username password)).2
    g.Minted (f.issuer i).config .access found.id pair.access ∧
      g.Minted (f.issuer i).config .refresh found.id pair.refresh := by
  obtain ⟨h, hreason, hissued⟩ := execute_issued hplain i (.login username password)
  rw [hok] at hreason
  exact ⟨hissued _ _ _ _ hreason.1, hissued _ _ _ _ hreason.2⟩

/-! ## Tokens and their ids -/

/-- Whether an operation hands out a pair of tokens to a user. -/
inductive HandsOut (f : MemoryFleet n) (i : Fin n) : Operation → UserId → TokenPair → Prop
  | login {username password : String} {found : User} {pair : TokenPair}
      (hok : (f.execute i (.login username password)).1 = .ok (found, pair)) :
      HandsOut f i (.login username password) found.id pair
  | refresh {old : String} {claims : Claims} {pair : TokenPair}
      (hpeek : (f.issuer i).config.peek old = .ok claims)
      (hok : (f.execute i (.refresh old)).1 = .ok pair) :
      HandsOut f i (.refresh old) claims.user pair

/-- Whether an operation of a run hands out a token. -/
def HandedOut (f : MemoryFleet n) (moves : List (Move n)) (token : String) : Prop :=
  ∃ g i o user pair kind, f.Executes moves g i o ∧ g.HandsOut i o user pair ∧
    token = pair.token kind

theorem HandsOut.pair_eq {user' : UserId} {pair pair' : TokenPair}
    (h : f.HandsOut i o user pair) (h' : f.HandsOut i o user' pair') : pair = pair' := by
  cases h with
  | login hok =>
    cases h' with
    | login hok' =>
      exact congrArg Prod.snd (Except.ok.inj (hok.symm.trans hok'))
  | refresh hpeek hok =>
    cases h' with
    | refresh hpeek' hok' => exact Except.ok.inj (hok.symm.trans hok')

/-- A token is minted under the next id. -/
theorem mint_of_issue {issuer : Issuer} {username : String} {time expiresAt : Instant}
    {g : MemoryFleet n}
    (hok : f.perform i (issuer.issue kind user username time) = (.ok (token, expiresAt), g)) :
    g = { f with minted := f.minted + 1 } ∧ token = issuer.config.mint
      (issuer.config.payload kind user username time expiresAt (f.ids.id (f.minted + 1))) := by
  obtain ⟨last, f₁, hdeadline, hok⟩ := ok_of_bind hok
  obtain rfl : f = f₁ := by
    cases hd : Service.deadline time (issuer.config.lifetime kind) with
    | ok _ =>
      rw [hd] at hdeadline
      exact (Prod.mk.inj hdeadline).2
    | error e =>
      rw [hd] at hdeadline
      cases (Prod.mk.inj hdeadline).1
  obtain ⟨tokenId, f₂, hdraw, hok⟩ := ok_of_bind hok
  obtain ⟨hid, rfl⟩ := Prod.mk.inj hdraw
  obtain rfl := Except.ok.inj hid
  obtain ⟨hpair, rfl⟩ := Prod.mk.inj hok
  obtain ⟨rfl, rfl⟩ := Prod.mk.inj (Except.ok.inj hpair)
  exact ⟨rfl, rfl⟩

/-- The tokens of a pair are minted at the time that the wall clock shows, one after the other. -/
theorem mint_of_issuePair {issuer : Issuer} {username : String} {pair : TokenPair}
    {g : MemoryFleet n} (hok : f.perform i (issuer.issuePair user username) = (.ok pair, g)) :
    g = { f with minted := f.minted + 2 } ∧
      ∀ kind, ∃ expiresAt, pair.token kind = issuer.config.mint
        (issuer.config.payload kind user username f.wall expiresAt
          (f.ids.id (f.minted + kind.turn))) := by
  obtain ⟨time, f₁, hnow, hok⟩ := ok_of_bind hok
  obtain ⟨htime, rfl⟩ := Prod.mk.inj hnow
  obtain rfl := Except.ok.inj htime
  obtain ⟨⟨access, accessExpiresAt⟩, f₂, haccess, hok⟩ := ok_of_bind hok
  obtain ⟨⟨refresh, refreshExpiresAt⟩, f₃, hrefresh, hok⟩ := ok_of_bind hok
  obtain ⟨rfl, hfirst⟩ := mint_of_issue haccess
  obtain ⟨rfl, hsecond⟩ := mint_of_issue hrefresh
  obtain ⟨hpair, rfl⟩ := Prod.mk.inj hok
  obtain rfl := Except.ok.inj hpair
  refine ⟨rfl, fun kind => ?_⟩
  cases kind with
  | access => exact ⟨accessExpiresAt, hfirst⟩
  | refresh => exact ⟨refreshExpiresAt, hsecond⟩

theorem wall_of_perform {α : Type} {s : Service α} {result : Except AuthError α}
    {g : MemoryFleet n} (h : f.perform i s = (result, g)) : g.wall = f.wall := by
  rw [← perform_wall f i s, h]

theorem onward_of_perform {α : Type} {s : Service α} {result : Except AuthError α}
    {g : MemoryFleet n} (h : f.perform i s = (result, g)) : f.Onward g := by
  have honward := perform_onward f i s
  rwa [h] at honward

/-- What is verified is what the token states. -/
theorem peek_of_verify {issuer : Issuer} {claims : Claims} {g : MemoryFleet n}
    (hok : f.perform i (issuer.verify kind token) = (.ok claims, g)) :
    issuer.config.peek token = .ok claims := by
  obtain ⟨time, f₁, -, hverify⟩ := ok_of_bind hok
  cases hv : issuer.config.verify kind time token with
  | ok stated =>
    rw [hv] at hverify
    obtain rfl := Except.ok.inj (Prod.mk.inj hverify).1
    exact (TokenConfig.verify_eq_ok_iff.1 hv).1
  | error e =>
    rw [hv] at hverify
    cases (Prod.mk.inj hverify).1

/-- What a token is redeemed for is minted then. -/
theorem mint_of_redeem {issuer : Issuer} {claims : Claims} {pair : TokenPair} {g : MemoryFleet n}
    (hok : f.perform i (redeem issuer claims token) = (.ok pair, g)) :
    f.minted + 2 ≤ g.minted ∧ ∀ kind, ∃ expiresAt, pair.token kind = issuer.config.mint
      (issuer.config.payload kind claims.user claims.username f.wall expiresAt
        (f.ids.id (f.minted + kind.turn))) := by
  obtain ⟨issued, f₁, hissue, hok⟩ := ok_of_bind hok
  obtain ⟨rfl, htokens⟩ := mint_of_issuePair hissue
  obtain ⟨_, f₂, hadd, hok⟩ := ok_of_bind hok
  obtain ⟨time, f₃, hnow, hok⟩ := ok_of_bind hok
  obtain rfl : issued = pair := by
    split at hok
    · obtain ⟨_, _, -, hok⟩ := ok_of_bind hok
      exact Except.ok.inj (Prod.mk.inj hok).1
    · cases (Prod.mk.inj hok).1
  have honward := (onward_of_perform hadd).trans
    ((onward_of_perform hnow).trans (onward_of_perform hok))
  exact ⟨honward.minted, htokens⟩

/-- What an operation hands out is minted in it. -/
theorem HandsOut.mint {pair : TokenPair} (h : f.HandsOut i o user pair) :
    ∃ username first, f.minted ≤ first ∧ first + 2 ≤ (f.execute i o).2.minted ∧
      ∀ kind, ∃ expiresAt, pair.token kind = (f.issuer i).config.mint
        ((f.issuer i).config.payload kind user username f.wall expiresAt
          (f.ids.id (first + kind.turn))) := by
  cases h with
  | @login username password found pair hok =>
    have hlogin : f.perform i (Auth.login (f.issuer i) username password) =
        (.ok (found, pair), (f.execute i (.login username password)).2) := Prod.ext hok rfl
    obtain ⟨user, f₁, hverify, hlogin⟩ := ok_of_bind hlogin
    obtain ⟨issued, f₂, hissue, hlogin⟩ := ok_of_bind hlogin
    obtain ⟨session, f₃, hcreate, hlogin⟩ := ok_of_bind hlogin
    obtain ⟨recorded, f₄, hrecord, hlogin⟩ := ok_of_bind hlogin
    obtain ⟨hanswer, hend⟩ := Prod.mk.inj hlogin
    obtain ⟨rfl, rfl⟩ := Prod.mk.inj (Except.ok.inj hanswer)
    have hid : recorded.id = user.id := by
      obtain ⟨time, f₅, -, hrecord⟩ := ok_of_bind hrecord
      obtain ⟨reply, f₆, -, hrecord⟩ := ok_of_bind hrecord
      rw [← Except.ok.inj (Prod.mk.inj hrecord).1]
    obtain ⟨rfl, htokens⟩ := mint_of_issuePair hissue
    have hbefore := onward_of_perform hverify
    refine ⟨user.username, f₁.minted, hbefore.minted, ?_, fun kind => ?_⟩
    · rw [← hend]
      exact ((onward_of_perform hcreate).trans (onward_of_perform hrecord)).minted
    · rw [hid, ← wall_of_perform hverify, ← hbefore.ids]
      exact htokens kind
  | @refresh old claims pair hpeek hok =>
    have hrefresh : f.perform i (Auth.refresh (f.issuer i) old) =
        (.ok pair, (f.execute i (.refresh old)).2) := Prod.ext hok rfl
    rw [refresh_eq_redeem] at hrefresh
    obtain ⟨found, f₁, hverify, hrefresh⟩ := ok_of_bind hrefresh
    obtain ⟨_, f₂, hclear, hrefresh⟩ := ok_of_bind hrefresh
    obtain ⟨session, f₃, hsession, hrefresh⟩ := ok_of_bind hrefresh
    obtain rfl : claims = found := Except.ok.inj (hpeek.symm.trans (peek_of_verify hverify))
    dsimp only at hrefresh
    split at hrefresh
    · obtain ⟨_, _, hthrow, -⟩ := ok_of_bind hrefresh
      cases (Prod.mk.inj hthrow).1
    obtain ⟨hend, htokens⟩ := mint_of_redeem hrefresh
    have hwall : f₃.wall = f.wall := by
      rw [wall_of_perform hsession, wall_of_perform hclear, wall_of_perform hverify]
    have hbefore := (onward_of_perform hverify).trans
      ((onward_of_perform hclear).trans (onward_of_perform hsession))
    refine ⟨claims.username, f₃.minted, hbefore.minted, hend, fun kind => ?_⟩
    rw [← hwall, ← hbefore.ids]
    exact htokens kind

theorem Executes.ids {f₀ : MemoryFleet n} {moves : List (Move n)}
    (h : f₀.Executes moves f i o) : f.ids = f₀.ids := by
  obtain ⟨before, after, -, rfl⟩ := h
  exact (play_onward f₀ before).ids

/-- Of two operations of a run, one comes first, and the other one draws later ids. -/
theorem Executes.order {f₀ g : MemoryFleet n} {moves : List (Move n)} {j : Fin n} {o' : Operation}
    (h : f₀.Executes moves f i o) (h' : f₀.Executes moves g j o') :
    (f = g ∧ i = j ∧ o = o') ∨ (f.execute i o).2.minted ≤ g.minted ∨
      (g.execute j o').2.minted ≤ f.minted := by
  obtain ⟨before, after, hmoves, rfl⟩ := h
  obtain ⟨before', after', hmoves', rfl⟩ := h'
  rw [hmoves] at hmoves'
  -- The longer of what comes before goes past the other operation.
  rcases List.append_eq_append_iff.1 hmoves' with ⟨between, rfl, hrest⟩ | ⟨between, rfl, hrest⟩
  · cases between with
    | nil =>
      obtain ⟨hmove, -⟩ := List.cons.inj hrest
      obtain ⟨rfl, rfl⟩ := Move.execute.inj hmove
      exact Or.inl ⟨by rw [List.append_nil], rfl, rfl⟩
    | cons m between =>
      obtain ⟨rfl, -⟩ := List.cons.inj hrest
      refine Or.inr (Or.inl ?_)
      rw [play_append]
      exact (play_onward _ between).minted
  · cases between with
    | nil =>
      obtain ⟨hmove, -⟩ := List.cons.inj hrest
      obtain ⟨rfl, rfl⟩ := Move.execute.inj hmove
      exact Or.inl ⟨by rw [List.append_nil], rfl, rfl⟩
    | cons m between =>
      obtain ⟨rfl, -⟩ := List.cons.inj hrest
      refine Or.inr (Or.inr ?_)
      rw [play_append]
      exact (play_onward _ between).minted

/-- Two tokens that a run hands out are the same if they state the same id. -/
theorem HandedOut.unique {moves : List (Move n)} {token' : String} {claims claims' : Claims}
    (h : f.HandedOut moves token) (h' : f.HandedOut moves token') {config' : TokenConfig}
    (hpeek : config.peek token = .ok claims) (hpeek' : config'.peek token' = .ok claims')
    (hid : claims.tokenId = claims'.tokenId) : token = token' := by
  obtain ⟨g, i, o, user, pair, kind, hexec, hout, rfl⟩ := h
  obtain ⟨g', i', o', user', pair', kind', hexec', hout', rfl⟩ := h'
  obtain ⟨username, first, hfirst, hlast, hminted⟩ := hout.mint
  obtain ⟨username', first', hfirst', hlast', hminted'⟩ := hout'.mint
  rw [hexec.ids] at hminted
  rw [hexec'.ids] at hminted'
  -- What a token states names the draw of its id.
  have hstated : ∀ {c c' : TokenConfig} {x stated k owner name time number},
      c'.peek x = .ok stated →
      (∃ last, x = c.mint (c.payload k owner name time last (f.ids.id number))) →
      stated.tokenId = f.ids.id number := by
    rintro c c' x stated k owner name time number hread ⟨last, rfl⟩
    exact (TokenConfig.stated_of_decode_mint hread).2.2.1
  have hnumber : first + kind.turn = first' + kind'.turn := by
    apply f.ids.injective
    rw [← hstated hpeek (hminted kind), ← hstated hpeek' (hminted' kind'), hid]
  have hturn : ∀ k : TokenKind, 1 ≤ k.turn ∧ k.turn ≤ 2 := fun k => by cases k <;> decide
  have hkind := hturn kind
  have hkind' := hturn kind'
  rcases hexec.order hexec' with ⟨rfl, rfl, rfl⟩ | hlater | hlater
  · -- One operation hands out one pair, whose tokens differ in their turn.
    obtain rfl := hout.pair_eq hout'
    have hsame : first + kind.turn = first' + kind.turn := by
      apply f.ids.injective
      rw [← hstated hpeek (hminted kind), ← hstated hpeek (hminted' kind)]
    rw [TokenKind.turn_injective (by omega : kind.turn = kind'.turn)]
  · omega
  · omega

/-! ## What sessions hold -/

/-- Whether every session holds a refresh token that was minted for its user. -/
def Rightful (f : MemoryFleet n) : Prop :=
  ∀ user row, f.origin.sessions.rows.get? user = some row →
    ∃ (config : TokenConfig) (username : String) (time expiresAt : Instant) (tokenId : String),
      f.HasDrawn tokenId ∧ row.refreshToken =
        config.mint (config.payload .refresh user username time expiresAt tokenId)

/-- A request that an operation may make gives a session what was minted for its user. -/
theorem Rightful.answer (hf : f.Rightful) {issuer : Issuer} {h : History} (hcounts : f.Counts h)
    (i : Fin n) {r : Request} (hconduct : conduct issuer o h r) :
    (answer i r f).2.Rightful := by
  intro user row hrow
  rw [answer_sessions] at hrow
  cases r with
  | session c =>
    rcases SessionStore.row_of_perform hrow with hold | hgift
    · exact hf user row hold
    · obtain ⟨-, username, time, expiresAt, tokenId, -, hdrew, -, htoken⟩ :=
        issued_of_gift hconduct hgift
      exact ⟨issuer.config, username, time, expiresAt, tokenId, hcounts tokenId hdrew, htoken⟩
  | _ =>
    obtain ⟨config, username, time, expiresAt, tokenId, hid, htoken⟩ := hf user row hrow
    exact ⟨config, username, time, expiresAt, tokenId, hid.mono (answer_onward f i _), htoken⟩

theorem Rightful.happen (hf : f.Rightful) (e : Event n) : (f.happen e).Rightful := by
  intro user row hrow
  rw [happen_origin] at hrow
  obtain ⟨config, username, time, expiresAt, tokenId, hid, htoken⟩ := hf user row hrow
  exact ⟨config, username, time, expiresAt, tokenId, hid.mono (happen_onward f e), htoken⟩

/-- In every run, sessions hold what was minted for their users. -/
theorem Fresh.rightful (hf : f.Fresh) (moves : List (Move n)) : (f.play moves).Rightful := by
  have hempty : f.Rightful := by
    intro user row hrow
    rw [hf.sessions] at hrow
    cases hrow
  clear hf
  induction moves generalizing f with
  | nil => exact hempty
  | cons m moves ih =>
    apply ih
    cases m with
    | execute i o =>
      exact (perform_of (fun h g => g.Counts h ∧ g.Rightful) (fun _ => True)
        (Operation.obeys (f.issuer i) o)
        (fun hg _ _ _ hconduct _ => ⟨hg.1.answer i _, hg.2.answer hg.1 i hconduct⟩)
        ⟨counts_nil f, hempty⟩ (fun _ _ => trivial)).1.2
    | event e => exact hempty.happen e

/-- Whoever reads the token that a session holds finds the session's user in it. -/
theorem Rightful.user_eq (hf : f.Rightful) {row : Session} {claims : Claims}
    (hrow : f.origin.sessions.rows.get? user = some row)
    (hpeek : config.peek row.refreshToken = .ok claims) : claims.user = user := by
  obtain ⟨_, _, _, _, _, -, htoken⟩ := hf user row hrow
  rw [htoken] at hpeek
  exact (TokenConfig.stated_of_decode_mint hpeek).1

end Fleet

end Bearer
