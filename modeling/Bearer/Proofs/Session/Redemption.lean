/-
  A refresh token is redeemed at most once.

  However the steps of any number of calls are interleaved, a token is given to
  a session only once: whoever gives it has issued it under an id that nobody
  else draws, and no call gives two tokens.  A refresh writes only in place of
  the token that it redeems.  So once a token has been redeemed it is spent: no
  row of its user holds it again, and every other refresh with it finds that out
  at the latest when it writes.

  Main statement: `refresh_redeems_once`.
-/
import Bearer.Proofs.Fleet.Interleaving
import Bearer.Proofs.Fleet.Start
import Bearer.Proofs.Store.Session

namespace Bearer

open Fleet

variable {n : Nat} {s : Parallel n} {k : Nat} {c : Call n} {r : Request}
variable {next : r.Reply → Program c.operation.Result} {user : UserId} {token old : String}

namespace Parallel

/-- Whether some call has given a session of a user a token, or tried to. -/
def Given (s : Parallel n) (user : UserId) (token : String) : Prop :=
  ∃ (k : Nat) (c : Call n), s.calls[k]? = some c ∧
    ∃ e ∈ c.history, e.request.gift? = some (user, token)

/-- Whether the row of a user holds a token. -/
def Held (s : Parallel n) (user : UserId) (token : String) : Prop :=
  ∃ row, s.fleet.origin.sessions.rows.get? user = some row ∧ row.refreshToken = token

/-- What holds however the steps of calls are interleaved. -/
structure Orderly (s : Parallel n) : Prop where
  sound : s.Sound
  /-- Ids have been drawn. -/
  drawn : ∀ (k : Nat) (c : Call n), s.calls[k]? = some c → ∀ tokenId, c.history.Drew tokenId →
    s.fleet.HasDrawn tokenId
  /-- No two calls draw one id. -/
  distinct : ∀ (k k' : Nat) (c c' : Call n), s.calls[k]? = some c → s.calls[k']? = some c' →
    ∀ tokenId, c.history.Drew tokenId → c'.history.Drew tokenId → k = k'
  /-- What a call gives, it has issued. -/
  issued : ∀ (k : Nat) (c : Call n), s.calls[k]? = some c → ∀ e ∈ c.history, ∀ user token,
    e.request.gift? = some (user, token) → ∃ config, c.history.Issued config .refresh user token
  /-- What a row holds, it has been given. -/
  given : ∀ user token, s.Held user token → s.Given user token

theorem orderly_idle {f : MemoryFleet n} (hf : f.Fresh) : (idle f).Orderly where
  sound := sound_idle f
  drawn k c hc := by cases hc
  distinct k k' c c' hc := by cases hc
  issued k c hc := by cases hc
  given user token := by
    rintro ⟨row, hrow, -⟩
    have hget : f.origin.sessions.rows.get? user = some row := hrow
    rw [hf.sessions] at hget
    cases hget

/-! ## One turn -/

theorem Given.turn (h : s.Given user token) (t : Turn n) : (s.turn t).Given user token := by
  obtain ⟨k, c, hc, e, he, hgift⟩ := h
  obtain ⟨c', hc', hgrown⟩ := exists_call_turn hc t
  exact ⟨k, c', hc', e, hgrown e he, hgift⟩

/-- A call that gives a token is allowed to, and has issued it. -/
theorem Orderly.issues (h : s.Orderly) (hasks : s.Asks k c r next)
    (hgift : r.gift? = some (user, token)) :
    c.history.Tokenless ∧ ∃ config, c.history.Issued config .refresh user token := by
  obtain ⟨htokenless, hissued⟩ := issued_of_gift (h.sound.conduct hasks) hgift
  exact ⟨htokenless, _, hissued⟩

/-- A token that is given has never been given before, to anyone. -/
theorem Orderly.fresh (h : s.Orderly) (hasks : s.Asks k c r next)
    (hgift : r.gift? = some (user, token)) (owner : UserId) : ¬ s.Given owner token := by
  rintro ⟨k', c', hc', e, he, hgiven⟩
  obtain ⟨htokenless, config, username, time, expiresAt, tokenId, -, hdrew, -, htoken⟩ :=
    h.issues hasks hgift
  obtain ⟨config', username', time', expiresAt', tokenId', -, hdrew', -, htoken'⟩ :=
    h.issued k' c' hc' e he owner token hgiven
  -- Equal tokens have equal ids, and only one call has drawn this one.
  have hpayload := TokenConfig.mint_injective (TokenConfig.inRange_payload ..)
    (TokenConfig.inRange_payload ..) (htoken.symm.trans htoken')
  have hid : tokenId = tokenId' := congrArg Token.Payload.tokenId hpayload
  subst hid
  obtain rfl := h.distinct k k' c c' hasks.1 hc' tokenId hdrew hdrew'
  obtain rfl := Option.some.inj (hasks.1.symm.trans hc')
  have hnone := htokenless e he
  have hgives : e.request.givesToken = true := by
    rw [Request.givesToken, hgiven, Option.isSome_some]
  exact absurd hgives (Bool.eq_false_iff.1 hnone)

theorem turn_onward (s : Parallel n) (t : Turn n) : s.fleet.Onward (s.turn t).fleet := by
  rcases turn_cases s t with ⟨i, o, rfl⟩ | ⟨e, rfl⟩ | ⟨k, c, r, next, rfl, hasks⟩ | hidle
  · exact .refl _
  · exact happen_onward ..
  · rw [turn_step hasks]
    exact answer_onward ..
  · rw [hidle]
    exact .refl _

/-- An id that a call has drawn has been drawn before, or is drawn by this turn. -/
theorem drew_of_turn {t : Turn n} (hc : (s.turn t).calls[k]? = some c) {tokenId : String}
    (hdrew : c.history.Drew tokenId) :
    (∃ c₀, s.calls[k]? = some c₀ ∧ c₀.history.Drew tokenId) ∨
      t = .step k ∧ tokenId = s.fleet.ids.id (s.fleet.minted + 1) ∧
        (s.turn t).fleet.minted = s.fleet.minted + 1 := by
  rcases call_of_turn hc with ⟨-, i, o, -, rfl⟩ | ⟨c₀, r, next, rfl, hasks, rfl⟩ | hsame
  · cases hdrew
  · rcases List.mem_cons.1 hdrew with heq | hdrew
    · cases heq
      rw [turn_step hasks]
      exact Or.inr ⟨rfl, rfl, rfl⟩
    · exact Or.inl ⟨c₀, hasks.1, hdrew⟩
  · exact Or.inl ⟨c, hsame, hdrew⟩

/-- A row after a turn holds what it held before or what the turn has given. -/
theorem held_of_turn {t : Turn n} (h : (s.turn t).Held user token) :
    s.Held user token ∨ ∃ k c r next, t = .step k ∧ s.Asks (n := n) k c r next ∧
      r.gift? = some (user, token) := by
  obtain ⟨row, hrow, rfl⟩ := h
  rcases turn_cases s t with ⟨i, o, rfl⟩ | ⟨e, rfl⟩ | ⟨k, c, r, next, rfl, hasks⟩ | hidle
  · exact Or.inl ⟨row, hrow, rfl⟩
  · have hget : (s.fleet.happen e).origin.sessions.rows.get? user = some row := hrow
    rw [happen_origin] at hget
    exact Or.inl ⟨row, hget, rfl⟩
  · rw [turn_step hasks] at hrow
    dsimp only at hrow
    rw [answer_sessions] at hrow
    cases r with
    | session call =>
      rcases SessionStore.row_of_perform hrow with hold | hgift
      · exact Or.inl ⟨row, hold, rfl⟩
      · exact Or.inr ⟨k, c, .session call, next, rfl, hasks, hgift⟩
    | _ => exact Or.inl ⟨row, hrow, rfl⟩
  · rw [hidle] at hrow
    exact Or.inl ⟨row, hrow, rfl⟩

theorem given_of_asks (hasks : s.Asks k c r next) (hgift : r.gift? = some (user, token)) :
    (s.turn (.step k)).Given user token := by
  have hlength : k < s.calls.length := (List.getElem?_eq_some_iff.1 hasks.1).1
  rw [turn_step hasks]
  exact ⟨k, _, List.getElem?_set_self hlength, _, List.mem_cons_self .., hgift⟩

theorem Orderly.turn (h : s.Orderly) (t : Turn n) : (s.turn t).Orderly where
  -- One part at a time; only a step that asks can bring in anything new.
  sound := h.sound.turn t
  drawn := by
    intro k c hc tokenId hdrew
    rcases drew_of_turn hc hdrew with ⟨c₀, hc₀, hdrew₀⟩ | ⟨-, rfl, hminted⟩
    · exact (h.drawn k c₀ hc₀ tokenId hdrew₀).mono (turn_onward s t)
    · rw [← (turn_onward s t).ids, ← hminted]
      exact hasDrawn_id_iff.2 (Nat.le_refl _)
  distinct := by
    -- The id drawn by this turn is higher than all before.
    have hnew : ∀ (k : Nat) (c : Call n), s.calls[k]? = some c →
        ¬ c.history.Drew (s.fleet.ids.id (s.fleet.minted + 1)) := by
      intro k c hc hdrew
      exact Nat.not_succ_le_self _ (hasDrawn_id_iff.1 (h.drawn k c hc _ hdrew))
    intro k k' c c' hc hc' tokenId hdrew hdrew'
    rcases drew_of_turn hc hdrew with ⟨c₀, hc₀, hdrew₀⟩ | ⟨hstep, hid, -⟩
    · rcases drew_of_turn hc' hdrew' with ⟨c₀', hc₀', hdrew₀'⟩ | ⟨-, rfl, -⟩
      · exact h.distinct k k' c₀ c₀' hc₀ hc₀' tokenId hdrew₀ hdrew₀'
      · exact absurd hdrew₀ (hnew k c₀ hc₀)
    · rcases drew_of_turn hc' hdrew' with ⟨c₀', hc₀', hdrew₀'⟩ | ⟨hstep', -, -⟩
      · subst hid
        exact absurd hdrew₀' (hnew k' c₀' hc₀')
      · exact Turn.step.inj (hstep.symm.trans hstep')
  issued := by
    intro k c hc e he user token hgift
    rcases call_of_turn hc with ⟨-, i, o, -, rfl⟩ | ⟨c₀, r, next, rfl, hasks, rfl⟩ | hsame
    · cases he
    · have hgrown : ∀ e ∈ c₀.history,
          e ∈ (c₀.answered r (answer c₀.place r s.fleet).1 next).history :=
        fun e he => List.mem_cons_of_mem _ he
      -- What is given now was issued before; what was given before stays issued.
      rcases List.mem_cons.1 he with rfl | he
      · obtain ⟨-, config, hissued⟩ := h.issues hasks hgift
        exact ⟨config, hissued.of_subset hgrown⟩
      · obtain ⟨config, hissued⟩ := h.issued k c₀ hasks.1 e he user token hgift
        exact ⟨config, hissued.of_subset hgrown⟩
    · exact h.issued k c hsame e he user token hgift
  given := by
    intro user token hheld
    rcases held_of_turn hheld with hbefore | ⟨k, c, r, next, rfl, hasks, hgift⟩
    · exact (h.given user token hbefore).turn t
    · exact given_of_asks hasks hgift

theorem Orderly.run (h : s.Orderly) (turns : List (Turn n)) : (s.run turns).Orderly := by
  induction turns generalizing s with
  | nil => exact h
  | cons t turns ih => exact ih (h.turn t)

/-! ## Spent tokens -/

/-- Whether a token has been given to a user and is gone. -/
def Spent (s : Parallel n) (user : UserId) (token : String) : Prop :=
  s.Given user token ∧ ¬ s.Held user token

theorem Spent.turn (h : s.Spent user token) (ho : s.Orderly) (t : Turn n) :
    (s.turn t).Spent user token := by
  refine ⟨h.1.turn t, fun hheld => ?_⟩
  rcases held_of_turn hheld with hbefore | ⟨k, c, r, next, rfl, hasks, hgift⟩
  · exact h.2 hbefore
  · exact ho.fresh hasks hgift user h.1

/-- A spent token stays spent. -/
theorem Spent.run (h : s.Spent user token) (ho : s.Orderly) (turns : List (Turn n)) :
    (s.run turns).Spent user token := by
  induction turns generalizing s with
  | nil => exact h
  | cons t turns ih => exact ih (h.turn ho t) (ho.turn t)

/-- A step that writes in place of a token spends it. -/
theorem spent_of_update {expiresAt : Instant}
    {next : (Request.session (.updateToken user (some old) token expiresAt)).Reply →
      Program c.operation.Result} (ho : s.Orderly)
    (hasks : s.Asks k c (.session (.updateToken user (some old) token expiresAt)) next)
    (hdone : (s.fleet.origin.sessions.perform
      (.updateToken user (some old) token expiresAt)).1 = .ok true) :
    s.Held user old ∧ (s.turn (.step k)).Spent user old := by
  -- The store says that the write was done, so the row held the old token.
  have hcases := s.fleet.origin.sessions.update_cases user (some old) token expiresAt
  rcases hcases with ⟨row, hrow, hexpected, -, hrows⟩ | ⟨hnot, -⟩
  · have hbefore : s.Held user old := ⟨row, hrow, hexpected old rfl⟩
    refine ⟨hbefore, (ho.given user old hbefore).turn _, ?_⟩
    rintro ⟨after, hafter, hold⟩
    rw [turn_step hasks] at hafter
    dsimp only at hafter
    rw [answer_sessions] at hafter
    dsimp only at hafter
    rw [hrows, Table.get?_insert_self] at hafter
    obtain rfl := Option.some.inj hafter
    -- The new token cannot be the old one, which has been given before.
    have hsame : token = old := hold
    subst hsame
    exact ho.fresh hasks rfl user (ho.given user token hbefore)
  · exact absurd hdone hnot

/-! ## Refreshes -/

/-- The row of a user. -/
def row? (s : Parallel n) (user : UserId) : Option Session :=
  s.fleet.origin.sessions.rows.get? user

/-- A refresh that has succeeded has spent its token at the step where it wrote. -/
theorem spent_of_refresh {f : MemoryFleet n} (hf : f.Fresh) {turns : List (Turn n)} {i : Fin n}
    {h : History} {pair : TokenPair}
    (hc : ((idle f).run turns).calls[k]? = some ⟨i, .refresh old, h, .done (.ok pair)⟩) :
    ∃ before after c claims expiresAt next, turns = before ++ .step k :: after ∧
      ((idle f).run before).Asks k c
        (.session (.updateToken claims.user (some old) pair.refresh expiresAt)) next ∧
      (f.issuer i).config.peek old = .ok claims ∧
      ((idle f).run before).Held claims.user old ∧
      ((idle f).run (before ++ [.step k])).Spent claims.user old := by
  -- A refresh succeeds only when the record has replaced its token, at some step before.
  have hreason := (sound_idle f).run turns k _ hc
  rw [run_issuer] at hreason
  obtain ⟨claims, expiresAt, hpeek, -, -, -, hwritten⟩ := hreason
  rcases asked_of_mem turns hc hwritten with ⟨c₀, hc₀, -⟩ |
    ⟨before, after, c₀, next, hturns, hasks, -, -, hreply⟩
  · cases hc₀
  · have hdone : (((idle f).run before).fleet.origin.sessions.perform
        (.updateToken claims.user (some old) pair.refresh expiresAt)).1 = .ok true := hreply.symm
    obtain ⟨hheld, hspent⟩ :=
      spent_of_update ((orderly_idle hf).run before) hasks hdone
    refine ⟨before, after, c₀, claims, expiresAt, next, hturns, hasks, hpeek, hheld, ?_⟩
    rw [run_append]
    exact hspent

theorem not_held_of_spent {f : MemoryFleet n} (hf : f.Fresh) {before : List (Turn n)}
    (h : ((idle f).run (before ++ [.step k])).Spent user old) (later : List (Turn n)) :
    ¬ ((idle f).run (before ++ .step k :: later)).Held user old := by
  have hsplit : before ++ .step k :: later = (before ++ [.step k]) ++ later := by simp
  rw [hsplit, run_append]
  exact (h.run ((orderly_idle hf).run _) later).2

/-- A step of a refresh changes a row only where it holds the token that is redeemed, and then only
its token and expiry. -/
theorem row_of_refresh_step (h : s.Sound) (hc : s.calls[k]? = some c)
    (hoperation : c.operation = .refresh old) (user : UserId) :
    (s.turn (.step k)).row? user = s.row? user ∨
      ∃ row token expiresAt, s.row? user = some row ∧ row.refreshToken = old ∧
        (s.turn (.step k)).row? user = some { row with refreshToken := token, expiresAt } := by
  cases hrest : c.rest with
  | done result => exact Or.inl (by simp only [turn, hc, advance, hrest])
  | ask r next =>
    have hasks : s.Asks k c r next := ⟨hc, hrest⟩
    have hconduct := h.conduct hasks
    rw [hoperation] at hconduct
    unfold row?
    rw [turn_step hasks]
    dsimp only
    rw [answer_sessions]
    -- Of the calls that write sessions, a refresh may make one only.
    cases r with
    | session call =>
      cases call with
      | upsert owner given expiresAt createdAt =>
        obtain ⟨-, -, username, password, hlogin⟩ := hconduct
        cases hlogin
      | updateToken owner expected given expiresAt =>
        obtain ⟨-, -, old', claims, hrefresh, rfl, -, -⟩ := hconduct
        obtain rfl := Operation.refresh.inj hrefresh
        rcases s.fleet.origin.sessions.update_cases owner (some old) given expiresAt with
          ⟨row, hrow, hexpected, -, hrows⟩ | ⟨-, hsame⟩
        · dsimp only
          rw [hrows, Table.get?_insert]
          split
          · next heq =>
            subst heq
            exact Or.inr ⟨row, given, expiresAt, hrow, hexpected old rfl, rfl⟩
          · exact Or.inl rfl
        · dsimp only
          rw [hsame]
          exact Or.inl rfl
      | deleteByUser owner =>
        rcases hconduct with ⟨access, refresh, hlogout⟩ | hrevokeAll
        · cases hlogout
        · cases hrevokeAll
      | deleteExpired time => cases hconduct.2
      | findByUser owner time => exact Or.inl rfl
      | findByToken wanted time => exact Or.inl rfl
    | _ => exact Or.inl rfl

/-- However the steps of calls and events are interleaved: a refresh that succeeds has written while
the row of its user held the token that it redeems; no token is redeemed twice; a refresh makes no
row, and changes one only where it holds its token; and it leaves alone what a login writes after
its token has been given. -/
theorem refresh_redeems_once {f : MemoryFleet n} (hf : f.Fresh) (turns : List (Turn n)) :
    let s := (idle f).run turns
    (∀ (k : Nat) i old h pair, s.calls[k]? = some ⟨i, .refresh old, h, .done (.ok pair)⟩ →
      ∃ before after c claims expiresAt next, turns = before ++ .step k :: after ∧
        ((idle f).run before).Asks k c
          (.session (.updateToken claims.user (some old) pair.refresh expiresAt)) next ∧
        (f.issuer i).config.peek old = .ok claims ∧
        ((idle f).run before).Held claims.user old) ∧
    (∀ (k k' : Nat) i i' old h h' pair pair',
      s.calls[k]? = some ⟨i, .refresh old, h, .done (.ok pair)⟩ →
      s.calls[k']? = some ⟨i', .refresh old, h', .done (.ok pair')⟩ → k = k') ∧
    (∀ (k : Nat) c old user, s.calls[k]? = some c → c.operation = .refresh old →
      (s.turn (.step k)).row? user = s.row? user ∨
        ∃ row token expiresAt, s.row? user = some row ∧ row.refreshToken = old ∧
          (s.turn (.step k)).row? user = some { row with refreshToken := token, expiresAt }) ∧
    (∀ k c user token expiresAt createdAt next,
      s.Asks k c (.session (.upsert user token expiresAt createdAt)) next →
      ∀ old owner, s.Given owner old → ∀ later,
        let g := (s.turn (.step k)).run later
        ∀ (k' : Nat) c' row, g.calls[k']? = some c' → c'.operation = .refresh old →
          g.row? user = some row → row.refreshToken = token →
          (g.turn (.step k')).row? user = some row) := by
  intro s
  have hsound : s.Sound := (sound_idle f).run turns
  have horderly : s.Orderly := (orderly_idle hf).run turns
  refine ⟨?_, ?_, ?_, ?_⟩
  -- A refresh that succeeds has written in place of its token.
  · intro k i old h pair hc
    obtain ⟨before, after, c, claims, expiresAt, next, hturns, hasks, hpeek, hheld, -⟩ :=
      spent_of_refresh hf hc
    exact ⟨before, after, c, claims, expiresAt, next, hturns, hasks, hpeek, hheld⟩
  -- No token is redeemed twice.
  · intro k k' i i' old h h' pair pair' hc hc'
    obtain ⟨before, after, c, claims, -, -, hturns, -, hpeek, hheld, hspent⟩ :=
      spent_of_refresh hf hc
    obtain ⟨before', after', c', claims', -, -, hturns', -, hpeek', hheld', hspent'⟩ :=
      spent_of_refresh hf hc'
    obtain rfl := TokenConfig.claims_unique hpeek hpeek'
    -- Whichever has written first, the token was spent for the other one.
    rcases List.append_eq_append_iff.1 (hturns.symm.trans hturns') with
      ⟨between, rfl, hrest⟩ | ⟨between, rfl, hrest⟩
    · rcases List.cons_eq_append_iff.1 hrest with ⟨-, hsame⟩ | ⟨later, rfl, -⟩
      · exact (Turn.step.inj (List.cons.inj hsame).1).symm
      · exact absurd hheld' (not_held_of_spent hf hspent later)
    · rcases List.cons_eq_append_iff.1 hrest with ⟨-, hsame⟩ | ⟨later, rfl, -⟩
      · exact Turn.step.inj (List.cons.inj hsame).1
      · exact absurd hheld (not_held_of_spent hf hspent' later)
  · exact fun k c old user hc hoperation => row_of_refresh_step hsound hc hoperation user
  · intro k c user token expiresAt createdAt next hasks old owner hgiven later g k' c' row hc'
      hoperation hrow htoken
    have hg : g.Sound := (hsound.turn _).run later
    rcases row_of_refresh_step hg hc' hoperation user with hsame | ⟨row', -, -, hrow', hheld, -⟩
    · exact hsame.trans hrow
    · -- The login's token has not been given before, but this one has.
      obtain rfl := Option.some.inj (hrow.symm.trans hrow')
      have heq : token = old := htoken.symm.trans hheld
      subst heq
      exact absurd hgiven (horderly.fresh hasks rfl owner)

open Fleet.Demo

/-- Logins of the demo user at two instances, of which the first has written its token and the
second is about to. -/
def demoLogins (i j : Fin 2) : List (Turn 2) :=
  [.start i (.login "demo" "demo"), .step 0, .step 0, .step 0, .step 0, .step 0, .step 0,
    .start j (.login "demo" "demo"), .step 1, .step 1, .step 1, .step 1, .step 1]

/-- A refresh with the first token leaves alone what the second login writes. -/
theorem refresh_redeems_once_demo :
    let s := (idle demo).run (demoLogins 0 1)
    ∃ c first second expiresAt createdAt next, s.Given demoUser first ∧
      s.Asks 1 c (.session (.upsert demoUser second expiresAt createdAt)) next ∧
      ∀ later, let g := (s.turn (.step 1)).run later
        ∀ (k' : Nat) c' row, g.calls[k']? = some c' → c'.operation = .refresh first →
          g.row? demoUser = some row → row.refreshToken = second →
          (g.turn (.step k')).row? demoUser = some row := by
  intro s
  have hfirst : ∃ first, s.Given demoUser first :=
    ⟨_, 0, _, rfl, _, List.mem_cons_self .., rfl⟩
  have hsecond : ∃ c second expiresAt createdAt next,
      s.Asks 1 c (.session (.upsert demoUser second expiresAt createdAt)) next :=
    ⟨_, _, _, _, _, rfl, rfl⟩
  obtain ⟨first, hgiven⟩ := hfirst
  obtain ⟨c, second, expiresAt, createdAt, next, hasks⟩ := hsecond
  obtain ⟨-, -, -, hleft⟩ := refresh_redeems_once (fresh_start ..) (demoLogins 0 1)
  exact ⟨c, first, second, expiresAt, createdAt, next, hgiven, hasks,
    hleft 1 c demoUser second expiresAt createdAt next hasks first demoUser hgiven⟩

end Parallel

end Bearer
