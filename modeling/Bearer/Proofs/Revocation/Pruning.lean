/-
  Revocations that one issuer keeps to itself.

  An issuer that reports to no blacklist has nothing but its own memory of what
  it has revoked.  Entries stay there past their expiry, until there are many:
  then those that have expired are dropped before the next one is added.  Three
  comparisons of an expiry with the wall clock take part in that, one in passing
  over a token that has expired, one in dropping entries and one in looking an
  id up.  They agree, and the wall clock does not go back, so what the issuer
  answers is what its past says, however often entries have been dropped.

  Main statements: `serve_revoke` for one call, `remembers_iff` for all times
  that may still come, and `isRemembered_iff_revoked`.
-/
import Bearer.Proofs.Fleet.Perform
import Bearer.Proofs.Fleet.Start
import Mathlib.Data.List.Induction

namespace Bearer

/-! ## What an issuer goes through -/

/-- A step in the life of an issuer: it is called to revoke a token of a kind, or the wall clock is
set. -/
inductive IssuerStep where
  | revoke (kind : TokenKind) (token : String)
  | clock (wall : Instant)
  deriving DecidableEq

namespace IssuerStep

variable {c : TokenConfig} {start now : Instant} {steps : List IssuerStep} {x : IssuerStep}
variable {kind : TokenKind} {token : String} {claims claims' : Claims}

/-- What the wall clock is set to by a step. -/
def reading? : IssuerStep → Option Instant
  | revoke .. => none
  | clock wall => some wall

/-- What the wall clock shows after some steps. -/
def timeAfter (start : Instant) (steps : List IssuerStep) : Instant :=
  (steps.filterMap reading?).getLastD start

/-- Whether the wall clock never goes back. -/
def Forward (start : Instant) (steps : List IssuerStep) : Prop :=
  (start :: steps.filterMap reading?).Pairwise (· ≤ ·)

/-- Whether the tokens that are to be revoked have pairwise distinct ids.  One token may be revoked
more than once. -/
def DistinctIds (c : TokenConfig) (steps : List IssuerStep) : Prop :=
  ∀ kind token claims kind' token' claims',
    .revoke kind token ∈ steps → .revoke kind' token' ∈ steps →
    c.peek token = .ok claims → c.peek token' = .ok claims' →
    claims.tokenId = claims'.tokenId → token = token'

/-- Whether a call to revoke a token of a kind takes effect: the token can be read and is of that
kind, and the call is made before it expires. -/
structure TakesEffect (c : TokenConfig) (now : Instant) (kind : TokenKind) (token : String)
    (claims : Claims) : Prop where
  reads : c.peek token = .ok claims
  kind : claims.kind = kind
  live : now < claims.expiresAt

/-- Whether one of some steps is a call that has revoked a token, of which the claims are given. -/
def Revoked (c : TokenConfig) (start : Instant) (steps : List IssuerStep) (claims : Claims) :
    Prop :=
  ∃ before kind token, before ++ [.revoke kind token] <+: steps ∧
    TakesEffect c (timeAfter start before) kind token claims

theorem timeAfter_concat (start : Instant) (steps : List IssuerStep) (x : IssuerStep) :
    timeAfter start (steps ++ [x]) = x.reading?.getD (timeAfter start steps) := by
  rw [timeAfter, List.filterMap_append]
  cases x with
  | revoke kind token => simp [reading?, timeAfter]
  | clock wall => simp [reading?]

/-- The clock has gone forward until the last step, and does not go back by it. -/
theorem Forward.of_concat (h : Forward start (steps ++ [x])) :
    Forward start steps ∧ timeAfter start steps ≤ timeAfter start (steps ++ [x]) := by
  rw [Forward, List.filterMap_append, ← List.cons_append, List.pairwise_append] at h
  obtain ⟨hsteps, -, hlast⟩ := h
  refine ⟨hsteps, ?_⟩
  rw [timeAfter_concat]
  cases x with
  | revoke kind token => exact Instant.le_refl _
  | clock wall => exact hlast _ List.getLastD_mem_cons wall (List.mem_singleton_self wall)

theorem DistinctIds.of_concat (h : DistinctIds c (steps ++ [x])) : DistinctIds c steps :=
  fun kind token claims kind' token' claims' hmem hmem' =>
    h kind token claims kind' token' claims' (List.mem_append_left _ hmem)
      (List.mem_append_left _ hmem')

/-- What has been revoked was revoked before the last step, or is revoked by it. -/
theorem revoked_concat : Revoked c start (steps ++ [x]) claims ↔
    Revoked c start steps claims ∨
      ∃ kind token, x = .revoke kind token ∧
        TakesEffect c (timeAfter start steps) kind token claims := by
  constructor
  · rintro ⟨before, kind, token, hprefix, heffect⟩
    rcases List.prefix_concat_iff.1 hprefix with heq | hearlier
    · obtain ⟨rfl, hlast⟩ := List.append_inj' heq rfl
      exact Or.inr ⟨kind, token, (List.singleton_inj.1 hlast).symm, heffect⟩
    · exact Or.inl ⟨before, kind, token, hearlier, heffect⟩
  · rintro (⟨before, kind, token, hprefix, heffect⟩ | ⟨kind, token, rfl, heffect⟩)
    · exact ⟨before, kind, token, hprefix.trans (List.prefix_append ..), heffect⟩
    · exact ⟨steps, kind, token, List.prefix_refl _, heffect⟩

/-- What has been revoked is the token of one of the calls. -/
theorem Revoked.exists_mem (h : Revoked c start steps claims) :
    ∃ kind token, .revoke kind token ∈ steps ∧ c.peek token = .ok claims := by
  obtain ⟨before, kind, token, hprefix, heffect⟩ := h
  exact ⟨kind, token, hprefix.subset List.mem_concat_self, heffect.reads⟩

/-- If the ids are distinct, all that has been revoked under one id is one token. -/
theorem DistinctIds.claims_eq (h : DistinctIds c steps) (hrevoked : Revoked c start steps claims)
    (hrevoked' : Revoked c start steps claims') (hid : claims.tokenId = claims'.tokenId) :
    claims = claims' := by
  obtain ⟨kind, token, hmem, hread⟩ := hrevoked.exists_mem
  obtain ⟨kind', token', hmem', hread'⟩ := hrevoked'.exists_mem
  obtain rfl := h _ _ _ _ _ _ hmem hmem' hread hread' hid
  exact Except.ok.inj (hread.symm.trans hread')

end IssuerStep

open IssuerStep

/-! ## The fleet after such steps -/

namespace Fleet

variable {σ ρ : Type} [Origin σ] [SharedBackend ρ] {n : Nat}

/-- The fleet after a step in the life of an instance's issuer. -/
def serve (i : Fin n) (f : Fleet σ ρ n) : IssuerStep → Fleet σ ρ n
  | .revoke kind token => (f.perform i ((f.issuer i).revoke kind token)).2
  | .clock wall => f.setWall wall

/-- The fleet after some steps. -/
def serveAll (f : Fleet σ ρ n) (i : Fin n) (steps : List IssuerStep) : Fleet σ ρ n :=
  steps.foldl (serve i) f

theorem serveAll_concat (f : Fleet σ ρ n) (i : Fin n) (steps : List IssuerStep) (x : IssuerStep) :
    f.serveAll i (steps ++ [x]) = serve i (f.serveAll i steps) x := List.foldl_append

variable {f : Fleet σ ρ n} {i : Fin n} {issuer : Issuer} {kind : TokenKind} {token : String}
variable {claims : Claims} {steps : List IssuerStep}

/-- A token that cannot be read, or is of another kind, is refused, and nothing happens. -/
theorem perform_revoke_refused
    (hnot : ∀ claims, issuer.config.peek token = .ok claims → claims.kind ≠ kind) :
    ∃ e, f.perform i (issuer.revoke kind token) = (.error e, f) := by
  rw [Issuer.revoke, perform_bind]
  cases hread : issuer.config.peek token with
  | error e => exact ⟨e, rfl⟩
  | ok claims =>
    refine ⟨.tokenInvalid, ?_⟩
    show f.perform i _ = _
    rw [if_pos (hnot claims hread)]
    rfl

/-- Without a blacklist, revoking any other token is remembering it, unless it has expired. -/
theorem perform_revoke_alone (halone : issuer.reports = false)
    (hread : issuer.config.peek token = .ok claims) (hkind : claims.kind = kind) :
    f.perform i (issuer.revoke kind token) =
      (.ok (), if claims.expiresAt ≤ f.wall then f
        else (answer i (.remember claims.tokenId claims.expiresAt) f).2) := by
  rw [Issuer.revoke, perform_bind, hread]
  show f.perform i _ = _
  rw [if_neg (not_not_intro hkind), perform_bind]
  show f.perform i (if claims.expiresAt ≤ f.wall then _ else _) = _
  by_cases hended : claims.expiresAt ≤ f.wall
  · rw [if_pos hended, if_pos hended]
    rfl
  · rw [if_neg hended, if_neg hended, perform_bind]
    show (answer i _ f).2.perform i (if issuer.reports = true then _ else _) = _
    rw [if_neg (by rw [halone]; exact Bool.false_ne_true)]
    rfl

/-- A call succeeds exactly if it is about a token that can be read and is of the kind. -/
theorem revoke_eq_ok_iff (halone : issuer.reports = false) :
    (f.perform i (issuer.revoke kind token)).1 = .ok () ↔
      ∃ claims, issuer.config.peek token = .ok claims ∧ claims.kind = kind := by
  constructor
  · intro hok
    by_contra hnot
    obtain ⟨e, hrefused⟩ := perform_revoke_refused (f := f) (i := i)
      fun claims hread hkind => hnot ⟨claims, hread, hkind⟩
    rw [hrefused] at hok
    cases hok
  · rintro ⟨claims, hread, hkind⟩
    rw [perform_revoke_alone halone hread hkind]

/-- A call takes effect, and then the token is remembered until it expires, or nothing happens. -/
theorem serve_revoke (halone : (f.issuer i).reports = false) (kind : TokenKind) (token : String) :
    (∃ claims, TakesEffect (f.issuer i).config f.wall kind token claims ∧
      serve i f (.revoke kind token) =
        (answer i (.remember claims.tokenId claims.expiresAt) f).2) ∨
    ((∀ claims, ¬ TakesEffect (f.issuer i).config f.wall kind token claims) ∧
      serve i f (.revoke kind token) = f) := by
  have hserve : serve i f (.revoke kind token) =
      (f.perform i ((f.issuer i).revoke kind token)).2 := rfl
  rw [hserve]
  by_cases hgood : ∃ claims, (f.issuer i).config.peek token = .ok claims ∧ claims.kind = kind
  · obtain ⟨claims, hread, hkind⟩ := hgood
    rw [perform_revoke_alone halone hread hkind]
    by_cases hended : claims.expiresAt ≤ f.wall
    · rw [if_pos hended]
      refine Or.inr ⟨fun other heffect => ?_, rfl⟩
      obtain rfl := Except.ok.inj (hread.symm.trans heffect.reads)
      exact Instant.not_lt.2 hended heffect.live
    · rw [if_neg hended]
      exact Or.inl ⟨claims, ⟨hread, hkind, Instant.not_le.1 hended⟩, rfl⟩
  · obtain ⟨e, hrefused⟩ := perform_revoke_refused (f := f) (i := i)
      fun claims hread hkind => hgood ⟨claims, hread, hkind⟩
    rw [hrefused]
    exact Or.inr ⟨fun claims heffect => hgood ⟨claims, heffect.reads, heffect.kind⟩, rfl⟩

/-- No step changes the issuer, and only setting the wall clock moves it. -/
theorem serve_keeps (halone : (f.issuer i).reports = false) (x : IssuerStep) :
    (serve i f x).issuer i = f.issuer i ∧ (serve i f x).wall = x.reading?.getD f.wall := by
  cases x with
  | revoke kind token =>
    rcases serve_revoke halone kind token with ⟨claims, -, hserve⟩ | ⟨-, hserve⟩
    · rw [hserve]
      exact ⟨answer_issuer .., answer_wall ..⟩
    · rw [hserve]
      exact ⟨rfl, rfl⟩
  | clock wall => exact ⟨rfl, rfl⟩

theorem serveAll_keeps (halone : (f.issuer i).reports = false) (steps : List IssuerStep) :
    (f.serveAll i steps).issuer i = f.issuer i ∧
      (f.serveAll i steps).wall = timeAfter f.wall steps := by
  induction steps using List.reverseRecOn with
  | nil => exact ⟨rfl, rfl⟩
  | append_singleton steps x ih =>
    obtain ⟨hissuer, hwall⟩ := ih
    obtain ⟨hsame, hclock⟩ := serve_keeps (f := f.serveAll i steps) (hissuer ▸ halone) x
    rw [serveAll_concat, timeAfter_concat, hsame, hclock, hwall]
    exact ⟨hissuer, rfl⟩

/-! ## What the issuer remembers -/

variable {later : Instant} {tokenId : String}

/-- After a call, an id counts as revoked because of the call, or because it did so before and the
call is not about it. -/
theorem contains_serve_revoke (halone : (f.issuer i).reports = false) (hlater : f.wall ≤ later) :
    ((serve i f (.revoke kind token)).revoked i).contains later tokenId = true ↔
      (∃ claims, TakesEffect (f.issuer i).config f.wall kind token claims ∧
        claims.tokenId = tokenId ∧ later < claims.expiresAt) ∨
      (∀ claims, TakesEffect (f.issuer i).config f.wall kind token claims →
        claims.tokenId ≠ tokenId) ∧ (f.revoked i).contains later tokenId = true := by
  rcases serve_revoke halone kind token with ⟨claims, heffect, hserve⟩ | ⟨hnone, hserve⟩
  · have honly : ∀ other, TakesEffect (f.issuer i).config f.wall kind token other →
        other = claims := fun other heffect' =>
      Except.ok.inj (heffect'.reads.symm.trans heffect.reads)
    rw [hserve, answer_revoked]
    dsimp only
    rw [if_pos rfl, RevokedTokens.contains_remember _ hlater]
    split
    · next hid =>
      rw [decide_eq_true_eq]
      constructor
      · exact fun hlive => Or.inl ⟨claims, heffect, hid.symm, hlive⟩
      · rintro (⟨other, heffect', -, hlive⟩ | ⟨hnot, -⟩)
        · exact honly other heffect' ▸ hlive
        · exact absurd hid.symm (hnot claims heffect)
    · next hne =>
      constructor
      · exact fun hheld => Or.inr ⟨fun other heffect' hid =>
          hne (honly other heffect' ▸ hid).symm, hheld⟩
      · rintro (⟨other, heffect', hid, -⟩ | ⟨-, hheld⟩)
        · exact absurd (honly other heffect' ▸ hid).symm hne
        · exact hheld
  · rw [hserve]
    constructor
    · exact fun hheld => Or.inr ⟨fun other heffect => absurd heffect (hnone other), hheld⟩
    · rintro (⟨other, heffect, -⟩ | ⟨-, hheld⟩)
      · exact absurd heffect (hnone other)
      · exact hheld

/-- From now on, the issuer knows the tokens that have been revoked, each until it expires, and no
others. -/
theorem remembers_iff (hnew : f.revoked i = .empty) (halone : (f.issuer i).reports = false)
    (hforward : Forward f.wall steps) (hids : DistinctIds (f.issuer i).config steps)
    (hlater : timeAfter f.wall steps ≤ later) :
    ((f.serveAll i steps).revoked i).contains later tokenId = true ↔
      ∃ claims, Revoked (f.issuer i).config f.wall steps claims ∧ claims.tokenId = tokenId ∧
        later < claims.expiresAt := by
  -- By induction on the steps, the last one of which is taken off.
  induction steps using List.reverseRecOn with
  | nil =>
    show (f.revoked i).contains later tokenId = true ↔ _
    rw [hnew, RevokedTokens.contains_empty]
    constructor
    · intro hcontains
      cases hcontains
    · rintro ⟨claims, hrevoked, -⟩
      obtain ⟨kind, token, hmem, -⟩ := hrevoked.exists_mem
      cases hmem
  | append_singleton steps x ih =>
    obtain ⟨hsteps, hstep⟩ := hforward.of_concat
    have hle : timeAfter f.wall steps ≤ later := Instant.le_trans hstep hlater
    have hbefore := ih hsteps hids.of_concat hle
    obtain ⟨hissuer, hwall⟩ := serveAll_keeps halone steps
    rw [serveAll_concat]
    cases x with
    | clock wall =>
      show ((f.serveAll i steps).revoked i).contains later tokenId = true ↔ _
      rw [hbefore]
      simp only [revoked_concat, reduceCtorEq, false_and, exists_false, or_false]
    | revoke kind token =>
      rw [contains_serve_revoke (hissuer ▸ halone) (hwall ▸ hle), hbefore, hissuer, hwall]
      constructor
      · rintro (⟨claims, heffect, hrest⟩ | ⟨-, claims, hrevoked, hrest⟩)
        · exact ⟨claims, revoked_concat.2 (Or.inr ⟨kind, token, rfl, heffect⟩), hrest⟩
        · exact ⟨claims, revoked_concat.2 (Or.inl hrevoked), hrest⟩
      · rintro ⟨claims, hrevoked, hid, hlive⟩
        by_cases hagain : ∃ other,
            TakesEffect (f.issuer i).config (timeAfter f.wall steps) kind token other ∧
              other.tokenId = tokenId
        · -- The id has been revoked again, so it was for the same token.
          obtain ⟨other, heffect, hother⟩ := hagain
          have hlast := revoked_concat.2 (Or.inr ⟨kind, token, rfl, heffect⟩)
          obtain rfl := hids.claims_eq hrevoked hlast (hid.trans hother.symm)
          exact Or.inl ⟨_, heffect, hid, hlive⟩
        · rcases revoked_concat.1 hrevoked with hrevoked | ⟨_, _, heq, heffect⟩
          · exact Or.inr ⟨fun other heffect hother => hagain ⟨other, heffect, hother⟩, claims,
              hrevoked, hid, hlive⟩
          · cases heq
            exact absurd ⟨claims, heffect, hid⟩ hagain

/-- Let an issuer that reports to no blacklist and has revoked nothing yet be called to revoke
tokens with distinct ids, as often as it may be, while the wall clock never goes back.  A call
succeeds exactly if it is about a token that can be read and is of the kind.  The issuer then
answers that an id is revoked exactly if one of the calls has revoked a token with that id before it
expired, and it has not expired by now. -/
theorem isRemembered_iff_revoked (f : Fleet σ ρ n) (i : Fin n) (steps : List IssuerStep)
    (hnew : f.revoked i = .empty) (halone : (f.issuer i).reports = false)
    (hforward : Forward f.wall steps) (hids : DistinctIds (f.issuer i).config steps) :
    (∀ before kind token,
      ((f.serveAll i before).perform i ((f.issuer i).revoke kind token)).1 = .ok () ↔
        ∃ claims, (f.issuer i).config.peek token = .ok claims ∧ claims.kind = kind) ∧
    ∀ tokenId,
      ((f.serveAll i steps).perform i (Service.ask (.isRemembered tokenId))).1 = .ok true ↔
        ∃ claims, Revoked (f.issuer i).config f.wall steps claims ∧ claims.tokenId = tokenId ∧
          timeAfter f.wall steps < claims.expiresAt := by
  refine ⟨fun before kind token => revoke_eq_ok_iff halone, fun tokenId => ?_⟩
  have hanswer : ((f.serveAll i steps).perform i (Service.ask (.isRemembered tokenId))).1 =
      .ok (((f.serveAll i steps).revoked i).contains (f.serveAll i steps).wall tokenId) := rfl
  rw [hanswer, Except.ok.injEq, (serveAll_keeps halone steps).2]
  exact remembers_iff hnew halone hforward hids (Instant.le_refl _)

/-! ## More tokens than are kept without looking -/

open Demo

/-- An instance with the demo settings, but without a blacklist. -/
def lonely : MemoryFleet 2 :=
  start 2 .epoch (.empty plainHasher) .default { demoIssuer with reports := false }

/-- An hour after the start. -/
def demoHour : Instant := { second := 3600, nanos := 0 }

/-- When a demo token expires: after a minute, or after an hour if as many are there already as are
kept without looking through them. -/
def lonelyExpiry (number : Nat) : Instant :=
  if number < RevokedTokens.pruneAt then demoMinute else demoHour

/-- A call to revoke a demo token. -/
def lonelyCall (number : Nat) : IssuerStep :=
  .revoke .access (demoToken .access .epoch (lonelyExpiry number) number)

/-- Many tokens are revoked, expire all at once, and then one more is revoked. -/
def lonelySteps : List IssuerStep :=
  (List.range RevokedTokens.pruneAt).map lonelyCall ++
    [.clock demoMinute, lonelyCall RevokedTokens.pruneAt]

theorem peek_lonely (number : Nat) :
    (lonely.issuer 0).config.peek (demoToken .access .epoch (lonelyExpiry number) number) =
      .ok (demoClaims .access .epoch (lonelyExpiry number) number) := by
  rw [lonely, issuer_start, lonelyExpiry]
  split
  · exact TokenConfig.peek_mint _ _ _ _ _ (by decide) (by decide) (by decide)
  · exact TokenConfig.peek_mint _ _ _ _ _ (by decide) (by decide) (by decide)

/-- Every one of the calls is about one of the demo tokens. -/
theorem exists_of_mem_lonelySteps (hmem : .revoke kind token ∈ lonelySteps)
    (hread : (lonely.issuer 0).config.peek token = .ok claims) :
    ∃ number, token = demoToken .access .epoch (lonelyExpiry number) number ∧
      claims = demoClaims .access .epoch (lonelyExpiry number) number := by
  obtain ⟨number, rfl⟩ : ∃ number,
      token = demoToken .access .epoch (lonelyExpiry number) number := by
    simp only [lonelySteps, lonelyCall, List.mem_append, List.mem_map, List.mem_cons,
      IssuerStep.revoke.injEq, reduceCtorEq, List.not_mem_nil, or_false, false_or] at hmem
    rcases hmem with ⟨number, -, -, rfl⟩ | ⟨-, rfl⟩
    · exact ⟨number, rfl⟩
    · exact ⟨_, rfl⟩
  exact ⟨number, rfl, Except.ok.inj (hread.symm.trans (peek_lonely number))⟩

theorem distinctIds_lonelySteps : DistinctIds (lonely.issuer 0).config lonelySteps := by
  intro kind token claims kind' token' claims' hmem hmem' hread hread' hid
  obtain ⟨number, rfl, rfl⟩ := exists_of_mem_lonelySteps hmem hread
  obtain ⟨number', rfl, rfl⟩ := exists_of_mem_lonelySteps hmem' hread'
  obtain rfl : number = number' := Token.id_injective hid
  rfl

theorem filterMap_lonelySteps : lonelySteps.filterMap reading? = [demoMinute] := by
  simp [lonelySteps, List.filterMap_map, Function.comp_def, lonelyCall, reading?]

/-- The tokens that have expired are not known any more, at the very instant of their expiry, and
the one that was revoked last is. -/
theorem isRemembered_iff_revoked_demo :
    (lonely.revoked 0 = .empty ∧ (lonely.issuer 0).reports = false) ∧
      Forward lonely.wall lonelySteps ∧ DistinctIds (lonely.issuer 0).config lonelySteps ∧
      ((lonely.serveAll 0 lonelySteps).perform 0
        (Service.ask (.isRemembered (Token.id 0)))).1 ≠ .ok true ∧
      ((lonely.serveAll 0 lonelySteps).perform 0
        (Service.ask (.isRemembered (Token.id RevokedTokens.pruneAt)))).1 = .ok true := by
  have hnew : lonely.revoked 0 = .empty := (fresh_start ..).revoked 0
  have halone : (lonely.issuer 0).reports = false := by
    rw [lonely, issuer_start]
  have hforward : Forward lonely.wall lonelySteps := by
    rw [Forward, filterMap_lonelySteps]
    decide
  have htime : timeAfter lonely.wall lonelySteps = demoMinute := by
    rw [timeAfter, filterMap_lonelySteps]
    rfl
  obtain ⟨-, hknown⟩ :=
    isRemembered_iff_revoked lonely 0 lonelySteps hnew halone hforward distinctIds_lonelySteps
  refine ⟨⟨hnew, halone⟩, hforward, distinctIds_lonelySteps, fun hfirst => ?_, ?_⟩
  · obtain ⟨claims, hrevoked, hid, hlive⟩ := (hknown (Token.id 0)).1 hfirst
    obtain ⟨kind, token, hmem, hread⟩ := hrevoked.exists_mem
    obtain ⟨number, -, rfl⟩ := exists_of_mem_lonelySteps hmem hread
    obtain rfl : number = 0 := Token.id_injective hid
    rw [htime] at hlive
    exact absurd hlive (by decide)
  · have hlive : demoMinute < lonelyExpiry RevokedTokens.pruneAt := by decide
    refine (hknown _).2 ⟨demoClaims .access .epoch (lonelyExpiry _) RevokedTokens.pruneAt,
      ⟨(List.range RevokedTokens.pruneAt).map lonelyCall ++ [.clock demoMinute], .access,
        demoToken .access .epoch (lonelyExpiry _) RevokedTokens.pruneAt, ?_,
        peek_lonely _, rfl, ?_⟩, rfl, ?_⟩
    · rw [List.append_assoc]
      exact List.prefix_refl _
    · rw [timeAfter_concat]
      exact hlive
    · rw [htime]
      exact hlive

end Fleet

end Bearer
