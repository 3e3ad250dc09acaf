/-
  Minted tokens read back.

  A reader finds in a minted token the payload that it was minted of, whatever
  key it judges the signature by: the parts of a token are base 64, in which no
  point occurs, and the parts are JSON that reads back.  So different payloads
  give different tokens.

  Main statements: `statedPayload?_mint`, `mint_injective`, `verify_eq_ok_iff` and
  `stated_of_decode_mint`.
-/
import Bearer.Proofs.Json.RoundTrip
import Bearer.Proofs.Text.Utf8
import Bearer.Proofs.Time.Instant
import Bearer.Token.Verify

namespace Bearer

namespace Token

open Json (Value)

/-! ## Parts -/

theorem base64_ne_point (bytes : List UInt8) : '.' ∉ base64 bytes := by
  have hchar : ∀ n : Fin 64, Text.Base64.urlSafe.char n.val ≠ '.' := by decide
  have hne : ∀ n, n < 64 → '.' ≠ Text.Base64.urlSafe.char n :=
    fun n hn h => hchar ⟨n, hn⟩ h.symm
  unfold base64
  -- Bytes are encoded three at a time, so the cases are the bytes left at the end.
  fun_induction Text.Base64.encode Text.Base64.urlSafe bytes with
  | case1 => simp
  | case2 x n =>
    have hx : x.toNat < 256 := x.toNat_lt
    simp only [List.mem_cons, List.not_mem_nil, or_false, not_or]
    exact ⟨hne _ (by omega), hne _ (by omega)⟩
  | case3 x y n =>
    have hx : x.toNat < 256 := x.toNat_lt
    have hy : y.toNat < 256 := y.toNat_lt
    simp only [List.mem_cons, List.not_mem_nil, or_false, not_or]
    exact ⟨hne _ (by omega), hne _ (by omega), hne _ (by omega)⟩
  | case4 x y z rest n ih =>
    have hx : x.toNat < 256 := x.toNat_lt
    have hy : y.toNat < 256 := y.toNat_lt
    have hz : z.toNat < 256 := z.toNat_lt
    simp only [List.mem_cons, not_or]
    exact ⟨hne _ (by omega), hne _ (by omega), hne _ (by omega), hne _ (by omega), ih⟩

theorem splitLast?_of_not_mem {c : Char} {s : List Char} (h : c ∉ s) : splitLast? c s = none := by
  induction s with
  | nil => rfl
  | cons d s ih =>
    rw [List.mem_cons, not_or] at h
    rw [splitLast?, ih h.2]
    exact if_neg (Ne.symm h.1)

/-- The last occurrence of a character is where none follows. -/
theorem splitLast?_append {c : Char} (before : List Char) {after : List Char} (h : c ∉ after) :
    splitLast? c (before ++ c :: after) = some (before, after) := by
  induction before with
  | nil =>
    rw [List.nil_append, splitLast?, splitLast?_of_not_mem h]
    exact if_pos rfl
  | cons d before ih => rw [List.cons_append, splitLast?, ih]

theorem partsOfText?_sign (key : List UInt8) (payload : Value) :
    Parts.ofText? (sign key payload) = some {
      signed := jsonPart header ++ '.' :: jsonPart payload
      header := jsonPart header
      payload := jsonPart payload
      signature := signature key (jsonPart header ++ '.' :: jsonPart payload) } := by
  -- The last point comes before the signature, and the one before that after the header.
  have hsignature : '.' ∉ signature key (jsonPart header ++ '.' :: jsonPart payload) :=
    base64_ne_point _
  have hpayload : '.' ∉ jsonPart payload := base64_ne_point _
  simp only [Parts.ofText?, sign, splitLast?_append _ hsignature, splitLast?_append _ hpayload,
    Option.bind_eq_bind, Option.bind_some]

/-- A part reads back. -/
theorem partJson?_jsonPart {v : Value} (h : v.Integral) : partJson? (jsonPart v) = some v := by
  rw [partJson?, jsonPart, base64, Text.Base64.decode_encode]
  simp only [Option.bind_eq_bind, Option.bind_some, Text.Utf8.decode_encode]
  exact Json.read?_write h

theorem partJson?_header :
    (partJson? (jsonPart header)).bind headerAlgorithm? = some algorithm := by
  have hintegral : header.Integral := by
    apply Value.integral_record
    simp [Value.integral_text]
  have hmembers : header.members?
      ["typ", "alg", "cty", "jku", "jwk", "kid", "x5u", "x5c", "x5t", "x5t#S256"] =
      some [some (.text "JWT"), some (.text algorithm), none, none, none, none, none, none, none,
        none] := by
    simp [header, Value.members?, Value.record]
  rw [partJson?_jsonPart hintegral, Option.bind_some, headerAlgorithm?, hmembers]
  rfl

/-! ## Payloads -/

namespace Payload

/-- Whether the times of a payload are 64-bit numbers. -/
structure InRange (p : Payload) : Prop where
  expiry : -Text.Decimal.int64Bound ≤ p.expiry ∧ p.expiry < Text.Decimal.int64Bound
  issued : -Text.Decimal.int64Bound ≤ p.issued ∧ p.issued < Text.Decimal.int64Bound
  millis : ∀ n ∈ p.issuedMillis, -Text.Decimal.int64Bound ≤ n ∧ n < Text.Decimal.int64Bound

theorem integral_toJson (p : Payload) : p.toJson.Integral := by
  apply Value.integral_record
  cases p.issuedMillis <;> simp [Value.integral_text, Value.integral_int]

theorem members?_toJson (p : Payload) :
    p.toJson.members?
        ["sub", "name", "typ", "exp", "iat", "iat_ms", "iss", "aud", "jti", "nbf"] =
      some [some (.text p.subject), some (.text p.name), some (.text p.kind.name),
        some (.int p.expiry), some (.int p.issued), p.issuedMillis.map Value.int,
        some (.text p.issuer), some (.text p.audience), some (.text p.tokenId), none] := by
  cases h : p.issuedMillis <;> simp [toJson, h, Value.members?, Value.record]

theorem millis?_int {millis : Option Int}
    (h : ∀ n ∈ millis, -Text.Decimal.int64Bound ≤ n ∧ n < Text.Decimal.int64Bound) :
    millis? (millis.map Value.int) = some millis := by
  cases millis with
  | none => rfl
  | some n =>
    obtain ⟨hlow, hhigh⟩ := h n rfl
    show (Value.int n).int64?.map some = _
    rw [Value.int64?_int hlow hhigh, Option.map_some]

/-- A payload reads back. -/
theorem ofJson?_toJson {p : Payload} (h : p.InRange) : ofJson? p.toJson = some p := by
  have hkind : kind? (.text p.kind.name) = some p.kind := TokenKind.ofName?_name p.kind
  have hobject : ∃ members, p.toJson = .object members := ⟨_, rfl⟩
  obtain ⟨members, hobject⟩ := hobject
  have hmembers := members?_toJson p
  rw [hobject] at hmembers ⊢
  simp only [ofJson?, hmembers, Option.bind_eq_bind, Option.bind_some, hkind,
    Value.int64?_int h.expiry.1 h.expiry.2, Value.int64?_int h.issued.1 h.issued.2,
    millis?_int h.millis, Value.text?_text, Option.all_none, if_true]

end Payload

/-- The payload that a token states, whoever signed it. -/
def statedPayload? (token : String) : Option Payload := do
  let parts ← Parts.ofText? token.toList
  let payload ← partJson? parts.payload
  Payload.ofJson? payload

end Token

open Token

namespace TokenConfig

variable {c c' : TokenConfig} {p p' : Payload}

/-- A minted token states the payload that it was minted of. -/
theorem statedPayload?_mint (c : TokenConfig) (h : p.InRange) :
    statedPayload? (c.mint p) = some p := by
  simp only [statedPayload?, mint, String.toList_ofList, partsOfText?_sign, Option.bind_eq_bind,
    Option.bind_some, partJson?_jsonPart p.integral_toJson, Payload.ofJson?_toJson h]

/-- Different payloads give different tokens, whoever mints them. -/
theorem mint_injective (h : p.InRange) (h' : p'.InRange) (heq : c.mint p = c'.mint p') :
    p = p' := by
  have hstated := statedPayload?_mint c h
  rw [heq, statedPayload?_mint c' h'] at hstated
  exact (Option.some.inj hstated).symm

/-- A token that is found authentic has three parts, of which the header names some algorithm and
the payload reads. -/
theorem parts_of_authentic {token : String} (h : c.authentic token = .ok p) :
    ∃ parts stated, Parts.ofText? token.toList = some parts ∧
      (partJson? parts.header).bind headerAlgorithm? = some stated ∧
      (partJson? parts.payload).bind Payload.ofJson? = some p := by
  cases hparts : Parts.ofText? token.toList with
  | none => simp [authentic, hparts, throw, throwThe, MonadExceptOf.throw] at h
  | some parts =>
    simp only [authentic, hparts] at h
    split at h
    · next stated hstated =>
      -- The tests of the algorithm and of the signature come before the payload is read.
      split at h
      · cases h
      split at h
      · cases h
      split at h
      · next payload hpayload =>
        cases h
        exact ⟨parts, stated, rfl, hstated, hpayload⟩
      · cases h
    · cases h

/-- A token that is found authentic has the payload that it states. -/
theorem statedPayload?_of_authentic {token : String} (h : c.authentic token = .ok p) :
    statedPayload? token = some p := by
  obtain ⟨parts, stated, hparts, -, hpayload⟩ := parts_of_authentic h
  simp only [statedPayload?, hparts, Option.bind_eq_bind, Option.bind_some]
  exact hpayload

/-- A minted token is authentic for those who have the key. -/
theorem authentic_mint (c : TokenConfig) (h : p.InRange) : c.authentic (c.mint p) = .ok p := by
  simp only [authentic, mint, String.toList_ofList, partsOfText?_sign, partJson?_header,
    partJson?_jsonPart p.integral_toJson, Option.bind_some, Payload.ofJson?_toJson h, ne_eq,
    not_true_eq_false, if_false]
  rfl

/-! ## Claims -/

/-- When a token is accepted, and for which claims. -/
theorem decode_eq_ok_iff {time : Option Instant} {token : String} {claims : Claims} :
    c.decode time token = .ok claims ↔
      ∃ p, c.authentic token = .ok p ∧ 0 ≤ p.expiry ∧ (∀ now ∈ time, now.second ≤ p.expiry) ∧
        (p.issuer = c.issuer ∧ p.audience = c.audience) ∧ p.claims? = some claims := by
  cases hp : c.authentic token with
  | error e => simp [decode, hp, bind, Except.bind]
  | ok p =>
    simp only [decode, hp, bind, Except.bind, Except.ok.injEq, exists_eq_left']
    constructor
    · intro h
      split at h
      · cases h
      next hexpiry =>
      split at h
      · cases h
      next htime =>
      split at h
      · cases h
      next howner =>
      split at h
      · next hclaims =>
        cases h
        refine ⟨by omega, ?_, by simpa using howner, hclaims⟩
        intro now hnow
        rw [Option.mem_def.1 hnow] at htime
        simpa using htime
      · cases h
    · rintro ⟨hexpiry, htime, howner, hclaims⟩
      -- No test of the decoder refuses the payload.
      have hlate : ¬ time.any (fun now => decide (p.expiry < now.second)) = true := by
        cases time with
        | none => simp
        | some now => simpa using htime now rfl
      rw [if_neg (by omega), if_neg hlate, if_neg (by simpa using howner), hclaims]
      rfl

/-- What a payload claims: the time of issue in milliseconds counts where it is stated. -/
theorem claims?_eq_some_iff {claims : Claims} :
    p.claims? = some claims ↔
      (UserId.read p.subject).toOption = some claims.user ∧
      (p.issuedMillis.elim (Instant.ofSeconds? p.issued) Instant.ofMillis?) =
        some claims.issuedAt ∧
      Instant.ofSeconds? p.expiry = some claims.expiresAt ∧
      p.name = claims.username ∧ p.tokenId = claims.tokenId ∧ p.kind = claims.kind := by
  obtain ⟨user, username, tokenId, kind, issuedAt, expiresAt⟩ := claims
  cases hm : p.issuedMillis <;>
    simp only [Payload.claims?, hm, Option.bind_eq_bind, Option.bind_eq_some_iff, Option.elim,
      Option.some.injEq, Claims.mk.injEq]
  all_goals
    constructor
    · rintro ⟨user', huser, issued', hissued, expires', hexpires, rfl, hname, hid, hkind, rfl, rfl⟩
      exact ⟨huser, hissued, hexpires, hname, hid, hkind⟩
    · rintro ⟨huser, hissued, hexpires, hname, hid, hkind⟩
      exact ⟨user, huser, issuedAt, hissued, expiresAt, hexpires, rfl, hname, hid, hkind, rfl, rfl⟩

/-- The claims of a payload expire with the second that the payload states. -/
theorem second_expiresAt {claims : Claims} (h : p.claims? = some claims) :
    claims.expiresAt.second = p.expiry ∧ claims.expiresAt.nanos = 0 := by
  obtain ⟨-, -, hexpires, -⟩ := claims?_eq_some_iff.1 h
  unfold Instant.ofSeconds? Instant.ofParts? at hexpires
  split at hexpires
  · have heq := Option.some.inj hexpires
    exact ⟨(congrArg Instant.second heq).symm, (congrArg Instant.nanos heq).symm⟩
  · cases hexpires

/-- A token that can be read is in time as long as its second of expiry has not passed. -/
theorem decode_some_eq_ok_iff {now : Instant} {token : String} {claims : Claims} :
    c.decode (some now) token = .ok claims ↔
      c.peek token = .ok claims ∧ now.second ≤ claims.expiresAt.second := by
  rw [peek, decode_eq_ok_iff, decode_eq_ok_iff]
  constructor
  · rintro ⟨p, hp, hexpiry, htime, howner, hclaims⟩
    refine ⟨⟨p, hp, hexpiry, by simp, howner, hclaims⟩, ?_⟩
    rw [(second_expiresAt hclaims).1]
    exact htime now rfl
  · rintro ⟨⟨p, hp, hexpiry, -, howner, hclaims⟩, htime⟩
    refine ⟨p, hp, hexpiry, ?_, howner, hclaims⟩
    intro later hlater
    rw [← Option.some.inj hlater, ← (second_expiresAt hclaims).1]
    exact htime

/-- A token is good for its kind as long as its second of expiry has not passed. -/
theorem verify_eq_ok_iff {kind : TokenKind} {now : Instant} {token : String} {claims : Claims} :
    c.verify kind now token = .ok claims ↔
      c.peek token = .ok claims ∧ claims.kind = kind ∧ now.second ≤ claims.expiresAt.second := by
  have hdecode : c.decode (some now) token = .ok claims ↔
      c.peek token = .ok claims ∧ now.second ≤ claims.expiresAt.second := decode_some_eq_ok_iff
  -- The kind is only looked at once the token has been decoded.
  cases hd : c.decode (some now) token with
  | error e =>
    have hno : ¬ (c.peek token = .ok claims ∧ now.second ≤ claims.expiresAt.second) := by
      rw [← hdecode, hd]
      exact fun h => nomatch h
    simp only [verify, hd, bind, Except.bind]
    constructor
    · intro h
      cases h
    · intro h
      exact absurd ⟨h.1, h.2.2⟩ hno
  | ok found =>
    simp only [verify, hd, bind, Except.bind]
    rw [hd, Except.ok.injEq] at hdecode
    constructor
    · intro h
      split at h
      · cases h
      next hkind =>
      cases h
      have hfound := hdecode.1 rfl
      exact ⟨hfound.1, Decidable.not_not.1 hkind, hfound.2⟩
    · rintro ⟨hpeek, hkind, htime⟩
      have hfound := hdecode.2 ⟨hpeek, htime⟩
      subst hfound
      rw [if_neg (Decidable.not_not.2 hkind)]
      rfl

theorem bind_ne_error {α β : Type} {e : AuthError} {verdict : Except AuthError α}
    {next : α → Except AuthError β} (hverdict : verdict ≠ .error e)
    (hnext : ∀ a, next a ≠ .error e) : (verdict >>= next) ≠ .error e := by
  cases verdict with
  | ok a => exact hnext a
  | error other =>
    intro h
    cases h
    exact hverdict rfl

/-- Whether an error says that a token is no good by itself. -/
def OfToken (e : AuthError) : Prop := e = .tokenMalformed ∨ e = .tokenInvalid ∨ e = .tokenExpired

/-- Every test of a token fails with an error of its own. -/
theorem decode_ne_error {e : AuthError} (he : ¬ OfToken e) (c : TokenConfig)
    (time : Option Instant) (token : String) : c.decode time token ≠ .error e := by
  simp only [OfToken, not_or] at he
  obtain ⟨hmalformed, hinvalid, hexpired⟩ := he
  have hauthentic : c.authentic token ≠ .error e := by
    unfold authentic
    repeat' first
      | (refine bind_ne_error ?_ fun _ => ?_)
      | split
      | (intro h; cases h; contradiction)
      | (intro h; cases h)
  unfold decode
  repeat' first
    | exact hauthentic
    | (refine bind_ne_error ?_ fun _ => ?_)
    | split
    | (intro h; cases h; contradiction)
    | (intro h; cases h)

theorem verify_ne_error {e : AuthError} (he : ¬ OfToken e) (c : TokenConfig) (kind : TokenKind)
    (now : Instant) (token : String) : c.verify kind now token ≠ .error e := by
  unfold verify
  refine bind_ne_error (decode_ne_error he c (some now) token) fun claims => ?_
  split
  · intro h
    cases h
    exact he (Or.inr (Or.inl rfl))
  · intro h
    cases h

/-- No token says of itself that it has been revoked. -/
theorem verify_ne_blacklisted (c : TokenConfig) (kind : TokenKind) (now : Instant)
    (token : String) : c.verify kind now token ≠ .error .tokenBlacklisted :=
  verify_ne_error (by simp [OfToken]) c kind now token

theorem nanos_of_peek {claims : Claims} {token : String} (h : c.peek token = .ok claims) :
    claims.expiresAt.nanos = 0 := by
  obtain ⟨p, -, -, -, -, hclaims⟩ := decode_eq_ok_iff.1 h
  exact (second_expiresAt hclaims).2

/-- Whoever can read a token reads the same claims in it. -/
theorem claims_unique {claims claims' : Claims} {token : String} (h : c.peek token = .ok claims)
    (h' : c'.peek token = .ok claims') : claims = claims' := by
  obtain ⟨p, hauthentic, -, -, -, hclaims⟩ := decode_eq_ok_iff.1 h
  obtain ⟨p', hauthentic', -, -, -, hclaims'⟩ := decode_eq_ok_iff.1 h'
  -- Both have read the payload that the token states.
  have hstated := statedPayload?_of_authentic hauthentic
  rw [statedPayload?_of_authentic hauthentic'] at hstated
  obtain rfl := Option.some.inj hstated
  exact Option.some.inj (hclaims.symm.trans hclaims')

/-! ## Minted tokens -/

variable {kind : TokenKind} {user : UserId} {username : String} {now expiresAt : Instant}
variable {tokenId : String} {claims : Claims}

/-- The times of instants are 64-bit numbers. -/
theorem inRange_payload (c : TokenConfig) (kind : TokenKind) (user : UserId) (username : String)
    (now expiresAt : Instant) (tokenId : String) :
    (c.payload kind user username now expiresAt tokenId).InRange := by
  have hnow := now.second_range
  have hnanos := now.nanos_lt
  have hexpires := expiresAt.second_range
  have hbound : (Text.Decimal.int64Bound : Int) = 9223372036854775808 := rfl
  refine ⟨?_, ?_, ?_⟩
  · simp only [payload, hbound]
    omega
  · simp only [payload, hbound]
    omega
  · intro n hn
    obtain rfl : now.millis = n := Option.some.inj hn
    simp only [Instant.millis, hbound]
    omega

/-- Whoever accepts a minted token has read the payload that was minted. -/
theorem claims?_of_decode_mint {time : Option Instant}
    (h : c'.decode time (c.mint (c.payload kind user username now expiresAt tokenId)) =
      .ok claims) :
    (c.payload kind user username now expiresAt tokenId).claims? = some claims := by
  obtain ⟨p, hauthentic, -, -, -, hclaims⟩ := decode_eq_ok_iff.1 h
  have hstated := statedPayload?_of_authentic hauthentic
  rw [statedPayload?_mint c (inRange_payload ..)] at hstated
  obtain rfl := Option.some.inj hstated
  exact hclaims

/-- Whoever accepts a minted token learns what it was minted for: its times are the real ones,
rounded down to the millisecond and to the second. -/
theorem stated_of_decode_mint {time : Option Instant}
    (h : c'.decode time (c.mint (c.payload kind user username now expiresAt tokenId)) =
      .ok claims) :
    claims.user = user ∧ claims.username = username ∧ claims.tokenId = tokenId ∧
      claims.kind = kind ∧ Instant.ofMillis? now.millis = some claims.issuedAt ∧
      claims.expiresAt.second = expiresAt.second := by
  have hclaims := claims?_of_decode_mint h
  obtain ⟨huser, hissued, -, hname, hid, hkind⟩ := claims?_eq_some_iff.1 hclaims
  rw [payload, UserId.read_text] at huser
  exact ⟨(Option.some.inj huser).symm, hname.symm, hid.symm, hkind.symm, hissued,
    (second_expiresAt hclaims).1⟩

/-- Whoever accepts a token that was minted outside of a leap second learns a time of issue that is
not after the real one. -/
theorem issuedAt_le_of_decode_mint {time : Option Instant} (hp : now.Plain)
    (h : c'.decode time (c.mint (c.payload kind user username now expiresAt tokenId)) =
      .ok claims) : claims.issuedAt ≤ now := by
  obtain ⟨-, -, -, -, hissued, -⟩ := stated_of_decode_mint h
  obtain ⟨issuedAt, hmillis, hle, -⟩ := Instant.ofMillis?_millis hp
  obtain rfl : issuedAt = claims.issuedAt := Option.some.inj (hmillis.symm.trans hissued)
  exact hle

/-- The issuer reads what it has minted, to the millisecond and the second, unless it expires before
1970. -/
theorem peek_mint (c : TokenConfig) (kind : TokenKind) (user : UserId) (username : String)
    (tokenId : String) {issued expires : Instant}
    (hissued : Instant.ofMillis? now.millis = some issued)
    (hexpires : Instant.ofSeconds? expiresAt.second = some expires)
    (hpos : 0 ≤ expiresAt.second) :
    c.peek (c.mint (c.payload kind user username now expiresAt tokenId)) =
      .ok { user, username, tokenId, kind, issuedAt := issued, expiresAt := expires } := by
  have hclaims : (c.payload kind user username now expiresAt tokenId).claims? =
      some { user, username, tokenId, kind, issuedAt := issued, expiresAt := expires } := by
    refine claims?_eq_some_iff.2 ⟨?_, hissued, hexpires, rfl, rfl, rfl⟩
    rw [payload, UserId.read_text]
    rfl
  exact decode_eq_ok_iff.2
    ⟨_, authentic_mint c (inRange_payload ..), hpos, by simp, ⟨rfl, rfl⟩, hclaims⟩

end TokenConfig

end Bearer
