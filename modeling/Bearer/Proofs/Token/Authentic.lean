/-
  What an accepted token is.

  Reading a token never asks what it was minted of, so what an accepted token is
  has to be said of its text: two points cut it into three parts, the last of
  which is the keyed hash of what comes before it, and header and payload are
  JSON that states the algorithm and, member by member, the claims.  Each test
  of the reader has its counterpart in that description, which makes it exact: a
  token is accepted just when it is like that, and otherwise the verdict is one
  of the three that a token can have.

  Main statements: `splitLast?_eq_some_iff`, `Payload.ofJson?_eq_some_iff`,
  `authentic_eq_ok_iff` and `accepted_iff_genuine`.
-/
import Bearer.Proofs.Json.Members
import Bearer.Proofs.Token.RoundTrip

namespace Bearer

theorem TokenKind.ofName?_eq_some_iff {name : String} {kind : TokenKind} :
    ofName? name = some kind ↔ name = kind.name := by
  constructor
  · intro h
    unfold ofName? at h
    split at h <;> cases h <;> rfl
  · rintro rfl
    exact ofName?_name kind

/-! ## Names spelt by values -/

namespace Json

open Value

variable {name : String} {v : Value}

/-- Whether a value spells a name: a string, or an object with nothing but a null member. -/
def Spells (v : Value) (name : String) : Prop :=
  v = .text name ∨ v = .object [(some name, .null)]

theorem Spells.unique {other : String} (h : Spells v name) (h' : Spells v other) :
    name = other := by
  rcases h with rfl | rfl
  · rcases h' with h' | h'
    · exact Option.some.inj (Value.string.inj h')
    · cases h'
  · rcases h' with h' | h'
    · cases h'
    · cases h'
      rfl

end Json

namespace Token

open Json

/-! ## Headers -/

/-- Whether a header names an algorithm: in the member `alg`, or in the second place of a list of
the members. -/
def NamesAlgorithm (header : Value) (name : String) : Prop :=
  ∃ stated, Spells stated name ∧
    ((∃ members, header = .object members ∧ States members "alg" stated) ∨
      ∃ typ rest, header = .array (typ :: stated :: rest))

theorem NamesAlgorithm.unique {header : Value} {name other : String}
    (h : NamesAlgorithm header name) (h' : NamesAlgorithm header other) : name = other := by
  obtain ⟨stated, hname, hheader⟩ := h
  obtain ⟨stated', hother, hheader'⟩ := h'
  have heq : stated = stated' := by
    rcases hheader with ⟨members, rfl, hstates⟩ | ⟨typ, rest, rfl⟩
    · rcases hheader' with ⟨members', hmembers, hstates'⟩ | ⟨typ, rest, hlist⟩
      · cases hmembers
        exact hstates.unique hstates'
      · cases hlist
    · rcases hheader' with ⟨members', hmembers, -⟩ | ⟨typ, rest, hlist⟩
      · cases hmembers
      · cases hlist
        rfl
  exact hname.unique (heq ▸ hother)

/-- The algorithm that is read off a header is the one that the header names. -/
theorem namesAlgorithm_of_headerAlgorithm? {header : Value} {name : String}
    (h : headerAlgorithm? header = some name) : NamesAlgorithm header name := by
  obtain ⟨fields, hfields, h⟩ := Option.bind_eq_some_iff.1 h
  split at h
  · next typ stated cty jku key kid x5u certificates x5t x5t256 =>
    dsimp only at h
    have hspells : Spells stated name := by
      split at h
      · next found =>
        obtain rfl := Option.some.inj (Option.ite_none_right_eq_some.1 h).2
        exact Or.inl rfl
      · next found =>
        obtain rfl := Option.some.inj (Option.ite_none_right_eq_some.1 h).2
        exact Or.inr rfl
      · cases h
    refine ⟨stated, hspells, ?_⟩
    cases header with
    | object members =>
      have htold := (members?_eq_some_iff.1 hfields).2
      simp only [List.forall₂_cons] at htold
      exact Or.inl ⟨members, rfl, htold.2.1⟩
    | array items =>
      rw [Value.members?] at hfields
      split at hfields
      · have hitems := Option.some.inj hfields
        obtain ⟨first, items, rfl, -, hitems⟩ := List.map_eq_cons_iff.1 hitems
        obtain ⟨second, items, rfl, hsecond, -⟩ := List.map_eq_cons_iff.1 hitems
        obtain rfl := Option.some.inj hsecond
        exact Or.inr ⟨first, items, rfl⟩
      · cases hfields
    | _ => cases hfields
  · cases h

theorem headerAlgorithm?_eq_some_iff {header : Value} {name : String} :
    headerAlgorithm? header = some name ↔
      (headerAlgorithm? header).isSome ∧ NamesAlgorithm header name := by
  constructor
  · intro h
    exact ⟨by rw [h]; rfl, namesAlgorithm_of_headerAlgorithm? h⟩
  · rintro ⟨hsome, hnames⟩
    obtain ⟨stated, hstated⟩ := Option.isSome_iff_exists.1 hsome
    rw [hstated, (namesAlgorithm_of_headerAlgorithm? hstated).unique hnames]

/-! ## Payloads -/

namespace Payload

variable {v : Value} {p : Payload}

theorem kind?_eq_some_iff {kind : TokenKind} : kind? v = some kind ↔ Spells v kind.name := by
  constructor
  · intro h
    unfold kind? at h
    split at h
    · exact Or.inl (by rw [TokenKind.ofName?_eq_some_iff.1 h]; rfl)
    · exact Or.inr (by rw [TokenKind.ofName?_eq_some_iff.1 h])
    · cases h
  · rintro (rfl | rfl) <;> exact TokenKind.ofName?_name kind

/-- Whether a member that may be missing or null tells a time in milliseconds. -/
def TellsMillis (found : Option Value) : Option Int → Prop
  | none => found = none ∨ found = some .null
  | some n => ∃ v, found = some v ∧ v.int64? = some n

theorem millis?_eq_some_iff {found : Option Value} {millis : Option Int} :
    millis? found = some millis ↔ TellsMillis found millis := by
  cases millis with
  | none =>
    unfold millis? TellsMillis
    split <;> simp_all
  | some n =>
    unfold millis? TellsMillis
    split
    · simp
    · simp [Value.int64?, Value.intIn?, Value.int?]
    · simp

/-- Whether the members of an object state a payload: each claim in one member of the right type,
and nothing in the way of reading the others. -/
structure StatedBy (p : Payload) (members : List (Option String × Value)) : Prop where
  texts : ∀ m ∈ members, m.1.isSome
  subject : States members "sub" (.text p.subject)
  name : States members "name" (.text p.name)
  kind : ∃ v, States members "typ" v ∧ Spells v p.kind.name
  expiry : ∃ v, States members "exp" v ∧ v.int64? = some p.expiry
  issued : ∃ v, States members "iat" v ∧ v.int64? = some p.issued
  issuedMillis : ∃ found, Tells members "iat_ms" found ∧ TellsMillis found p.issuedMillis
  issuer : States members "iss" (.text p.issuer)
  audience : States members "aud" (.text p.audience)
  tokenId : States members "jti" (.text p.tokenId)
  notBefore : ∃ found, Tells members "nbf" found ∧ found.all canPassOver = true

/-- A payload is read off an object just when its members state it. -/
theorem ofJson?_eq_some_iff :
    ofJson? v = some p ↔ ∃ members, v = .object members ∧ p.StatedBy members := by
  constructor
  · intro h
    unfold ofJson? at h
    split at h
    on_goal 2 => cases h
    next members =>
    simp only [Option.bind_eq_bind, Option.bind_some] at h
    obtain ⟨fields, hfields, h⟩ := Option.bind_eq_some_iff.1 h
    obtain ⟨htexts, htold⟩ := members?_eq_some_iff.1 hfields
    split at h
    · simp only [List.forall₂_cons, Tells] at htold
      obtain ⟨hsub, hname, htyp, hexp, hiat, hmillis, hiss, haud, hjti, hnbf, -⟩ := htold
      simp only [Option.bind_eq_some_iff, text?_eq_some_iff,
        kind?_eq_some_iff, millis?_eq_some_iff, Option.ite_none_right_eq_some,
        Option.some.injEq] at h
      obtain ⟨subject, rfl, name, rfl, kind, hkind, expiry, hexpiry, issued, hissued, millis,
        htells, issuer, rfl, audience, rfl, tokenId, rfl, hpass, rfl⟩ := h
      exact ⟨members, rfl, htexts, hsub, hname, ⟨_, htyp, hkind⟩, ⟨_, hexp, hexpiry⟩,
        ⟨_, hiat, hissued⟩, ⟨_, hmillis, htells⟩, hiss, haud, hjti, ⟨_, hnbf, hpass⟩⟩
    · cases h
  · rintro ⟨members, rfl, h⟩
    obtain ⟨kind, hkind, hspells⟩ := h.kind
    obtain ⟨expiry, hexp, hexpiry⟩ := h.expiry
    obtain ⟨issued, hiat, hissued⟩ := h.issued
    obtain ⟨millis, hmillis, htells⟩ := h.issuedMillis
    obtain ⟨notBefore, hnbf, hpass⟩ := h.notBefore
    have hfields : (Value.object members).members?
        ["sub", "name", "typ", "exp", "iat", "iat_ms", "iss", "aud", "jti", "nbf"] =
        some [some (.text p.subject), some (.text p.name), some kind, some expiry, some issued,
          millis, some (.text p.issuer), some (.text p.audience), some (.text p.tokenId),
          notBefore] := by
      rw [members?_eq_some_iff]
      simp only [List.forall₂_cons, Tells]
      exact ⟨h.texts, h.subject, h.name, hkind, hexp, hiat, hmillis, h.issuer, h.audience,
        h.tokenId, hnbf, .nil⟩
    simp only [ofJson?, hfields, Option.bind_eq_bind, Option.bind_some, Value.text?_text,
      kind?_eq_some_iff.2 hspells, hexpiry, hissued, millis?_eq_some_iff.2 htells, hpass, if_true]

/-- Whether claims are what a payload means: the time of issue in milliseconds counts where it is
stated. -/
structure Means (p : Payload) (claims : Claims) : Prop where
  user : UserId.read p.subject = .ok claims.user
  username : p.name = claims.username
  tokenId : p.tokenId = claims.tokenId
  kind : p.kind = claims.kind
  issuedAt : match p.issuedMillis with
    | some n => Instant.ofMillis? n = some claims.issuedAt
    | none => Instant.ofSeconds? p.issued = some claims.issuedAt
  expiresAt : Instant.ofSeconds? p.expiry = some claims.expiresAt

theorem claims?_eq_some_iff_means {claims : Claims} : p.claims? = some claims ↔ p.Means claims := by
  rw [TokenConfig.claims?_eq_some_iff]
  have huser : (UserId.read p.subject).toOption = some claims.user ↔
      UserId.read p.subject = .ok claims.user := by
    cases UserId.read p.subject <;> simp [Except.toOption]
  rw [huser]
  constructor
  · rintro ⟨huser, hissued, hexpires, hname, hid, hkind⟩
    refine ⟨huser, hname, hid, hkind, ?_, hexpires⟩
    cases hmillis : p.issuedMillis <;> rw [hmillis] at hissued <;> exact hissued
  · rintro ⟨huser, hname, hid, hkind, hissued, hexpires⟩
    refine ⟨huser, ?_, hexpires, hname, hid, hkind⟩
    cases hmillis : p.issuedMillis <;> rw [hmillis] at hissued <;> exact hissued

end Payload

/-! ## Parts -/

/-- A text that cannot be cut lacks the character. -/
theorem not_mem_of_splitLast? {c : Char} {s : List Char} (h : splitLast? c s = none) : c ∉ s := by
  induction s with
  | nil => simp
  | cons d s ih =>
    rw [splitLast?] at h
    split at h
    · cases h
    · next hrest =>
      split at h
      · cases h
      · next hd =>
        rw [List.mem_cons, not_or]
        exact ⟨Ne.symm hd, ih hrest⟩

/-- A text is cut where no other such character follows. -/
theorem splitLast?_eq_some_iff {c : Char} {s before after : List Char} :
    splitLast? c s = some (before, after) ↔ s = before ++ c :: after ∧ c ∉ after := by
  constructor
  · intro h
    induction s generalizing before with
    | nil => cases h
    | cons d s ih =>
      rw [splitLast?] at h
      split at h
      · next hrest =>
        cases h
        obtain ⟨hs, hafter⟩ := ih hrest
        exact ⟨by rw [hs]; rfl, hafter⟩
      · next hrest =>
        split at h
        · next hd =>
          cases h
          exact ⟨by rw [hd]; rfl, not_mem_of_splitLast? hrest⟩
        · cases h
  · rintro ⟨rfl, hafter⟩
    exact splitLast?_append before hafter

/-- Only characters of the alphabet are read as bytes. -/
theorem value?_isSome_of_decode {a : Text.Base64.Alphabet} {s : List Char} {bytes : List UInt8}
    (h : Text.Base64.decode a s = some bytes) : ∀ c ∈ s, (a.value? c).isSome := by
  -- The text is read four characters at a time, so the cases are the characters left at the end.
  fun_induction Text.Base64.decode a s generalizing bytes with
  | case1 => simp
  | case2 c => cases h
  | case3 p q =>
    simp only [Option.bind_eq_bind, Option.bind_eq_some_iff] at h
    obtain ⟨_, hp, _, hq, -⟩ := h
    simp [hp, hq]
  | case4 p q r =>
    simp only [Option.bind_eq_bind, Option.bind_eq_some_iff] at h
    obtain ⟨_, hp, _, hq, _, hr, -⟩ := h
    simp [hp, hq, hr]
  | case5 p q r s rest ih =>
    simp only [Option.bind_eq_bind, Option.bind_eq_some_iff] at h
    obtain ⟨_, hp, _, hq, _, hr, _, hs, _, hrest, -⟩ := h
    simpa [hp, hq, hr, hs] using ih hrest

/-- No point occurs in a part that can be read. -/
theorem point_not_mem_of_partJson? {part : List Char} {v : Value} (h : partJson? part = some v) :
    '.' ∉ part := by
  obtain ⟨bytes, hbytes, -⟩ := Option.bind_eq_some_iff.1 h
  intro hmem
  have hvalue := value?_isSome_of_decode hbytes '.' hmem
  have hnone : Text.Base64.urlSafe.value? '.' = none := by decide
  rw [hnone] at hvalue
  cases hvalue

/-- Which texts the parts of a token are. -/
theorem Parts.ofText?_eq_some_iff {token : List Char} {parts : Parts} :
    Parts.ofText? token = some parts ↔
      (token = parts.signed ++ '.' :: parts.signature ∧ '.' ∉ parts.signature) ∧
        parts.signed = parts.header ++ '.' :: parts.payload ∧ '.' ∉ parts.payload := by
  simp only [Parts.ofText?, Option.bind_eq_bind, Option.bind_eq_some_iff, Option.some.injEq,
    Prod.exists, splitLast?_eq_some_iff]
  constructor
  · rintro ⟨signed, signature, htoken, header, payload, hsigned, rfl⟩
    exact ⟨htoken, hsigned⟩
  · rintro ⟨htoken, hsigned⟩
    exact ⟨_, _, htoken, _, _, hsigned, rfl⟩

/-- Whether three texts are the header, the payload and the signature that a key makes for them. -/
structure Sealed (key : List UInt8) (header payload mac : List Char) (p : Payload) : Prop where
  mac : mac = base64 (Crypto.hmac key (Text.Utf8.encode (header ++ '.' :: payload)))
  header : ∃ v, partJson? header = some v ∧ (headerAlgorithm? v).isSome ∧ NamesAlgorithm v "HS256"
  payload : ∃ members, partJson? payload = some (.object members) ∧ p.StatedBy members

end Token

open Token

/-! ## Accepted tokens -/

namespace TokenConfig

variable {c : TokenConfig} {token : String} {p : Payload} {claims : Claims}

/-- A token is found authentic just when points cut it into three parts that the key seals. -/
theorem authentic_eq_ok_iff :
    c.authentic token = .ok p ↔
      ∃ header payload mac, token.toList = header ++ '.' :: payload ++ '.' :: mac ∧
        Sealed c.signingKey header payload mac p := by
  constructor
  · intro h
    cases hparts : Parts.ofText? token.toList with
    | none => simp [authentic, hparts, throw, throwThe, MonadExceptOf.throw] at h
    | some parts =>
      obtain ⟨⟨htoken, -⟩, hsigned, -⟩ := Parts.ofText?_eq_some_iff.1 hparts
      simp only [authentic, hparts] at h
      -- The reader's tests in their order: the header, its algorithm, the signature, the payload.
      split at h
      on_goal 2 => cases h
      next stated hstated =>
      split at h
      · cases h
      next halgorithm =>
      split at h
      · cases h
      next hmac =>
      split at h
      on_goal 2 => cases h
      next payload hpayload =>
      cases h
      rw [Decidable.not_not] at halgorithm hmac
      rw [hsigned] at hmac htoken
      obtain ⟨v, hv, hnamed⟩ := Option.bind_eq_some_iff.1 hstated
      rw [halgorithm] at hnamed
      obtain ⟨w, hw, hread⟩ := Option.bind_eq_some_iff.1 hpayload
      obtain ⟨members, rfl, hstates⟩ := Payload.ofJson?_eq_some_iff.1 hread
      exact ⟨parts.header, parts.payload, parts.signature, htoken, hmac,
        ⟨v, hv, headerAlgorithm?_eq_some_iff.1 hnamed⟩, members, hw, hstates⟩
  · rintro ⟨header, payload, mac, htoken, hmac, ⟨v, hv, hnamed⟩, members, hw, hstates⟩
    -- No other point can be where the reader cuts.
    have hpoint : '.' ∉ mac := hmac ▸ base64_ne_point _
    have hparts : Parts.ofText? token.toList =
        some ⟨header ++ '.' :: payload, header, payload, mac⟩ :=
      Parts.ofText?_eq_some_iff.2 ⟨⟨htoken, hpoint⟩, rfl, point_not_mem_of_partJson? hw⟩
    have halgorithm : headerAlgorithm? v = some algorithm := headerAlgorithm?_eq_some_iff.2 hnamed
    have hpayload : Payload.ofJson? (.object members) = some p :=
      Payload.ofJson?_eq_some_iff.2 ⟨members, rfl, hstates⟩
    have hsignature : mac = signature c.signingKey (header ++ '.' :: payload) := hmac
    simp only [authentic, hparts, hv, hw, Option.bind_some, halgorithm, hpayload, ne_eq,
      not_true_eq_false, if_false, ← hsignature]
    rfl

/-- Whether a token is genuine: sealed with the key of the settings, made by their issuer for their
audience, with an expiry, and stating the claims. -/
structure Genuine (c : TokenConfig) (token : String) (p : Payload) (claims : Claims) : Prop where
  sealed : ∃ header payload mac, token.toList = header ++ '.' :: payload ++ '.' :: mac ∧
    Sealed c.signingKey header payload mac p
  issuer : p.issuer = c.issuer
  audience : p.audience = c.audience
  expiry : 0 ≤ p.expiry
  meaning : p.Means claims

/-- Whether a verdict is one that a text can have as a token. -/
def Judged {α : Type} (verdict : Except AuthError α) : Prop :=
  (∃ a, verdict = .ok a) ∨ verdict = .error .tokenMalformed ∨ verdict = .error .tokenInvalid ∨
    verdict = .error .tokenExpired

theorem judged_of_ne_error {α : Type} {verdict : Except AuthError α}
    (h : ∀ e, ¬ OfToken e → verdict ≠ .error e) : Judged verdict := by
  cases verdict with
  | ok a => exact Or.inl ⟨a, rfl⟩
  | error e =>
    have hof : OfToken e := by
      by_contra hother
      exact h e hother rfl
    rcases hof with rfl | rfl | rfl
    · exact Or.inr (Or.inl rfl)
    · exact Or.inr (Or.inr (Or.inl rfl))
    · exact Or.inr (Or.inr (Or.inr rfl))

theorem peek_eq_ok_iff_genuine :
    c.peek token = .ok claims ↔ ∃ p, c.Genuine token p claims := by
  rw [peek, decode_eq_ok_iff]
  constructor
  · rintro ⟨p, hauthentic, hexpiry, -, howner, hclaims⟩
    exact ⟨p, authentic_eq_ok_iff.1 hauthentic, howner.1, howner.2, hexpiry,
      Payload.claims?_eq_some_iff_means.1 hclaims⟩
  · rintro ⟨p, hsealed, hissuer, haudience, hexpiry, hmeans⟩
    exact ⟨p, authentic_eq_ok_iff.2 hsealed, hexpiry, by simp, ⟨hissuer, haudience⟩,
      Payload.claims?_eq_some_iff_means.2 hmeans⟩

/-- A token is accepted just when it is genuine, for its kind and until the last second of its
expiry; read it can be at any time and whatever its kind.  Every other text is malformed, invalid or
expired. -/
theorem accepted_iff_genuine (c : TokenConfig) (token : String) :
    (∀ claims, c.peek token = .ok claims ↔ ∃ p, c.Genuine token p claims) ∧
    (∀ kind now claims, c.verify kind now token = .ok claims ↔
      ∃ p, c.Genuine token p claims ∧ p.kind = kind ∧ now.second ≤ p.expiry) ∧
    Judged (c.peek token) ∧ ∀ kind now, Judged (c.verify kind now token) := by
  refine ⟨fun claims => peek_eq_ok_iff_genuine, fun kind now claims => ?_, ?_, fun kind now => ?_⟩
  · rw [verify_eq_ok_iff, peek_eq_ok_iff_genuine]
    -- Kind and expiry are the same in the claims as in the payload that means them.
    have hsame : ∀ p, c.Genuine token p claims →
        (claims.kind = kind ∧ now.second ≤ claims.expiresAt.second ↔
          p.kind = kind ∧ now.second ≤ p.expiry) := by
      intro p hp
      rw [hp.meaning.kind, (second_expiresAt (Payload.claims?_eq_some_iff_means.2 hp.meaning)).1]
    constructor
    · rintro ⟨⟨p, hp⟩, hgood⟩
      exact ⟨p, hp, (hsame p hp).1 hgood⟩
    · rintro ⟨p, hp, hgood⟩
      exact ⟨⟨p, hp⟩, (hsame p hp).2 hgood⟩
  · exact judged_of_ne_error fun e he => decode_ne_error he c none token
  · exact judged_of_ne_error fun e he => verify_ne_error he c kind now token

end TokenConfig
end Bearer
