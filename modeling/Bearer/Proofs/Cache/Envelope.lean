/-
  Cached values read back.

  What a service caches, it or another instance finds again as it was: the text
  of a value states its kind and version, and holds a record with the fields of
  the kind.

  A text is read twice, once for its label and once for its data, and a reader
  takes the items of an array for the fields of a record.  The two readings want
  two items and one, so no array is read in both, and what is decoded at all is
  an object that is labelled with its kind.

  Main statements: `decode_encode`, `decode_encode_of_ne`, `decode_eq_ok_iff` and
  `kinds_apart`.
-/
import Bearer.Cache.Envelope
import Bearer.Proofs.Json.Members
import Bearer.Proofs.Json.RoundTrip
import Bearer.Proofs.Time.Rfc3339

namespace Bearer.Envelope

open Json (Value)

theorem instant?_instant (t : Instant) : instant? (instant t) = some t := by
  simp only [instant?, instant, Value.text?_text, Option.bind_some, Rfc3339.read?_text]

/-! ## The data of each kind -/

theorem session?_session (s : Session) : session? (session s) = some s := by
  have hmembers : (session s).members?
      ["id", "user_id", "refresh_token", "expires_at", "created_at"] =
      some [some (.nat s.id.toNat), some (.nat s.user.number.toNat), some (.text s.refreshToken),
        some (instant s.expiresAt), some (instant s.createdAt)] := by
    simp [session, Value.members?, Value.record]
  simp only [session?, hmembers, Option.bind_eq_bind, Option.bind_some, Value.word?_nat,
    instant?_instant, Value.text?_text]

theorem revocation?_revocation (r : Revocation) : revocation? (revocation r) = some r := by
  have hmembers : (revocation r).members? ["token_id", "expires_at", "created_at"] =
      some [some (.text r.tokenId), some (instant r.expiresAt), some (instant r.createdAt)] := by
    simp [revocation, Value.members?, Value.record]
  simp only [revocation?, hmembers, Option.bind_eq_bind, Option.bind_some, instant?_instant,
    Value.text?_text]

theorem cutoff?_cutoff (c : Cutoff) : cutoff? (cutoff c) = some c := by
  have hmembers : (cutoff c).members? ["user_id", "revoked_before"] =
      some [some (.nat c.user.number.toNat), some (instant c.revokedBefore)] := by
    simp [cutoff, Value.members?, Value.record]
  simp only [cutoff?, hmembers, Option.bind_eq_bind, Option.bind_some, instant?_instant,
    Value.word?_nat]

theorem content?_content (kind : Kind) (value : kind.Content) :
    content? kind (content kind value) = some value := by
  cases kind with
  | session => exact session?_session value
  | revocation => exact revocation?_revocation value
  | cutoff => exact cutoff?_cutoff value

theorem integral_content (kind : Kind) (value : kind.Content) : (content kind value).Integral := by
  have hrecord : ∀ members : List (String × Value), (∀ m ∈ members, m.2.Integral) →
      (Value.record members).Integral := fun _ h => Value.integral_record h
  cases kind <;> apply hrecord <;>
    simp [Value.integral_nat, Value.integral_text, instant]

/-! ## The whole text -/

/-- The JSON value that a value of a kind is cached as. -/
def whole (kind : Kind) (value : kind.Content) : Value :=
  .record [("v", .nat Kind.version), ("kind", .text kind.name), ("data", content kind value)]

theorem encode_eq_render (kind : Kind) (value : kind.Content) :
    encode kind value = (whole kind value).render := rfl

theorem label?_whole (kind : Kind) (value : kind.Content) :
    label? (whole kind value) = some (Kind.version, kind.name) := by
  have hmembers : (whole kind value).members? ["v", "kind"] =
      some [some (.nat Kind.version), some (.text kind.name)] := by
    simp [whole, Value.members?, Value.record]
  have hversion : (Value.nat Kind.version).intIn? 0 UInt16.size = some 1 :=
    Value.intIn?_int (n := 1) (by decide) (by decide)
  simp only [label?, hmembers, Option.bind_eq_bind, Option.bind_some, hversion,
    Value.text?_text]
  rfl

theorem data?_whole (kind : Kind) (value : kind.Content) :
    data? (whole kind value) = some (content kind value) := by
  have hmembers : (whole kind value).members? ["data"] = some [some (content kind value)] := by
    simp [whole, Value.members?, Value.record]
  simp only [data?, hmembers, Option.bind_eq_bind, Option.bind_some]

theorem integral_whole (kind : Kind) (value : kind.Content) : (whole kind value).Integral := by
  apply Value.integral_record
  simp [Value.integral_nat, Value.integral_text, integral_content]

/-- A cached text holds what was encoded. -/
theorem decode_encode (kind : Kind) (value : kind.Content) :
    decode kind (encode kind value) = .ok value := by
  rw [encode_eq_render]
  simp only [decode, Json.readText?_render (integral_whole kind value), label?_whole, data?_whole,
    Option.bind_some, content?_content, ne_eq, not_true_eq_false, or_self, if_false]
  rfl

theorem name_injective {kind other : Kind} (h : kind.name = other.name) : kind = other := by
  revert h
  cases kind <;> cases other <;> decide

/-- A cached text of one kind is refused as one of another. -/
theorem decode_encode_of_ne {kind other : Kind} (hne : other ≠ kind) (value : kind.Content) :
    decode other (encode kind value) =
      .error (.mismatch other.name Kind.version kind.name Kind.version) := by
  have hname : kind.name ≠ other.name := fun h => hne (name_injective h).symm
  rw [encode_eq_render]
  simp only [decode, Json.readText?_render (integral_whole kind value), label?_whole, ne_eq, hname,
    not_false_eq_true, true_or, if_true]
  rfl

/-! ## What is decoded at all -/

section

open Json

variable {members : List (Option String × Value)} {kind : Kind} {v data : Value}

/-- Whether an object is labelled with a kind: one member states the kind, and one its version. -/
structure Labelled (kind : Kind) (members : List (Option String × Value)) : Prop where
  kind : States members "kind" (.text kind.name)
  version : ∃ v, States members "v" v ∧ v.int? = some (Kind.version : Int)

theorem intIn?_eq_some_iff {low high n : Int} :
    v.intIn? low high = some n ↔ v.int? = some n ∧ low ≤ n ∧ n < high := by
  simp [Value.intIn?, Option.filter_eq_some_iff]

theorem label?_object_eq_some_iff {version : Nat} {name : String} :
    label? (.object members) = some (version, name) ↔
      (∀ m ∈ members, m.1.isSome) ∧ States members "kind" (.text name) ∧
        ∃ v, States members "v" v ∧ v.int? = some (version : Int) ∧ version < UInt16.size := by
  constructor
  · intro h
    obtain ⟨fields, hfields, h⟩ := Option.bind_eq_some_iff.1 h
    obtain ⟨htexts, htold⟩ := members?_eq_some_iff.1 hfields
    split at h
    · simp only [List.forall₂_cons, Tells] at htold
      obtain ⟨hversion, hkind, -⟩ := htold
      simp only [Option.bind_eq_bind, Option.bind_eq_some_iff, intIn?_eq_some_iff,
        text?_eq_some_iff, Option.some.injEq, Prod.mk.injEq] at h
      obtain ⟨n, ⟨hint, hlow, hhigh⟩, name, rfl, rfl, rfl⟩ := h
      refine ⟨htexts, hkind, _, hversion, ?_, by omega⟩
      rw [hint, Int.toNat_of_nonneg hlow]
    · cases h
  · rintro ⟨htexts, hkind, v, hversion, hint, hbound⟩
    have hfields : (Value.object members).members? ["v", "kind"] =
        some [some v, some (.text name)] := by
      rw [members?_eq_some_iff]
      simp only [List.forall₂_cons, Tells]
      exact ⟨htexts, hversion, hkind, .nil⟩
    have hin : v.intIn? 0 UInt16.size = some (version : Int) :=
      intIn?_eq_some_iff.2 ⟨hint, Int.natCast_nonneg version, by exact_mod_cast hbound⟩
    simp only [label?, hfields, hin, Option.bind_eq_bind, Option.bind_some, Value.text?_text,
      Int.toNat_natCast]

theorem data?_object_eq_some_iff :
    data? (.object members) = some data ↔
      (∀ m ∈ members, m.1.isSome) ∧ States members "data" data := by
  constructor
  · intro h
    obtain ⟨fields, hfields, h⟩ := Option.bind_eq_some_iff.1 h
    obtain ⟨htexts, htold⟩ := members?_eq_some_iff.1 hfields
    split at h
    · obtain rfl := h
      simp only [List.forall₂_cons, Tells] at htold
      exact ⟨htexts, htold.1⟩
    · cases h
  · rintro ⟨htexts, hdata⟩
    have hfields : (Value.object members).members? ["data"] = some [some data] := by
      rw [members?_eq_some_iff]
      simp only [List.forall₂_cons, Tells]
      exact ⟨htexts, hdata, .nil⟩
    simp only [data?, hfields, Option.bind_eq_bind, Option.bind_some]

/-- The label wants two items of an array, the data one: a value that has both is an object. -/
theorem object_of_label?_of_data? {label : Nat × String} (hlabel : label? v = some label)
    (hdata : data? v = some data) : ∃ members, v = .object members := by
  obtain ⟨fields, hfields, -⟩ := Option.bind_eq_some_iff.1 hlabel
  obtain ⟨others, hothers, -⟩ := Option.bind_eq_some_iff.1 hdata
  cases v with
  | object members => exact ⟨members, rfl⟩
  | array items =>
    obtain ⟨htwo, -⟩ := Option.ite_none_right_eq_some.1 hfields
    obtain ⟨hone, -⟩ := Option.ite_none_right_eq_some.1 hothers
    exact absurd (htwo.symm.trans hone) (by decide)
  | _ => cases hfields

/-- A text is decoded as a kind just when it is an object that is labelled with the kind and states
the data once, whatever other members it has. -/
theorem decode_eq_ok_iff {text : String} {value : kind.Content} :
    decode kind text = .ok value ↔ ∃ members data,
      readText? text = some (.object members) ∧ (∀ m ∈ members, m.1.isSome) ∧
        Labelled kind members ∧ States members "data" data ∧ content? kind data = some value := by
  constructor
  · intro h
    obtain ⟨v, hread⟩ : ∃ v, readText? text = some v := by
      refine Option.ne_none_iff_exists'.1 fun hnone => ?_
      rw [decode, hnone] at h
      cases h
    obtain ⟨⟨version, name⟩, hlabel⟩ : ∃ label, label? v = some label := by
      refine Option.ne_none_iff_exists'.1 fun hnone => ?_
      simp only [decode, hread, hnone] at h
      cases h
    obtain ⟨rfl, rfl⟩ : name = kind.name ∧ version = Kind.version := by
      by_contra hother
      simp only [decode, hread, hlabel, ne_eq, not_and_or.1 hother, if_true] at h
      cases h
    obtain ⟨content, hcontent⟩ : ∃ content, (data? v).bind (content? kind) = some content := by
      refine Option.ne_none_iff_exists'.1 fun hnone => ?_
      simp only [decode, hread, hlabel, hnone, ne_eq, not_true_eq_false, or_self, if_false] at h
      cases h
    obtain rfl : content = value := by
      simp only [decode, hread, hlabel, hcontent, ne_eq, not_true_eq_false, or_self, if_false] at h
      exact Except.ok.inj h
    obtain ⟨data, hdata, hheld⟩ := Option.bind_eq_some_iff.1 hcontent
    obtain ⟨members, rfl⟩ := object_of_label?_of_data? hlabel hdata
    obtain ⟨htexts, hkind, v, hversion, hint, -⟩ := label?_object_eq_some_iff.1 hlabel
    exact ⟨members, data, hread, htexts, ⟨hkind, v, hversion, hint⟩,
      (data?_object_eq_some_iff.1 hdata).2, hheld⟩
  · rintro ⟨members, data, hread, htexts, hlabelled, hdata, hcontent⟩
    obtain ⟨v, hversion, hint⟩ := hlabelled.version
    have hlabel : label? (.object members) = some (Kind.version, kind.name) :=
      label?_object_eq_some_iff.2 ⟨htexts, hlabelled.kind, v, hversion, hint, by decide⟩
    have hdata : data? (.object members) = some data := data?_object_eq_some_iff.2 ⟨htexts, hdata⟩
    simp only [decode, hread, hlabel, hdata, Option.bind_some, hcontent, ne_eq,
      not_true_eq_false, or_self, if_false]
    rfl

/-- What is cached of a kind is decoded as it was and is refused as any other kind, and whatever is
decoded as a kind is an object, labelled with that kind and its version and with no other. -/
theorem kinds_apart (kind : Kind) :
    (∀ value, decode kind (encode kind value) = .ok value) ∧
      (∀ value other, other ≠ kind →
        (decode other (encode kind value)).mapError CacheError.codec =
          .error (.codec (.mismatch other.name Kind.version kind.name Kind.version))) ∧
      ∀ text value, decode kind text = .ok value →
        Opens (text.toList.map some) ∧
          ∃ members, readText? text = some (.object members) ∧ Labelled kind members := by
  refine ⟨decode_encode kind, ?refused, ?labelled⟩
  case refused =>
    intro value other hne
    rw [decode_encode_of_ne hne]
    rfl
  case labelled =>
    intro text value h
    obtain ⟨members, data, hread, -, hlabelled, -⟩ := decode_eq_ok_iff.1 h
    exact ⟨opens_of_readText? hread, members, hread, hlabelled⟩

/-- A cutoff with its members in another order, with one that nobody reads, and with its data as an
array. -/
def reordered : String :=
  " \x7b\"kind\": \"revocation_cutoff\", \"note\": [1e400], " ++
    "\"data\": [7, \"1970-01-01T00:00:00Z\"], \"v\": 1\x7d"

theorem kinds_apart_reordered :
    (Kind.session ≠ Kind.cutoff ∧
      (decode .session (encode .cutoff ⟨⟨7⟩, .epoch⟩)).mapError CacheError.codec =
        .error (.codec (.mismatch "session" 1 "revocation_cutoff" 1))) ∧
      decode .cutoff reordered = .ok ⟨⟨7⟩, .epoch⟩ ∧ Opens (reordered.toList.map some) ∧
        ∃ members, readText? reordered = some (.object members) ∧ Labelled .cutoff members := by
  have hread : decode .cutoff reordered = .ok ⟨⟨7⟩, .epoch⟩ := by decide +kernel
  obtain ⟨-, hrefused, hlabelled⟩ := kinds_apart .cutoff
  exact ⟨⟨by decide, hrefused ⟨⟨7⟩, .epoch⟩ .session (by decide)⟩, hread,
    hlabelled reordered ⟨⟨7⟩, .epoch⟩ hread⟩

end

end Bearer.Envelope
