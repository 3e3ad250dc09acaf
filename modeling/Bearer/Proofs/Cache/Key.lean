/-
  Cache keys name what they belong to.

  A key is a stem, a colon, and what the key belongs to.  No stem holds a colon,
  so a key tells its stem, and no number of a user holds one, so a user's number
  is told from what follows it, and from any longer or shorter number.  Ids of
  tokens and cursors of feeds may be any text: they are the last part of a key.

  The patterns are of one form, a stem, a user's number, a colon and a star, and
  all but the star stands for itself.

  Main statements: `Name.eq_of_key_eq`, `isMatch_below_iff`, `isMatch_userPattern_iff`,
  `isMatch_followPattern_iff` and `keys_apart`.
-/
import Bearer.Cache.Key
import Bearer.Proofs.Text.Decimal
import Bearer.Proofs.Text.Glob

namespace Bearer

theorem UserId.text_injective {a b : UserId} (h : a.text = b.text) : a = b := by
  have hread := UserId.read_text a
  rw [h, UserId.read_text b] at hread
  exact (Except.ok.inj hread).symm

namespace Key

open Text.Glob (isMatch Plain)

/-! ## Texts up to their first colon -/

/-- Two texts before their first colons are equal if they start alike up to there. -/
theorem eq_of_prefix_colon {a b rest : List Char} (ha : ':' ∉ a) (hb : ':' ∉ b)
    (h : a ++ [':'] <+: b ++ ':' :: rest) : a = b := by
  induction a generalizing b with
  | nil =>
    cases b with
    | nil => rfl
    | cons d b =>
      obtain ⟨hd, -⟩ := List.cons_prefix_cons.1 h
      exact absurd (List.mem_cons.2 (Or.inl hd)) hb
  | cons c a ih =>
    cases b with
    | nil =>
      obtain ⟨hc, -⟩ := List.cons_prefix_cons.1 h
      exact absurd (List.mem_cons.2 (Or.inl hc.symm)) ha
    | cons d b =>
      obtain ⟨rfl, hrest⟩ := List.cons_prefix_cons.1 h
      rw [List.mem_cons, not_or] at ha hb
      rw [ih ha.2 hb.2 hrest]

section

variable {a b rest rest' : String}

theorem toList_colon (a rest : String) :
    (a ++ ":" ++ rest).toList = a.toList ++ ':' :: rest.toList := by
  rw [String.toList_append, String.toList_append, List.append_assoc]
  rfl

/-- What starts with a text and a colon has that text before its first colon. -/
theorem colon_prefix_iff (ha : ':' ∉ a.toList) (hb : ':' ∉ b.toList) :
    (a ++ ":" ++ rest).toList <+: (b ++ ":" ++ rest').toList ↔
      a = b ∧ rest.toList <+: rest'.toList := by
  rw [toList_colon, toList_colon]
  constructor
  · intro h
    have hcolon : a.toList ++ [':'] <+: a.toList ++ ':' :: rest.toList := ⟨rest.toList, by simp⟩
    have hsame : a.toList = b.toList := eq_of_prefix_colon ha hb (hcolon.trans h)
    rw [hsame, List.prefix_append_right_inj, List.cons_prefix_cons] at h
    exact ⟨String.toList_inj.1 hsame, h.2⟩
  · rintro ⟨rfl, h⟩
    rw [List.prefix_append_right_inj, List.cons_prefix_cons]
    exact ⟨rfl, h⟩

/-- A text tells what stands before its first colon, and what stands behind it. -/
theorem colon_inj (ha : ':' ∉ a.toList) (hb : ':' ∉ b.toList)
    (h : a ++ ":" ++ rest = b ++ ":" ++ rest') : a = b ∧ rest = rest' := by
  have hprefix : (a ++ ":" ++ rest).toList <+: (b ++ ":" ++ rest').toList :=
    h ▸ List.prefix_refl _
  obtain ⟨rfl, -⟩ := (colon_prefix_iff ha hb).1 hprefix
  have hlists := congrArg String.toList h
  rw [toList_colon, toList_colon] at hlists
  exact ⟨rfl, String.toList_inj.1 (List.cons.inj (List.append_cancel_left hlists)).2⟩

end

theorem isDigit_text (id : UserId) : ∀ c ∈ id.text.toList, Text.Decimal.isDigit c = true := by
  rw [UserId.text, Text.Decimal.natText, String.toList_ofList]
  exact Text.Decimal.isDigit_writeNat _

theorem plain_text (id : UserId) : ∀ c ∈ id.text.toList, Plain c := by
  intro c hc
  have hdigit := isDigit_text id c hc
  refine ⟨?_, ?_, ?_⟩ <;> rintro rfl <;> exact absurd hdigit (by decide)

theorem colon_not_mem_text (id : UserId) : ':' ∉ id.text.toList :=
  fun hmem => absurd (isDigit_text id ':' hmem) (by decide)

theorem text_inj {a b : UserId} : a.text = b.text ↔ a = b :=
  ⟨UserId.text_injective, fun h => h ▸ rfl⟩

/-! ## Keys -/

/-- What a key belongs to. -/
inductive Name where
  | user (id : UserId)
  | session (id : UserId)
  | cutoff (id : UserId)
  | follow (follower followee : UserId)
  | blacklist (tokenId : String)
  | feed (cursor : String)
  deriving DecidableEq, Repr

namespace Name

/-- The key of what it belongs to. -/
def key : Name → String
  | user id => Key.user id
  | session id => Key.session id
  | cutoff id => Key.cutoff id
  | follow follower followee => Key.follow follower followee
  | blacklist tokenId => Key.blacklist tokenId
  | feed cursor => Key.feed cursor

/-- What stands before the first colon of a key. -/
def stem : Name → String
  | user _ | cutoff _ => "user"
  | session _ => "session"
  | follow .. => "follow"
  | blacklist _ => "token"
  | feed _ => "feed"

/-- What stands behind it. -/
def detail : Name → String
  | user id | session id => id.text
  | cutoff id => id.text ++ ":" ++ "revoked_before"
  | follow follower followee => follower.text ++ ":" ++ followee.text
  | blacklist tokenId => "blacklist" ++ ":" ++ tokenId
  | feed cursor => cursor

theorem key_eq (n : Name) : n.key = n.stem ++ ":" ++ n.detail := by
  cases n with
  | cutoff id =>
    simp only [key, stem, detail, Key.cutoff, String.append_assoc]
    rfl
  | follow follower followee =>
    simp only [key, stem, detail, Key.follow, String.append_assoc]
    rfl
  | blacklist tokenId =>
    simp only [key, stem, detail, ← String.append_assoc]
    rfl
  | _ => rfl

theorem colon_not_mem_stem (n : Name) : ':' ∉ n.stem.toList := by
  cases n <;> simp only [stem] <;> decide

/-- A user's number alone holds no colon behind another user's number. -/
theorem text_ne_colon (id other : UserId) (rest : String) :
    id.text ≠ other.text ++ ":" ++ rest := by
  intro h
  have hmem : ':' ∈ id.text.toList := by
    rw [h, toList_colon]
    simp
  exact colon_not_mem_text id hmem

/-- Keys are equal only if they are of one kind and belong to the same. -/
theorem eq_of_key_eq (a b : Name) (h : a.key = b.key) : a = b := by
  rw [key_eq, key_eq] at h
  obtain ⟨hstem, hdetail⟩ := colon_inj a.colon_not_mem_stem b.colon_not_mem_stem h
  -- Two stems are spelt alike only for the two kinds of keys that start with a user.
  cases a <;> cases b <;> simp only [stem, String.reduceEq] at hstem <;>
    simp only [detail] at hdetail
  case user.user | session.session => rw [text_inj.1 hdetail]
  case user.cutoff => exact absurd hdetail (text_ne_colon _ _ _)
  case cutoff.user => exact absurd hdetail.symm (text_ne_colon _ _ _)
  case cutoff.cutoff a b =>
    obtain ⟨hid, -⟩ := colon_inj (colon_not_mem_text a) (colon_not_mem_text b) hdetail
    rw [text_inj.1 hid]
  case follow.follow a c b d =>
    obtain ⟨hfollower, hfollowee⟩ :=
      colon_inj (colon_not_mem_text a) (colon_not_mem_text b) hdetail
    rw [text_inj.1 hfollower, text_inj.1 hfollowee]
  case blacklist.blacklist a b =>
    obtain ⟨-, rfl⟩ := colon_inj (by decide) (by decide) hdetail
    rfl
  case feed.feed => rw [hdetail]

end Name

section

variable {user other : UserId} {tokenId otherId : String}

theorem blacklist_injective (h : blacklist tokenId = blacklist otherId) : tokenId = otherId :=
  Name.blacklist.inj (Name.eq_of_key_eq (.blacklist tokenId) (.blacklist otherId) h)

theorem session_injective (h : session user = session other) : user = other :=
  Name.session.inj (Name.eq_of_key_eq (.session user) (.session other) h)

theorem cutoff_injective (h : cutoff user = cutoff other) : user = other :=
  Name.cutoff.inj (Name.eq_of_key_eq (.cutoff user) (.cutoff other) h)

end

theorem blacklist_ne_cutoff (tokenId : String) (user : UserId) : blacklist tokenId ≠ cutoff user :=
  fun h => nomatch Name.eq_of_key_eq (.blacklist tokenId) (.cutoff user) h

theorem session_ne_cutoff (user other : UserId) : session user ≠ cutoff other :=
  fun h => nomatch Name.eq_of_key_eq (.session user) (.cutoff other) h

theorem session_ne_blacklist (user : UserId) (tokenId : String) :
    session user ≠ blacklist tokenId :=
  fun h => nomatch Name.eq_of_key_eq (.session user) (.blacklist tokenId) h

theorem user_ne_session (user other : UserId) : Key.user user ≠ session other :=
  fun h => nomatch Name.eq_of_key_eq (.user user) (.session other) h

theorem user_ne_blacklist (user : UserId) (tokenId : String) :
    Key.user user ≠ blacklist tokenId :=
  fun h => nomatch Name.eq_of_key_eq (.user user) (.blacklist tokenId) h

theorem user_ne_cutoff (user other : UserId) : Key.user user ≠ cutoff other :=
  fun h => nomatch Name.eq_of_key_eq (.user user) (.cutoff other) h

/-! ## Patterns -/

/-- A pattern of a stem, a user's number, a colon and a star matches the keys that have this stem
and go on with this number and a colon. -/
theorem isMatch_below_iff {stem : String} (hplain : ∀ c ∈ stem.toList, Plain c)
    (hcolon : ':' ∉ stem.toList) (id : UserId) (n : Name) :
    isMatch (stem ++ ":" ++ (id.text ++ ":") ++ "*") n.key = true ↔
      stem = n.stem ∧ (id.text ++ ":").toList <+: n.detail.toList := by
  have hsign : ∀ c ∈ ":".toList, Plain c := by simp [Plain]
  have hbefore : ∀ c ∈ (stem ++ ":" ++ (id.text ++ ":")).toList, Plain c := by
    intro c hc
    simp only [String.toList_append, List.mem_append] at hc
    rcases hc with (hc | hc) | hc | hc
    · exact hplain c hc
    · exact hsign c hc
    · exact plain_text id c hc
    · exact hsign c hc
  rw [Text.Glob.isMatch_star_iff hbefore, n.key_eq, colon_prefix_iff hcolon n.colon_not_mem_stem]

/-- A number and a colon start no other number and a colon, be it longer or shorter. -/
theorem text_colon_prefix_iff (id other : UserId) (rest : String) :
    (id.text ++ ":").toList <+: (other.text ++ ":" ++ rest).toList ↔ id = other := by
  have hrest : id.text ++ ":" = id.text ++ ":" ++ "" := String.append_empty.symm
  rw [hrest, colon_prefix_iff (colon_not_mem_text id) (colon_not_mem_text other), text_inj]
  simp

/-- And they start no number alone. -/
theorem not_text_colon_prefix (id other : UserId) :
    ¬ (id.text ++ ":").toList <+: other.text.toList := by
  intro h
  rw [String.toList_append] at h
  exact colon_not_mem_text other (h.subset (by simp))

/-- The pattern of a user's keys matches the user's cutoff and nothing else. -/
theorem isMatch_userPattern_iff (id : UserId) (n : Name) :
    isMatch (userPattern id) n.key = true ↔ n = .cutoff id := by
  have hpattern : userPattern id = "user" ++ ":" ++ (id.text ++ ":") ++ "*" := by
    simp only [userPattern, String.append_assoc]
    rfl
  rw [hpattern, isMatch_below_iff (by simp [Plain]) (by decide)]
  cases n with
  | user other =>
    simp only [Name.stem, Name.detail, true_and, reduceCtorEq, iff_false]
    exact not_text_colon_prefix id other
  | cutoff other =>
    simp only [Name.stem, Name.detail, true_and, Name.cutoff.injEq]
    rw [text_colon_prefix_iff]
    exact eq_comm
  | _ => simp [Name.stem]

/-- The pattern of those whom a user follows matches the keys of these and nothing else. -/
theorem isMatch_followPattern_iff (id : UserId) (n : Name) :
    isMatch (followPattern id) n.key = true ↔ ∃ followee, n = .follow id followee := by
  have hpattern : followPattern id = "follow" ++ ":" ++ (id.text ++ ":") ++ "*" := by
    simp only [followPattern, String.append_assoc]
    rfl
  rw [hpattern, isMatch_below_iff (by simp [Plain]) (by decide)]
  cases n with
  | follow follower followee =>
    simp only [Name.stem, Name.detail, true_and, Name.follow.injEq]
    rw [text_colon_prefix_iff]
    constructor
    · rintro rfl
      exact ⟨followee, rfl, rfl⟩
    · rintro ⟨-, rfl, -⟩
      rfl
  | _ => simp [Name.stem]

/-- Keys that are equal were made for the same, whatever is in them; and of all keys, the pattern of
a user's keys matches the user's cutoff alone, and the pattern of those whom the user follows the
keys of these alone. -/
theorem keys_apart :
    (∀ a b : Name, a.key = b.key ↔ a = b) ∧
    (∀ (id : UserId) (n : Name), isMatch (userPattern id) n.key = true ↔ n.key = cutoff id) ∧
    ∀ (id : UserId) (n : Name),
      isMatch (followPattern id) n.key = true ↔ ∃ followee, n.key = follow id followee := by
  have hkeys : ∀ a b : Name, a.key = b.key ↔ a = b :=
    fun a b => ⟨Name.eq_of_key_eq a b, congrArg Name.key⟩
  refine ⟨hkeys, fun id n => ?_, fun id n => ?_⟩
  · rw [isMatch_userPattern_iff]
    exact (hkeys n (.cutoff id)).symm
  · rw [isMatch_followPattern_iff]
    exact exists_congr fun followee => (hkeys n (.follow id followee)).symm

/-- A token id that looks like another key, and a number that starts with another. -/
example : Name.key (.blacklist "*:user:1:") ≠ Name.key (.feed "*:user:1:") ∧
    isMatch (userPattern ⟨4⟩) (cutoff ⟨42⟩) = false := by decide

/-! ## What invalidating a user's keys reaches -/

section

variable {user other : UserId}

/-- Invalidating a user's keys reaches the user's cutoff. -/
theorem isMatch_userPattern_cutoff (user : UserId) :
    isMatch (userPattern user) (cutoff user) = true :=
  (isMatch_userPattern_iff user (.cutoff user)).2 rfl

/-- It reaches no other user's cutoff, be the other number longer or shorter. -/
theorem not_isMatch_userPattern_cutoff (hne : user ≠ other) :
    ¬ isMatch (userPattern user) (cutoff other) = true := by
  intro h
  exact hne (Name.cutoff.inj ((isMatch_userPattern_iff user (.cutoff other)).1 h)).symm

/-- It reaches no user's session and no user. -/
theorem not_isMatch_userPattern_session (user other : UserId) :
    ¬ isMatch (userPattern user) (session other) = true :=
  fun h => nomatch (isMatch_userPattern_iff user (.session other)).1 h

theorem not_isMatch_userPattern_user (user other : UserId) :
    ¬ isMatch (userPattern user) (Key.user other) = true :=
  fun h => nomatch (isMatch_userPattern_iff user (.user other)).1 h

end

/-- No session may be cached for longer than any session may. -/
theorem sessionTtl_le {expiresAt now : Instant} {ttl : Duration}
    (h : sessionTtl expiresAt now = some ttl) : ttl ≤ sessionLifetime := by
  obtain ⟨d, -, rfl⟩ := Option.map_eq_some_iff.1 h
  rw [Duration.le_def, Duration.nanos_min]
  exact Nat.min_le_right ..

end Key

end Bearer
