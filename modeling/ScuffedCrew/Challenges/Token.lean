import ScuffedCrew.Rust.Numeric
import ScuffedCrew.Rust.Text

/-!
# Challenge tokens

The server keeps no challenge it gives out: the token that comes back holds the
challenge, its subject and its expiry, and a keyed hash over the three.  The
hash is taken over the fields with colons between them, the token has bars.
-/

namespace ScuffedCrew.Challenges

open Rust

/-- The keyed hash under the key of the server, its hexadecimal text, and the text of base64. -/
structure ChallengeCrypto (Mac : Type) where
  keyedHash : Text → Mac
  toHex : Mac → Text
  fromHex : Text → Option Mac
  encode : Text → Text
  decode : Text → Option Text
  fromHex_toHex : ∀ mac, fromHex (toHex mac) = some mac
  decode_encode : ∀ text, decode (encode text) = some text

def decimal (number : ℕ) : Text := Nat.toDigits 10 number

/-- What the hash is taken over. -/
def hmacData (challenge memberId : Text) (expiresTs : ℕ) : Text :=
  challenge ++ ':' :: (memberId ++ ':' :: decimal expiresTs)

section tokens

variable {Mac : Type} (crypto : ChallengeCrypto Mac) (challenge memberId : Text) (expiresTs : ℕ)

def signChallengeToken : Text :=
  let hmacHex := crypto.toHex (crypto.keyedHash (hmacData challenge memberId expiresTs))
  crypto.encode (challenge ++ '|' :: (memberId ++ '|' :: (decimal expiresTs ++ '|' :: hmacHex)))

def verifyChallengeToken [DecidableEq Mac] (token : Text) (now : ℕ) : Except Text (Text × Text) :=
  match crypto.decode token with
  | none => .error "Invalid token encoding".toList
  | some text =>
      match text.splitn 4 '|' with
      | [challenge, memberId, expires, providedHmac] =>
          match parseUnsigned 64 expires with
          | none => .error "Invalid expiry".toList
          | some expiresTs =>
              if expiresTs < now then .error "Challenge expired".toList
              else
                match crypto.fromHex providedHmac with
                | none => .error "Invalid token signature".toList
                | some provided =>
                    if crypto.keyedHash (hmacData challenge memberId expiresTs) = provided then
                      .ok (challenge, memberId)
                    else .error "Invalid token signature".toList
      | _ => .error "Malformed token".toList

/-- The token holds the fields and their hash. -/
def Presents (token : Text) : Prop :=
  ∃ text expires providedHmac, crypto.decode token = some text ∧
    text.splitn 4 '|' = [challenge, memberId, expires, providedHmac] ∧
      parseUnsigned 64 expires = some expiresTs ∧
        crypto.fromHex providedHmac =
          some (crypto.keyedHash (hmacData challenge memberId expiresTs))

end tokens

section reading

variable {Mac : Type} {crypto : ChallengeCrypto Mac} {challenge memberId token : Text}
  {expiresTs now : ℕ}

theorem decimal_plain {letter : Char} (other : letter.isDigit = false) :
    letter ∉ decimal expiresTs := by
  intro letter_mem
  have digit : letter.isDigit = true :=
    Nat.isDigit_of_mem_toDigits (by decide) (by decide) letter_mem
  cases digit.symm.trans other

/-- A token that was signed holds its fields. -/
theorem presents_sign (challenge_plain : '|' ∉ challenge) (member_plain : '|' ∉ memberId)
    (fits : expiresTs ≤ maxValue 64) :
    Presents crypto challenge memberId expiresTs
      (signChallengeToken crypto challenge memberId expiresTs) := by
  refine ⟨_, decimal expiresTs, _, crypto.decode_encode _, ?_, parseUnsigned_toDigits fits,
    crypto.fromHex_toHex _⟩
  have digits_plain : '|' ∉ decimal expiresTs := decimal_plain (by decide)
  simp only [Text.splitn, Text.splitOnce_append challenge_plain,
    Text.splitOnce_append member_plain, Text.splitOnce_append digits_plain]

/-- A text is cut at its last colon in one way. -/
theorem last_colon {left left' right right' : Text} (plain : ':' ∉ right) (plain' : ':' ∉ right')
    (same : left ++ ':' :: right = left' ++ ':' :: right') : left = left' ∧ right = right' := by
  rcases List.append_eq_append_iff.mp same with ⟨more, rfl, rest⟩ | ⟨more, rfl, rest⟩
  · cases more with
    | nil => exact ⟨by simp, (List.cons.inj rest).2⟩
    | cons letter more =>
        rcases List.cons.inj rest with ⟨-, rfl⟩
        exact absurd (by simp) plain
  · cases more with
    | nil => exact ⟨by simp, (List.cons.inj rest).2.symm⟩
    | cons letter more =>
        rcases List.cons.inj rest with ⟨-, rfl⟩
        exact absurd (by simp) plain'

/-- Fields cannot be shifted over the colons, as long as the subjects have none. -/
theorem hmacData_inj {challenge' memberId' : Text} {expiresTs' : ℕ} (plain : ':' ∉ memberId)
    (plain' : ':' ∉ memberId')
    (same : hmacData challenge memberId expiresTs = hmacData challenge' memberId' expiresTs') :
    challenge = challenge' ∧ memberId = memberId' ∧ expiresTs = expiresTs' := by
  have regroup : ∀ challenge memberId : Text, ∀ expiresTs, hmacData challenge memberId expiresTs =
      (challenge ++ ':' :: memberId) ++ ':' :: decimal expiresTs := by
    simp [hmacData]
  rw [regroup, regroup] at same
  rcases last_colon (decimal_plain (by decide)) (decimal_plain (by decide)) same with
    ⟨fields, digits⟩
  rcases last_colon plain plain' fields with ⟨rfl, rfl⟩
  refine ⟨rfl, rfl, ?_⟩
  have number : ∀ expiresTs, Nat.ofDigitChars 10 (decimal expiresTs) 0 = expiresTs :=
    fun _ => Nat.ofDigitChars_ten_toDigits
  rw [← number expiresTs, digits, number]

variable [DecidableEq Mac]

theorem verify_eq_ok
    (verified : verifyChallengeToken crypto token now = .ok (challenge, memberId)) :
    ∃ expiresTs, now ≤ expiresTs ∧ Presents crypto challenge memberId expiresTs token := by
  unfold verifyChallengeToken at verified
  split at verified
  next => cases verified
  next text decoded =>
    split at verified
    next first second expires providedHmac parts =>
      split at verified
      next => cases verified
      next expiresTs parsed =>
        split at verified
        next => cases verified
        next current =>
          split at verified
          next => cases verified
          next provided given =>
            split at verified
            next matching =>
              rcases Prod.mk.inj (Except.ok.inj verified) with ⟨rfl, rfl⟩
              exact ⟨expiresTs, Nat.le_of_not_lt current, text, expires, providedHmac, decoded,
                parts, parsed, matching ▸ given⟩
            next => cases verified
    next => cases verified

theorem verify_of_presents (presents : Presents crypto challenge memberId expiresTs token)
    (current : now ≤ expiresTs) :
    verifyChallengeToken crypto token now = .ok (challenge, memberId) := by
  rcases presents with ⟨text, expires, providedHmac, decoded, parts, parsed, given⟩
  simp [verifyChallengeToken, decoded, parts, parsed, given, Nat.not_lt_of_le current]

end reading

/-! ## Signed tokens -/

/-- The marker of a login, or the id of a member. -/
structure Subject where
  text : Text
  no_colon : ':' ∉ text
  no_bar : '|' ∉ text

def Subject.login : Subject := ⟨"@login".toList, by decide, by decide⟩

/-- `CHALLENGE_TTL_SECS`. -/
def challengeTtlSecs : ℕ := 300

/-- What the server has signed, and when. -/
structure SignedToken where
  challenge : Text
  no_bar : '|' ∉ challenge
  subject : Subject
  signedAt : Instant

namespace SignedToken

def expiresTs (signed : SignedToken) : ℕ := Duration.asSecs signed.signedAt + challengeTtlSecs

def data (signed : SignedToken) : Text :=
  hmacData signed.challenge signed.subject.text signed.expiresTs

def token {Mac : Type} (crypto : ChallengeCrypto Mac) (signed : SignedToken) : Text :=
  signChallengeToken crypto signed.challenge signed.subject.text signed.expiresTs

end SignedToken

/-- Whoever made the token has no hash of anything the server has not signed. -/
def Unforged {Mac : Type} (crypto : ChallengeCrypto Mac) (signed : List SignedToken)
    (token : Text) : Prop :=
  ∀ challenge memberId expiresTs, Presents crypto challenge memberId expiresTs token →
    ∃ one ∈ signed, one.data = hmacData challenge memberId expiresTs

section unforged

variable {Mac : Type} [DecidableEq Mac] {crypto : ChallengeCrypto Mac} {signed : List SignedToken}
  {token challenge : Text} {subject : Subject} {now : ℕ}

theorem signed_of_verify (unforged : Unforged crypto signed token)
    (verified : verifyChallengeToken crypto token now = .ok (challenge, subject.text)) :
    ∃ one ∈ signed, one.challenge = challenge ∧ one.subject.text = subject.text ∧
      now ≤ one.expiresTs ∧ Presents crypto challenge subject.text one.expiresTs token := by
  rcases verify_eq_ok verified with ⟨expiresTs, current, presents⟩
  rcases unforged _ _ _ presents with ⟨one, one_mem, same⟩
  rcases hmacData_inj one.subject.no_colon subject.no_colon same with ⟨challenges, subjects, rfl⟩
  exact ⟨one, one_mem, challenges, subjects, current, presents⟩

/-- A token is taken for a subject exactly when it presents what was signed for the subject and has
not expired, and what was signed is taken until it expires. -/
theorem tokens_verify_as_signed (unforged : Unforged crypto signed token) :
    (∀ (challenge : Text) (subject : Subject) (now : ℕ),
      verifyChallengeToken crypto token now = .ok (challenge, subject.text) ↔
        ∃ one ∈ signed, one.challenge = challenge ∧ one.subject.text = subject.text ∧
          now ≤ one.expiresTs ∧ Presents crypto challenge subject.text one.expiresTs token) ∧
    ∀ one ∈ signed, one.expiresTs ≤ maxValue 64 → ∀ now ≤ one.expiresTs,
      verifyChallengeToken crypto (one.token crypto) now =
        .ok (one.challenge, one.subject.text) := by
  constructor
  · intro challenge subject now
    refine ⟨signed_of_verify unforged, ?_⟩
    rintro ⟨one, -, -, -, current, presents⟩
    exact verify_of_presents presents current
  · intro one _ fits now current
    exact verify_of_presents (presents_sign one.no_bar one.subject.no_bar fits) current

end unforged

/-- A hash that is the text itself. -/
def plainCrypto : ChallengeCrypto Text where
  keyedHash := id
  toHex := id
  fromHex := some
  encode := id
  decode := some
  fromHex_toHex _ := rfl
  decode_encode _ := rfl

/-- A challenge that is signed for a login after one second. -/
def signedLogin : SignedToken :=
  ⟨"scuffedclan-login:c0ffee".toList, by decide, .login, 1000000000⟩

theorem unforged_login {signed : List SignedToken}
    (one_mem : signedLogin.data ∈ signed.map (·.data)) :
    Unforged plainCrypto signed (signedLogin.token plainCrypto) := by
  rintro challenge memberId expiresTs ⟨text, expires, providedHmac, decoded, parts, -, given⟩
  rcases Option.some.inj decoded with rfl
  have last : (Text.splitn 4 (signedLogin.token plainCrypto) '|')[3]? = some signedLogin.data := by
    decide
  have given : providedHmac = hmacData challenge memberId expiresTs := Option.some.inj given
  rw [show Text.splitn 4 (signedLogin.token plainCrypto) '|' = _ from parts, given] at last
  rcases List.mem_map.mp one_mem with ⟨one, one_mem, same⟩
  exact ⟨one, one_mem, same.trans (Option.some.inj last).symm⟩

/-- The token is taken until it is 300 seconds old. -/
theorem a_token_expires :
    verifyChallengeToken plainCrypto (signedLogin.token plainCrypto) 301 =
        .ok (signedLogin.challenge, Subject.login.text) ∧
      verifyChallengeToken plainCrypto (signedLogin.token plainCrypto) 302 ≠
        .ok (signedLogin.challenge, Subject.login.text) := by
  have unforged : Unforged plainCrypto [signedLogin] (signedLogin.token plainCrypto) :=
    unforged_login (by simp)
  constructor
  · apply (tokens_verify_as_signed unforged).2 signedLogin (by simp) <;> decide
  · rw [Ne, (tokens_verify_as_signed unforged).1]
    rintro ⟨one, one_mem, -, -, current, -⟩
    rcases List.mem_singleton.mp one_mem with rfl
    exact absurd current (by decide)

end ScuffedCrew.Challenges
