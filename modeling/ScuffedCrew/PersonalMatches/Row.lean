import Mathlib.Algebra.Order.Ring.Nat
import Mathlib.Data.Char
import Mathlib.Data.Int.Order.Basic
import Mathlib.Data.List.Lex
import ScuffedCrew.Database.Ordered
import ScuffedCrew.Rust.Bytes

/-!
# The rows of `personal_match`

A row holds one game of one member.  Its session id may be blank, and its
recognizer columns may be missing, when it was written before they existed.
-/

namespace ScuffedCrew.PersonalMatches

open Rust Database

/-- A time, in nanoseconds. -/
abbrev Instant := ℤ

/-- A row as it is stored; a missing session id reads as the empty one.  No member id is as long as
4 GiB. -/
structure DbPersonalMatch where
  memberId : Text
  fits : memberId.byteLen < 2 ^ 32
  sessionId : Text
  hero : Text
  mapName : Text
  gameMode : Text
  role : Text
  outcome : Text
  elims : ℕ
  deaths : ℕ
  assists : ℕ
  damage : ℕ
  healing : ℕ
  mitigation : ℕ
  playedAt : Instant
  uploadedAt : Instant
  edited : Bool
  recognizer : Option Text
  nameRecognizer : Option Text
  suspectFields : Option (List Text)
  deriving DecidableEq

def recognizerOcrV1 : Text := "ocr-v1".toList

def effectiveRecognizer (stored : Text) : Text := if stored.isEmpty then recognizerOcrV1 else stored

def storedNameRecognizer (value : Option Text) : Option Text := value.filter fun id => !id.isEmpty

/-- `personal_match_record_key`. -/
def personalMatchRecordKey (memberId sessionId : Text) : Text :=
  "pm".toList ++
    hexEncode (toBeBytes (saturateU32 memberId.byteLen) ++ memberId.utf8 ++ sessionId.utf8)

/-- `legacy_session_id`, with any hash of the four fields. -/
def legacySessionId (hash : Text → Text → Text → Instant → Text)
    (memberId hero mapName : Text) (playedAt : Instant) : Text :=
  "legacy-".toList ++ hash memberId hero mapName playedAt

def preferPersonalMatchKeeper (uploadedAt : Instant) (recordKey : Text) (bestUploadedAt : Instant)
    (bestRecordKey : Text) : Bool :=
  bestUploadedAt < uploadedAt || (uploadedAt == bestUploadedAt && bestRecordKey < recordKey)

/-- A row as `db_to_personal_match` reads it, but for its id. -/
structure PersonalMatch where
  memberId : Text
  sessionId : Text
  hero : Text
  mapName : Text
  gameMode : Text
  role : Text
  outcome : Text
  elims : ℕ
  deaths : ℕ
  assists : ℕ
  damage : ℕ
  healing : ℕ
  mitigation : ℕ
  playedAt : Instant
  uploadedAt : Instant
  edited : Bool
  recognizer : Text
  nameRecognizer : Option Text
  suspectFields : List Text
  deriving DecidableEq

/-- The member and the session of a game. -/
def PersonalMatch.pair (game : PersonalMatch) : Text × Text := (game.memberId, game.sessionId)

namespace DbPersonalMatch

variable (row : DbPersonalMatch) (hash : Text → Text → Text → Instant → Text)

def toPersonalMatch : PersonalMatch where
  memberId := row.memberId
  sessionId := row.sessionId
  hero := row.hero
  mapName := row.mapName
  gameMode := row.gameMode
  role := row.role
  outcome := row.outcome
  elims := row.elims
  deaths := row.deaths
  assists := row.assists
  damage := row.damage
  healing := row.healing
  mitigation := row.mitigation
  playedAt := row.playedAt
  uploadedAt := row.uploadedAt
  edited := row.edited
  recognizer := effectiveRecognizer (row.recognizer.getD [])
  nameRecognizer := storedNameRecognizer row.nameRecognizer
  suspectFields := row.suspectFields.getD []

/-- What `relocate_personal_match` writes. -/
def relocated (sessionId : Text) : DbPersonalMatch :=
  { row with
    sessionId
    recognizer := some (effectiveRecognizer (row.recognizer.getD []))
    nameRecognizer := storedNameRecognizer row.nameRecognizer
    suspectFields := some (row.suspectFields.getD []) }

def setSession (sessionId : Text) : DbPersonalMatch := { row with sessionId }

def Blank : Prop := row.sessionId = []

instance : Decidable row.Blank := inferInstanceAs (Decidable (_ = _))

/-- The session a row stands for. -/
def effectiveSession : Text :=
  if row.Blank then legacySessionId hash row.memberId row.hero row.mapName row.playedAt
  else row.sessionId

/-- A row as it is read, with the session it stands for. -/
def content : PersonalMatch := { row.toPersonalMatch with sessionId := row.effectiveSession hash }

variable {row hash} {sessionId : Text}

theorem effectiveSession_ne_nil : row.effectiveSession hash ≠ [] := by
  unfold effectiveSession
  split
  next => exact List.append_ne_nil_of_left_ne_nil (by decide) _
  next filled => exact filled

theorem effectiveSession_of_filled (filled : ¬row.Blank) :
    row.effectiveSession hash = row.sessionId :=
  if_neg filled

theorem content_of_filled (filled : ¬row.Blank) : row.content hash = row.toPersonalMatch := by
  rw [content, effectiveSession_of_filled filled]
  rfl

/-- A blank row is given the session it stands for. -/
theorem content_setSession (filled : sessionId ≠ [])
    (same : sessionId = row.effectiveSession hash) :
    (row.setSession sessionId).content hash = row.content hash := by
  have set : ¬(row.setSession sessionId).Blank := filled
  rw [content_of_filled set, content, ← same]
  rfl

/-- A row is moved as it is read. -/
theorem content_relocated (filled : ¬row.Blank) :
    (row.relocated row.sessionId).content hash = row.content hash := by
  have named : storedNameRecognizer (storedNameRecognizer row.nameRecognizer) =
      storedNameRecognizer row.nameRecognizer := by
    unfold storedNameRecognizer
    cases row.nameRecognizer with
    | none => rfl
    | some id => cases id <;> rfl
  have effective : effectiveRecognizer (effectiveRecognizer (row.recognizer.getD [])) =
      effectiveRecognizer (row.recognizer.getD []) := by
    unfold effectiveRecognizer recognizerOcrV1
    cases row.recognizer.getD [] <;> rfl
  have moved : ¬(row.relocated row.sessionId).Blank := filled
  rw [content_of_filled moved, content_of_filled filled]
  simp only [toPersonalMatch, relocated, Option.getD_some, named, effective]

end DbPersonalMatch

/-! ## Keys and keepers -/

/-- A key tells its member and its session, when the length of the member id fits in a `u32`. -/
theorem personalMatchRecordKey_inj {member member' session session' : Text}
    (small : member.byteLen < 2 ^ 32) (small' : member'.byteLen < 2 ^ 32)
    (same : personalMatchRecordKey member session = personalMatchRecordKey member' session') :
    member = member' ∧ session = session' := by
  have raw := hexEncode_injective (List.append_cancel_left same)
  rw [List.append_assoc, List.append_assoc] at raw
  rcases List.append_inj raw rfl with ⟨lengths, rest⟩
  have fits : ∀ {text : Text}, text.byteLen < 2 ^ 32 → saturateU32 text.byteLen = text.byteLen := by
    intro text small
    unfold saturateU32
    omega
  rw [fits small, fits small'] at lengths
  have length := toBeBytes_injective small small' lengths
  rcases List.append_inj rest length with ⟨members, sessions⟩
  exact ⟨utf8_injective members, utf8_injective sessions⟩

variable {first second third : Instant} {key key' key'' : Text}

theorem prefer_iff : preferPersonalMatchKeeper first key second key' = true ↔
    second < first ∨ first = second ∧ key' < key := by
  simp [preferPersonalMatchKeeper]

theorem prefer_trans (left : preferPersonalMatchKeeper first key second key' = true)
    (right : preferPersonalMatchKeeper second key' third key'' = true) :
    preferPersonalMatchKeeper first key third key'' = true := by
  rw [prefer_iff] at left right ⊢
  rcases left with above | ⟨rfl, after⟩
  · rcases right with above' | ⟨rfl, -⟩
    · exact .inl (lt_trans above' above)
    · exact .inl above
  · rcases right with above' | ⟨rfl, after'⟩
    · exact .inl above'
    · exact .inr ⟨rfl, lt_trans after' after⟩

theorem prefer_total (differ : key ≠ key') :
    preferPersonalMatchKeeper first key second key' = true ∨
      preferPersonalMatchKeeper second key' first key = true := by
  rw [prefer_iff, prefer_iff]
  rcases lt_trichotomy first second with below | rfl | above
  · exact .inr (.inl below)
  · rcases lt_or_gt_of_ne differ with before | after
    · exact .inr (.inr ⟨rfl, before⟩)
    · exact .inl (.inr ⟨rfl, after⟩)
  · exact .inl (.inl above)

end ScuffedCrew.PersonalMatches
