import Mathlib.Order.Compare
import ScuffedCrew.Parse.Heroes
import ScuffedCrew.Parse.Maps

/-!
# Stored matches

A row of `personal_match`: the values read off the board, the correction
overlay of a member, and the hero timeline.  What a member sees and what an
upload sends is the effective value: the correction, else the timeline's
primary hero, else the read.
-/

namespace ScuffedCrew.Storage

open Rust Parse

/-- A moment of `SurrealDatetime`. -/
abbrev Datetime := ℤ

def segmentConfirm : Text := "confirm".toList

def segmentDismiss : Text := "dismiss".toList

/-- One run of the same hero across a session's snapshots. -/
structure HeroSegment where
  hero : Text
  role : Text
  firstSeen : Datetime
  lastSeen : Datetime
  snapshots : ℕ
  confirmed : Bool
  resolution : Option Text
  deriving DecidableEq, Repr

/-- A manual decision about one derived segment, by its index. -/
structure SegmentResolution where
  segment : ℕ
  action : Text
  deriving DecidableEq, Repr

namespace HeroSegment

def isDismissed (segment : HeroSegment) : Bool := segment.resolution == some segmentDismiss

def voters (segments : List HeroSegment) : List HeroSegment :=
  let live := segments.filter fun segment => !segment.isDismissed
  if live.any confirmed then live.filter confirmed else live

end HeroSegment

/-! ## The primary hero -/

/-- The captures counted for one hero, with its role when seen last. -/
structure Vote where
  hero : Text
  count : ℕ
  latest : Datetime
  role : Text
  deriving DecidableEq

namespace Vote

def add (vote : Vote) (segment : HeroSegment) : Vote :=
  let counted := { vote with count := vote.count + segment.snapshots }
  if vote.latest ≤ segment.lastSeen then
    { counted with latest := segment.lastSeen, role := segment.role }
  else counted

def cast (votes : List Vote) (segment : HeroSegment) : List Vote :=
  if votes.any fun vote => vote.hero == segment.hero then
    votes.map fun vote => if vote.hero == segment.hero then vote.add segment else vote
  else votes ++ [add ⟨segment.hero, 0, segment.lastSeen, segment.role⟩ segment]

/-- More captures, then seen later, then first in the alphabet. -/
def compare (left right : Vote) : Ordering :=
  (Ord.compare left.count right.count).then <|
    (Ord.compare left.latest right.latest).then <| Ord.compare right.hero left.hero

def max (votes : List Vote) : Option Vote :=
  votes.foldl (fun best vote =>
    match best with
    | none => some vote
    | some found => if found.compare vote = .gt then some found else some vote) none

end Vote

/-- The hero and role of a game: the capture majority over its segments. -/
def primaryHeroRole (segments : List HeroSegment) : Option (Text × Text) :=
  (Vote.max ((HeroSegment.voters segments).foldl Vote.cast [])).map fun vote =>
    (vote.hero, vote.role)

/-! ## Rows -/

structure PersonalMatch where
  hero : Text
  mapName : Text
  gameMode : Text
  role : Text
  outcome : Text
  elims : ℕ
  deaths : ℕ
  assists : ℕ
  damage : ℕ
  healing : ℕ
  mitigation : ℕ
  playedAt : Datetime
  synced : Bool
  syncRev : ℕ
  uploadReject : Option Text
  sessionId : Text
  correctedHero : Option Text
  correctedRole : Option Text
  correctedMapName : Option Text
  correctedOutcome : Option Text
  correctedElims : Option ℕ
  correctedDeaths : Option ℕ
  correctedAssists : Option ℕ
  correctedDamage : Option ℕ
  correctedHealing : Option ℕ
  correctedMitigation : Option ℕ
  editedFields : List Text
  editedAt : Option Datetime
  heroesPlayed : List HeroSegment
  segmentResolutions : List SegmentResolution
  recognizer : Text
  suspectFields : List Text
  nameRecognizer : Option Text
  deriving DecidableEq

structure PlayerStats where
  elims : ℕ
  deaths : ℕ
  assists : ℕ
  damage : ℕ
  healing : ℕ
  mitigation : ℕ
  deriving DecidableEq

/-- `new_match`: a fresh row, in no session yet and not uploaded. -/
def newMatch (stats : PlayerStats) (hero mapName outcome : Text) (now : Datetime) :
    PersonalMatch where
  hero := hero
  mapName := mapName
  gameMode := storedGameMode mapName
  role := guessRole hero
  outcome := outcome
  elims := stats.elims
  deaths := stats.deaths
  assists := stats.assists
  damage := stats.damage
  healing := stats.healing
  mitigation := stats.mitigation
  playedAt := now
  synced := false
  syncRev := 0
  uploadReject := none
  sessionId := []
  correctedHero := none
  correctedRole := none
  correctedMapName := none
  correctedOutcome := none
  correctedElims := none
  correctedDeaths := none
  correctedAssists := none
  correctedDamage := none
  correctedHealing := none
  correctedMitigation := none
  editedFields := []
  editedAt := none
  heroesPlayed := []
  segmentResolutions := []
  recognizer := "ocr-v1".toList
  suspectFields := []
  nameRecognizer := none

namespace PersonalMatch

def isEdited (row : PersonalMatch) : Bool := !row.editedFields.isEmpty

/-- `effective_recognizer`: a missing column is `ocr-v1`. -/
def storedRecognizer (row : PersonalMatch) : Text :=
  if row.recognizer.isEmpty then "ocr-v1".toList else row.recognizer

def uploadRejection (row : PersonalMatch) : Option Text :=
  (row.uploadReject.map Text.trim).filter fun message => !message.isEmpty

def fieldEdited (row : PersonalMatch) (field : Text) : Bool := row.editedFields.contains field

def hasMemberMapEdit (row : PersonalMatch) : Bool :=
  row.correctedMapName.isSome || row.fieldEdited "map_name".toList

def displayHero (row : PersonalMatch) : Text :=
  row.correctedHero.getD (((primaryHeroRole row.heroesPlayed).map Prod.fst).getD row.hero)

def displayRole (row : PersonalMatch) : Text :=
  row.correctedRole.getD (((primaryHeroRole row.heroesPlayed).map Prod.snd).getD row.role)

def displayMapName (row : PersonalMatch) : Text := row.correctedMapName.getD row.mapName

def displayOutcome (row : PersonalMatch) : Text := row.correctedOutcome.getD row.outcome

def displayElims (row : PersonalMatch) : ℕ := row.correctedElims.getD row.elims

def displayDeaths (row : PersonalMatch) : ℕ := row.correctedDeaths.getD row.deaths

def displayAssists (row : PersonalMatch) : ℕ := row.correctedAssists.getD row.assists

def displayDamage (row : PersonalMatch) : ℕ := row.correctedDamage.getD row.damage

def displayHealing (row : PersonalMatch) : ℕ := row.correctedHealing.getD row.healing

def displayMitigation (row : PersonalMatch) : ℕ := row.correctedMitigation.getD row.mitigation

def clearSuspects (row : PersonalMatch) (storageField : String) : PersonalMatch :=
  { row with suspectFields := clearEditedSuspects row.suspectFields storageField }

end PersonalMatch

/-- `name_recognizer_absent`: an empty id is the same as none. -/
def nameRecognizerAbsent (id : Option Text) : Bool := id.all List.isEmpty

/-- `outcome_is_decided`: a stored label that names a result. -/
def outcomeIsDecided (label : Text) : Bool :=
  label == "victory".toList || label == "defeat".toList || label == "draw".toList

end ScuffedCrew.Storage
