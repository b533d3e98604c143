import ScuffedCrew.Storage.Match

/-!
# Manual corrections

A correction fills the overlay of a row and leaves the values read off the
board as they are.
-/

namespace ScuffedCrew.Storage

open Rust Parse

/-- A manual correction; only the fields it sets are applied. -/
structure MatchEdit where
  hero : Option Text
  role : Option Text
  mapName : Option Text
  outcome : Option Text
  elims : Option ℕ
  deaths : Option ℕ
  assists : Option ℕ
  damage : Option ℕ
  healing : Option ℕ
  mitigation : Option ℕ
  deriving DecidableEq

namespace MatchEdit

def isEmpty (edit : MatchEdit) : Bool :=
  edit == ⟨none, none, none, none, none, none, none, none, none, none⟩

end MatchEdit

namespace PersonalMatch

def markEdited (row : PersonalMatch) (name : String) : PersonalMatch :=
  if row.editedFields.contains name.toList then row
  else { row with editedFields := row.editedFields ++ [name.toList] }

/-- A corrected field is marked as edited and is no longer suspect. -/
def settle (row : PersonalMatch) (name : String) : PersonalMatch :=
  (row.markEdited name).clearSuspects name

/-- A hero the member names brings its role along, unless the edit names one too. -/
def correctHero (row : PersonalMatch) (hero : Text) (withRole : Option Text) : PersonalMatch :=
  let corrected := { row with correctedHero := some hero }.settle "hero"
  let guessed := guessRole hero
  if withRole.isNone && !heroIsUnknownLabel hero && guessed != corrected.displayRole then
    { corrected with correctedRole := some guessed }.markEdited "role"
  else corrected

def correctRole (row : PersonalMatch) (role : Text) : PersonalMatch :=
  { row with correctedRole := some role }.markEdited "role"

def correctMapName (row : PersonalMatch) (mapName : Text) : PersonalMatch :=
  let corrected := { row with correctedMapName := some mapName }.settle "map_name"
  let derived := storedGameMode mapName
  if derived.isEmpty then corrected else { corrected with gameMode := derived }

def correctOutcome (row : PersonalMatch) (outcome : Text) : PersonalMatch :=
  { row with correctedOutcome := some outcome }.settle "outcome"

def correctElims (row : PersonalMatch) (elims : ℕ) : PersonalMatch :=
  { row with correctedElims := some elims }.settle "elims"

def correctDeaths (row : PersonalMatch) (deaths : ℕ) : PersonalMatch :=
  { row with correctedDeaths := some deaths }.settle "deaths"

def correctAssists (row : PersonalMatch) (assists : ℕ) : PersonalMatch :=
  { row with correctedAssists := some assists }.settle "assists"

def correctDamage (row : PersonalMatch) (damage : ℕ) : PersonalMatch :=
  { row with correctedDamage := some damage }.settle "damage"

def correctHealing (row : PersonalMatch) (healing : ℕ) : PersonalMatch :=
  { row with correctedHealing := some healing }.settle "healing"

def correctMitigation (row : PersonalMatch) (mitigation : ℕ) : PersonalMatch :=
  { row with correctedMitigation := some mitigation }.settle "mitigation"

end PersonalMatch

/-- A field the edit leaves alone keeps the row. -/
def correctField {α : Type} (value : Option α) (correct : PersonalMatch → α → PersonalMatch)
    (row : PersonalMatch) : PersonalMatch :=
  value.elim row (correct row)

/-- `apply_match_edit`: the row with the edit laid over it, unless the edit is empty. -/
def applyMatchEdit (row : PersonalMatch) (edit : MatchEdit) (now : Datetime) :
    Option PersonalMatch :=
  let corrected := correctField edit.mitigation .correctMitigation <|
    correctField edit.healing .correctHealing <|
    correctField edit.damage .correctDamage <|
    correctField edit.assists .correctAssists <|
    correctField edit.deaths .correctDeaths <|
    correctField edit.elims .correctElims <|
    correctField edit.outcome .correctOutcome <|
    correctField edit.mapName .correctMapName <|
    correctField edit.role .correctRole <|
    correctField edit.hero (fun row hero => row.correctHero hero edit.role) row
  if edit.isEmpty then none else some { corrected with editedAt := some now }

end ScuffedCrew.Storage
