import ScuffedCrew.Rust.Text

/-!
# Maps, modes and the review hold

The mode bucket of a canonical map name, the mode an upload sends, and what
holds a row on the machine until a member picks its map or hero.
-/

namespace ScuffedCrew.Parse

open Rust

def modeBucket : String × List String → Text × List Text
  | (mode, maps) => (mode.toList, maps.map String.toList)

/-- The arms of `map_mode`. -/
def modeBuckets : List (Text × List Text) :=
  [
    ("Escort", ["Circuit Royal", "Dorado", "Havana", "Junkertown", "Rialto", "Route 66",
      "Shambali Monastery", "Watchpoint: Gibraltar", "Watchpoint: Grímsvötn"]),
    ("Hybrid", ["Blizzard World", "Eichenwalde", "Hollywood", "King's Row", "Midtown",
      "Neon Junction", "Numbani", "Paraiso"]),
    ("Control", ["Antarctic Peninsula", "Busan", "Ilios", "Lijiang Tower", "Nepal", "Oasis",
      "Samoa"]),
    ("Push", ["Colosseo", "Esperanca", "New Queen Street", "Runasapi"]),
    ("Flashpoint", ["Aatlis", "New Junk City", "Suravasa"]),
    ("Clash", ["Hanaoka", "Throne of Anubis"]),
    ("Assault", ["Hanamura", "Horizon Lunar Colony", "Paris", "Temple of Anubis",
      "Volskaya Industries"]),
    ("Elimination", ["Black Forest", "Castillo", "Ecopoint: Antarctica", "Necropolis"]),
    ("Capture the Flag", ["Ayutthaya"]),
    ("Payload Race", ["Powder Keg Mine", "Thames District"]),
    ("Stadium", ["Arena Victoriae", "Gogadoro", "Place Lacroix", "Redwood Dam", "Serenza",
      "Wuxing University - Water College"]),
    ("Workshop", ["Workshop Chamber", "Workshop Expanse", "Workshop Green Screen",
      "Workshop Island"]),
    ("Practice", ["Mastery Course", "Practice Range", "Tutorial"]),
    ("Deathmatch", ["Château Guillard", "Kanezaka", "Malevento", "Petra"])
  ].map modeBucket

def mapMode (canonicalName : Text) : Option Text :=
  (modeBuckets.find? fun bucket => bucket.2.contains canonicalName).map Prod.fst

def storedGameMode (canonical : Text) : Text := (mapMode canonical).getD []

/-- Mode sent for a row.  A known map wins; an unknown one keeps the mode on the row. -/
def uploadedGameMode (mapName gameMode : Text) : Text :=
  let fromMap := storedGameMode mapName
  if fromMap.isEmpty then gameMode else fromMap

def mapIsKnown (name : Text) : Bool := (mapMode name.trim).isSome

/-- Empty, or the literal `Unknown` in any ASCII case. -/
def heroIsUnknownLabel (name : Text) : Bool :=
  let trimmed := name.trim
  trimmed.isEmpty || trimmed.eqIgnoreAsciiCase "unknown".toList

/-- Server names of the fields that hold a row back from upload. -/
def reviewSuspectFields (mapName gameMode hero : Text) : List Text :=
  let map := mapName.trim
  (if !mapIsKnown map then ["map".toList] else []) ++
    (if (uploadedGameMode map gameMode).trim.isEmpty then ["mode".toList] else []) ++
    (if heroIsUnknownLabel hero then ["hero".toList] else [])

def uploadIdentityBlank (mapName gameMode hero : Text) : Bool :=
  mapName.trim.isEmpty || gameMode.trim.isEmpty || hero.trim.isEmpty

end ScuffedCrew.Parse

/-!
## Suspect fields of a row

A stored row names the fields its reader was not sure about, some of them with
the board row they were read from (`r3.dmg`).  An upload sends the flat names.
-/

namespace ScuffedCrew.Parse

open Rust

/-- `SUSPECT_FIELD_NAMES`, the server's allowlist. -/
def suspectFieldNames : List Text :=
  ["map", "mode", "result", "hero", "e", "a", "d", "dmg", "h", "mit"].map String.toList

def flatSuspectName (name : Text) : Option Text :=
  if suspectFieldNames.contains name then some name
  else do
    let (row, field) ← name.splitOnce '.'
    let digits ← row.stripStart ['r']
    if digits.isEmpty || !digits.all Char.isDigit then none
    else if suspectFieldNames.contains field then some field
    else none

/-- The allowed names that some stored name flattens to, in the order of the allowlist. -/
def uploadSuspectFields (stored : List Text) : List Text :=
  suspectFieldNames.filter fun allowed =>
    stored.any fun name => flatSuspectName name == some allowed

def suspectNamesForEdit (storageField : String) : List Text :=
  match storageField with
  | "hero" => ["hero".toList]
  | "map_name" => ["map".toList, "mode".toList]
  | "outcome" => ["result".toList]
  | "elims" => ["e".toList]
  | "assists" => ["a".toList]
  | "deaths" => ["d".toList]
  | "damage" => ["dmg".toList]
  | "healing" => ["h".toList]
  | "mitigation" => ["mit".toList]
  | _ => []

/-- The suspect names left after a manual edit of a field. -/
def clearEditedSuspects (fields : List Text) (storageField : String) : List Text :=
  let dropNames := suspectNamesForEdit storageField
  fields.filter fun name =>
    match flatSuspectName name with
    | none => true
    | some flat => !dropNames.contains flat

end ScuffedCrew.Parse
