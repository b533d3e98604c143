import ScuffedCrew.Rust.Bytes

/-!
# Calendar feed

The events of a team as an iCalendar stream: the checks of the schedule when an
event is stored, and the text the feed writes for it.
-/

namespace ScuffedCrew.Calendar

open Rust (Text)

/-- 0 is Monday.  Other values are legacy rows, and written as Monday. -/
def dayToRrule : ℕ → Text
  | 0 => "MO".toList
  | 1 => "TU".toList
  | 2 => "WE".toList
  | 3 => "TH".toList
  | 4 => "FR".toList
  | 5 => "SA".toList
  | 6 => "SU".toList
  | _ => "MO".toList

def maxEventDurationMinutes : ℕ := 24 * 60

def minutesPerDay : ℕ := 24 * 60

inductive ScheduleError
  | time
  | duration
  | endsBeforeStart
  deriving DecidableEq

def ScheduleError.message : ScheduleError → Text
  | .time => "time must be HH:MM from 00:00 to 23:59".toList
  | .duration => "duration_minutes must be from 1 to 1440".toList
  | .endsBeforeStart => "end time must be after the start time".toList

def checkDayOfWeek (day : ℤ) : Except Text ℕ :=
  if 0 ≤ day ∧ day ≤ 255 ∧ day ≤ 6 then .ok day.toNat
  else .error "day_of_week must be from 0 to 6".toList

/-- `parse` of ASCII digits. -/
def parseDigits (digits : Text) : ℕ :=
  digits.foldl (fun number digit => number * 10 + (digit.toNat - 48)) 0

def parseHhmm (time : Text) : Option (ℕ × ℕ) :=
  (time.splitOnce ':').bind fun (hour, minute) =>
    if hour.byteLen ≠ 2 ∨ minute.byteLen ≠ 2 then none
    else if !(hour.all Char.isDigit) ∨ !(minute.all Char.isDigit) then none
    else if 23 < parseDigits hour ∨ 59 < parseDigits minute then none
    else some (parseDigits hour, parseDigits minute)

def checkedU32 (number : ℕ) : Option ℕ := if number < 2 ^ 32 then some number else none

/-- The start clock, the day of January the event ends, and the clock then. -/
def eventInstants (time : Text) (durationMinutes : ℕ) : Option (ℕ × ℕ × ℕ × ℕ × ℕ) := do
  let (hour, minute) ← parseHhmm time
  let start ← (← checkedU32 (hour * 60)) + minute |> checkedU32
  let stop ← checkedU32 (start + durationMinutes)
  if stop ≤ start then none
  else
    let day ← checkedU32 (1 + stop / minutesPerDay)
    if 31 < day then none
    else
      let endClock := stop % minutesPerDay
      some (hour, minute, day, endClock / 60, endClock % 60)

def checkEventSchedule (time : Text) (durationMinutes : ℕ) : Except ScheduleError Unit :=
  if (parseHhmm time).isNone then .error .time
  else if durationMinutes = 0 then .error .endsBeforeStart
  else if maxEventDurationMinutes < durationMinutes then .error .duration
  else if (eventInstants time durationMinutes).isNone then .error .endsBeforeStart
  else .ok ()

structure Event where
  id : Text
  title : Text
  dayOfWeek : ℕ
  time : Text
  timezone : Text
  durationMinutes : ℕ
  isRecurring : Bool
  teamId : Option Text

/-- `char::is_control`. -/
def isControl (letter : Char) : Bool :=
  decide (letter.toNat < 0x20) || decide (0x7F ≤ letter.toNat ∧ letter.toNat < 0xA0)

def isSeparator (letter : Char) : Bool := letter == '\u2028' || letter == '\u2029'

def escapeIcal : Text → Text
  | [] => []
  | '\r' :: '\n' :: rest => "\\n".toList ++ escapeIcal rest
  | letter :: rest =>
      (if letter = '\\' then "\\\\".toList
      else if letter = ';' then "\\;".toList
      else if letter = ',' then "\\,".toList
      else if letter = '\r' then "\\n".toList
      else if letter = '\n' ∨ isSeparator letter then "\\n".toList
      else if isControl letter then []
      else [letter]) ++ escapeIcal rest

def stripIcalBreaks (text : Text) : Text :=
  text.filter fun letter => !isControl letter && !isSeparator letter

def sanitizeTzid (timezone : Text) : Text :=
  let cleaned := timezone.filter fun letter =>
    letter.isAlphanum || ['/', '_', '-', '+'].contains letter
  if cleaned.isEmpty then "UTC".toList else cleaned

/-- A number in decimal, filled up with zeros. -/
def padded (width number : ℕ) : Text := (Nat.toDigits 10 number).leftpad width '0'

def line (text : Text) : Text := text ++ "\r\n".toList

/-- The date and clock of an instant in January 2026. -/
def instant (day hour minute : ℕ) : Text :=
  padded 4 2026 ++ padded 2 1 ++ padded 2 day ++ "T".toList ++ padded 2 hour ++ padded 2 minute ++
    "00".toList

def generateVevent (event : Event) (host : Text) : Option Text :=
  let uid := "event-".toList ++ stripIcalBreaks event.id ++ "@".toList ++ stripIcalBreaks host
  let rruleDay := dayToRrule event.dayOfWeek
  (eventInstants event.time event.durationMinutes).map
    fun (hour, minute, endDay, endHour, endMin) =>
      let tzid := sanitizeTzid event.timezone
      let dtstart := "DTSTART;TZID=".toList ++ tzid ++ ":".toList ++ instant 1 hour minute
      let dtend := "DTEND;TZID=".toList ++ tzid ++ ":".toList ++ instant endDay endHour endMin
      line "BEGIN:VEVENT".toList ++ line ("UID:".toList ++ uid) ++ line dtstart ++ line dtend ++
        line ("SUMMARY:".toList ++ escapeIcal event.title) ++
        (if event.isRecurring then line ("RRULE:FREQ=WEEKLY;BYDAY=".toList ++ rruleDay) else []) ++
        (match event.teamId with
          | some teamId => line ("DESCRIPTION:Team: ".toList ++ escapeIcal teamId)
          | none => []) ++
        line "END:VEVENT".toList

def generateIcal (events : List Event) (host calendarName : Text) : Text :=
  line "BEGIN:VCALENDAR".toList ++ line "VERSION:2.0".toList ++
    line "PRODID:-//Clan Platform//site-server//EN".toList ++
    line ("X-WR-CALNAME:".toList ++ escapeIcal calendarName) ++
    line "CALSCALE:GREGORIAN".toList ++ line "METHOD:PUBLISH".toList ++
    events.flatMap (fun event => (generateVevent event host).getD []) ++
    line "END:VCALENDAR".toList

end ScuffedCrew.Calendar
