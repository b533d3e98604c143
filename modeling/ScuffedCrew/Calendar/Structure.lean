import ScuffedCrew.Calendar.Feed
import ScuffedCrew.ICalendar.Recurrence

/-!
# The lines of the feed

A reader finds the header, the lines of each event that can be written, and the
footer.  No text of an event, of the host or of the calendar changes the lines
or their parameters.
-/

namespace ScuffedCrew.Calendar

open Rust (Text)
open ICalendar (ContentLine)

def headerLines (calendarName : Text) : List ContentLine :=
  [⟨"BEGIN".toList, [], "VCALENDAR".toList⟩, ⟨"VERSION".toList, [], "2.0".toList⟩,
    ⟨"PRODID".toList, [], "-//Clan Platform//site-server//EN".toList⟩,
    ⟨"X-WR-CALNAME".toList, [], escapeIcal calendarName⟩,
    ⟨"CALSCALE".toList, [], "GREGORIAN".toList⟩, ⟨"METHOD".toList, [], "PUBLISH".toList⟩]

def footerLines : List ContentLine := [⟨"END".toList, [], "VCALENDAR".toList⟩]

/-- The lines of an event with the instants it is written with. -/
def veventLines (event : Event) (host : Text) : ℕ × ℕ × ℕ × ℕ × ℕ → List ContentLine
  | (hour, minute, endDay, endHour, endMin) =>
      [⟨"BEGIN".toList, [], "VEVENT".toList⟩,
        ⟨"UID".toList, [], "event-".toList ++ stripIcalBreaks event.id ++ "@".toList ++
          stripIcalBreaks host⟩,
        ⟨"DTSTART".toList, [("TZID".toList, sanitizeTzid event.timezone)], instant 1 hour minute⟩,
        ⟨"DTEND".toList, [("TZID".toList, sanitizeTzid event.timezone)],
          instant endDay endHour endMin⟩,
        ⟨"SUMMARY".toList, [], escapeIcal event.title⟩] ++
      (if event.isRecurring then
        [⟨"RRULE".toList, [], "FREQ=WEEKLY;BYDAY=".toList ++ dayToRrule event.dayOfWeek⟩]
      else []) ++
      event.teamId.toList.map (fun teamId =>
        ⟨"DESCRIPTION".toList, [], "Team: ".toList ++ escapeIcal teamId⟩) ++
      [⟨"END".toList, [], "VEVENT".toList⟩]

/-- The lines of an event, when its clock and duration are accepted. -/
def blockLines (host : Text) (event : Event) : List ContentLine :=
  ((eventInstants event.time event.durationMinutes).map (veventLines event host)).getD []

/-- The title with every line break as a newline, and without other control characters. -/
def normalized : Text → Text
  | [] => []
  | '\r' :: '\n' :: rest => '\n' :: normalized rest
  | letter :: rest =>
      if letter = '\r' ∨ letter = '\n' ∨ isSeparator letter then '\n' :: normalized rest
      else if isControl letter then normalized rest
      else letter :: normalized rest

/-! ## The sanitisers -/

section Sanitisers

variable {text : Text}

theorem carriage_isControl : isControl '\r' = true := by decide

theorem carriage_notMem_stripIcalBreaks : '\r' ∉ stripIcalBreaks text := by
  intro carriage
  have kept := (List.mem_filter.mp carriage).2
  simp [carriage_isControl] at kept

theorem carriage_notMem_escapeIcal : '\r' ∉ escapeIcal text := by
  fun_induction escapeIcal text with
  | case1 => simp
  | case2 rest ih => simpa using ih
  | case3 letter rest _ ih =>
      rw [List.mem_append, not_or]
      refine ⟨?_, ih⟩
      repeat' split
      all_goals try decide
      next plain =>
        intro carriage
        rcases List.mem_singleton.mp carriage with rfl
        exact plain carriage_isControl

/-- Undoing the escapes of a text gives it back with its line breaks as newlines. -/
theorem unescape_escapeIcal : ICalendar.unescape (escapeIcal text) = some (normalized text) := by
  fun_induction escapeIcal text with
  | case1 => rfl
  | case2 rest ih =>
      have escape : ICalendar.unescape ('\\' :: 'n' :: escapeIcal rest) = _ :=
        ICalendar.unescape_escape rfl
      rw [normalized]
      refine escape.trans ?_
      rw [ih]
      rfl
  | case3 letter rest unpaired ih =>
      have escape : ∀ {written meant : Char}, ICalendar.unescapeLetter written = some meant →
          ICalendar.unescape ('\\' :: written :: escapeIcal rest) =
            some (meant :: normalized rest) := by
        intro written meant stands
        rw [ICalendar.unescape_escape stands, ih]
        rfl
      rw [normalized]
      · split
        next same => subst same; exact escape rfl
        next not_backslash =>
        split
        next same => subst same; exact escape rfl
        next =>
        split
        next same => subst same; exact escape rfl
        next =>
        split
        next same => subst same; exact escape rfl
        next not_carriage =>
        by_cases breaks : letter = '\n' ∨ isSeparator letter
        · rw [if_pos breaks, if_pos (.inr breaks)]
          exact escape rfl
        · have unbroken : ¬(letter = '\r' ∨ letter = '\n' ∨ isSeparator letter) :=
            fun any => any.elim not_carriage breaks
          rw [if_neg breaks, if_neg unbroken]
          cases control : isControl letter with
          | true => simpa using ih
          | false =>
              refine (ICalendar.unescape_cons not_backslash).trans ?_
              exact congrArg (Option.map (letter :: ·)) ih
      · exact unpaired

theorem plain_of_isAlphanum {letter : Char}
    (kept : letter.isAlphanum ∨ ['/', '_', '-', '+'].contains letter) :
    (letter ≠ ':' ∧ letter ≠ ';' ∧ letter ≠ '"' ∧ letter ≠ '=') ∧ letter ≠ '\r' := by
  refine ⟨⟨?_, ?_, ?_, ?_⟩, ?_⟩ <;>
    rintro rfl <;>
    simp at kept

theorem mem_sanitizeTzid {letter : Char} (mem : letter ∈ sanitizeTzid text) :
    letter.isAlphanum ∨ ['/', '_', '-', '+'].contains letter := by
  unfold sanitizeTzid at mem
  dsimp only at mem
  split at mem
  next =>
    have known : "UTC".toList.all (fun letter =>
        letter.isAlphanum || ['/', '_', '-', '+'].contains letter) = true := by decide
    exact Bool.or_eq_true_iff.mp (List.all_eq_true.mp known letter mem)
  next => simpa using (List.mem_filter.mp mem).2

theorem plain_sanitizeTzid : ICalendar.Plain (sanitizeTzid text) :=
  fun _ mem => (plain_of_isAlphanum (mem_sanitizeTzid mem)).1

theorem carriage_notMem_sanitizeTzid : '\r' ∉ sanitizeTzid text :=
  fun mem => (plain_of_isAlphanum (mem_sanitizeTzid mem)).2 rfl

theorem carriage_notMem_dayToRrule {day : ℕ} : '\r' ∉ dayToRrule day := by
  unfold dayToRrule
  split <;> decide

/-- A number below a hundred is two digits. -/
theorem padded_two : ∀ number < 100,
    padded 2 number = [Nat.digitChar (number / 10), Nat.digitChar (number % 10)] := by
  decide

theorem digit_digitChar : ∀ number < 10,
    ICalendar.digit (Nat.digitChar number) = some number ∧ Nat.digitChar number ≠ '\r' := by
  decide

end Sanitisers

/-! ## Instants -/

section Instants

variable {time : Text} {durationMinutes hour minute day endHour endMin : ℕ}

/-- An accepted clock and duration: the end is so many minutes after the start. -/
structure Instants (time : Text) (durationMinutes hour minute day endHour endMin : ℕ) : Prop where
  clock : parseHhmm time = some (hour, minute)
  hours : hour ≤ 23
  minutes : minute ≤ 59
  some_minutes : 0 < durationMinutes
  end_day : day = 1 + (hour * 60 + minute + durationMinutes) / 1440
  january : day ≤ 31
  end_hour : endHour = (hour * 60 + minute + durationMinutes) % 1440 / 60
  end_min : endMin = (hour * 60 + minute + durationMinutes) % 1440 % 60

theorem parseHhmm_bounds (clock : parseHhmm time = some (hour, minute)) :
    hour ≤ 23 ∧ minute ≤ 59 := by
  unfold parseHhmm at clock
  rcases Option.bind_eq_some_iff.mp clock with ⟨⟨first, second⟩, -, checked⟩
  dsimp only at checked
  split at checked
  · cases checked
  · split at checked
    · cases checked
    · split at checked
      · cases checked
      next bounds =>
        rcases Prod.mk.inj (Option.some.inj checked) with ⟨rfl, rfl⟩
        omega

theorem instants_of_some
    (accepted : eventInstants time durationMinutes = some (hour, minute, day, endHour, endMin)) :
    Instants time durationMinutes hour minute day endHour endMin := by
  simp only [eventInstants, checkedU32, bind, Option.bind_eq_some_iff, Option.ite_none_right_eq_some,
    Option.ite_none_left_eq_some, Option.some.injEq, Prod.mk.injEq, Prod.exists] at accepted
  rcases accepted with ⟨hour, minute, clock, _, ⟨-, rfl⟩, _, ⟨-, rfl⟩, _, ⟨-, rfl⟩, later, _,
    ⟨-, rfl⟩, january, rfl, rfl, rfl, rfl, rfl⟩
  rcases parseHhmm_bounds clock with ⟨hours, minutes⟩
  exact ⟨clock, hours, minutes, by omega, rfl, by omega, rfl, rfl⟩

theorem readStamp_instant (days : day < 100) (hours : hour < 100) (minutes : minute < 100) :
    ICalendar.readStamp (instant day hour minute) = some ⟨2026, 1, day, hour, minute, 0⟩ := by
  have pair : ∀ number < 100, ICalendar.pair (Nat.digitChar (number / 10))
      (Nat.digitChar (number % 10)) = some number := by decide
  have year : padded 4 2026 = "2026".toList := by decide
  have month : padded 2 1 = "01".toList := by decide
  have read_day := pair day days
  have read_hour := pair hour hours
  have read_minute := pair minute minutes
  rw [instant, year, month, padded_two day days, padded_two hour hours, padded_two minute minutes]
  have known : ICalendar.pair '2' '0' = some 20 ∧ ICalendar.pair '2' '6' = some 26 ∧
      ICalendar.pair '0' '1' = some 1 ∧ ICalendar.pair '0' '0' = some 0 := by decide
  simp [ICalendar.readStamp, read_day, read_hour, read_minute, known]

theorem carriage_notMem_instant (days : day < 100) (hours : hour < 100) (minutes : minute < 100) :
    '\r' ∉ instant day hour minute := by
  have digits : ∀ number < 100, '\r' ∉ padded 2 number := by
    intro number small
    rw [padded_two number small]
    have first := (digit_digitChar (number / 10) (by omega)).2
    have second := (digit_digitChar (number % 10) (by omega)).2
    simp [first.symm, second.symm]
  have year : '\r' ∉ padded 4 2026 ++ padded 2 1 := by decide
  simp only [instant, List.mem_append, not_or] at year ⊢
  exact ⟨⟨⟨⟨⟨⟨year.1, year.2⟩, digits day days⟩, by decide⟩, digits hour hours⟩,
    digits minute minutes⟩, by decide⟩

theorem dayNumber_january :
    ICalendar.Stamp.dayNumber ⟨2026, 1, day, hour, minute, 0⟩ = 739616 + (day - 1) := by
  simp [ICalendar.Stamp.dayNumber, ICalendar.daysBeforeYear]

/-- The end is the duration after the start. -/
theorem Instants.seconds
    (accepted : Instants time durationMinutes hour minute day endHour endMin) :
    ICalendar.Stamp.seconds ⟨2026, 1, day, endHour, endMin, 0⟩ =
      ICalendar.Stamp.seconds ⟨2026, 1, 1, hour, minute, 0⟩ + durationMinutes * 60 := by
  have end_day := accepted.end_day
  have end_hour := accepted.end_hour
  have end_min := accepted.end_min
  rw [ICalendar.Stamp.seconds, ICalendar.Stamp.seconds, dayNumber_january, dayNumber_january]
  simp only [ICalendar.Stamp.secondOfDay]
  omega

end Instants

/-! ## The stream -/

section Stream

variable {event : Event} {host calendarName : Text} {instants : ℕ × ℕ × ℕ × ℕ × ℕ}

/-- The block of an event is its lines, one after another. -/
theorem generateVevent_eq : generateVevent event host =
    (eventInstants event.time event.durationMinutes).map fun instants =>
      (veventLines event host instants).flatMap fun written => written.write ++ ICalendar.crlf := by
  unfold generateVevent
  dsimp only
  congr 1
  funext ⟨hour, minute, day, endHour, endMin⟩
  cases recurring : event.isRecurring <;> cases team : event.teamId <;>
    simp [veventLines, recurring, team, line, ContentLine.write, ICalendar.writeParam,
      ICalendar.crlf]

theorem generateIcal_eq (events : List Event) : generateIcal events host calendarName =
    (headerLines calendarName ++ events.flatMap (blockLines host) ++ footerLines).flatMap
      fun written => written.write ++ ICalendar.crlf := by
  have blocks : ∀ event, (generateVevent event host).getD [] =
      (blockLines host event).flatMap fun written => written.write ++ ICalendar.crlf := by
    intro event
    rw [generateVevent_eq, blockLines]
    cases eventInstants event.time event.durationMinutes <;> rfl
  simp only [generateIcal, blocks, List.flatMap_append, ← List.flatMap_assoc]
  simp [headerLines, footerLines, line, ContentLine.write, ICalendar.crlf, List.append_assoc]

theorem wellFormed_plain {name value : Text} (plain : ICalendar.Plain name ∧ '\r' ∉ name)
    (unbroken : '\r' ∉ value) : ContentLine.WellFormed ⟨name, [], value⟩ :=
  ⟨plain.1, by simp, by simp [ContentLine.write, plain.2, unbroken]⟩

theorem wellFormed_zone {name value : Text} (plain : ICalendar.Plain name ∧ '\r' ∉ name)
    (unbroken : '\r' ∉ value) :
    ContentLine.WellFormed ⟨name, [("TZID".toList, sanitizeTzid event.timezone)], value⟩ := by
  refine ⟨plain.1, fun param param_mem => ?_, ?_⟩
  · rcases List.mem_singleton.mp param_mem with rfl
    exact ⟨(by decide : ICalendar.Plain "TZID".toList), plain_sanitizeTzid⟩
  · simp [ContentLine.write, ICalendar.writeParam, plain.2, unbroken, carriage_notMem_sanitizeTzid]

theorem wellFormed_veventLines {hour minute day endHour endMin : ℕ}
    (accepted : Instants event.time event.durationMinutes hour minute day endHour endMin) :
    ∀ written ∈ veventLines event host (hour, minute, day, endHour, endMin),
      written.WellFormed := by
  have hours := accepted.hours
  have minutes := accepted.minutes
  have january := accepted.january
  have end_hour := accepted.end_hour
  have end_min := accepted.end_min
  intro written written_mem
  simp only [veventLines, List.mem_append, List.mem_cons, List.not_mem_nil, or_false, List.mem_map,
    Option.mem_toList, or_assoc] at written_mem
  rcases written_mem with rfl | rfl | rfl | rfl | rfl | recurs | ⟨teamId, -, rfl⟩ | rfl
  · exact wellFormed_plain (by decide) (by decide)
  · refine wellFormed_plain (by decide) ?_
    simp [carriage_notMem_stripIcalBreaks]
  · exact wellFormed_zone (by decide)
      (carriage_notMem_instant (by omega) (by omega) (by omega))
  · exact wellFormed_zone (by decide)
      (carriage_notMem_instant (by omega) (by omega) (by omega))
  · exact wellFormed_plain (by decide) carriage_notMem_escapeIcal
  · split at recurs
    · rcases List.mem_singleton.mp recurs with rfl
      refine wellFormed_plain (by decide) ?_
      simp [carriage_notMem_dayToRrule]
    · cases recurs
  · refine wellFormed_plain (by decide) ?_
    simp [carriage_notMem_escapeIcal]
  · exact wellFormed_plain (by decide) (by decide)

theorem wellFormed_blockLines : ∀ written ∈ blockLines host event, written.WellFormed := by
  unfold blockLines
  cases accepted : eventInstants event.time event.durationMinutes with
  | none => simp
  | some instants => exact wellFormed_veventLines (instants_of_some accepted)

theorem wellFormed_headerLines : ∀ written ∈ headerLines calendarName, written.WellFormed := by
  intro written written_mem
  simp only [headerLines, List.mem_cons, List.not_mem_nil, or_false] at written_mem
  rcases written_mem with rfl | rfl | rfl | rfl | rfl | rfl
  case inr.inr.inr.inl => exact wellFormed_plain (by decide) carriage_notMem_escapeIcal
  all_goals exact wellFormed_plain (by decide) (by decide)

end Stream

/-- The feed reads as the header, the lines of every event that can be written, and the footer. -/
theorem readStream_generateIcal (events : List Event) (host calendarName : Text) :
    ICalendar.readStream (generateIcal events host calendarName) =
        some (headerLines calendarName ++ events.flatMap (blockLines host) ++ footerLines) ∧
      (∀ event : Event, ICalendar.unescape (escapeIcal event.title) =
        some (normalized event.title)) ∧
      ∀ event ∈ events, ∀ hour minute day endHour endMin,
        eventInstants event.time event.durationMinutes =
            some (hour, minute, day, endHour, endMin) →
          ∃ start stop, ICalendar.readStamp (instant 1 hour minute) = some start ∧
            ICalendar.readStamp (instant day endHour endMin) = some stop ∧
            start.seconds < stop.seconds := by
  refine ⟨?_, fun event => unescape_escapeIcal, ?_⟩
  · rw [generateIcal_eq]
    apply ICalendar.readStream_write
    intro written written_mem
    simp only [List.mem_append, List.mem_flatMap] at written_mem
    rcases written_mem with (header | ⟨event, -, block⟩) | footer
    · exact wellFormed_headerLines written header
    · exact wellFormed_blockLines written block
    · rcases List.mem_singleton.mp footer with rfl
      exact wellFormed_plain (by decide) (by decide)
  · intro event _ hour minute day endHour endMin found
    have accepted := instants_of_some found
    have hours := accepted.hours
    have minutes := accepted.minutes
    have january := accepted.january
    have end_hour := accepted.end_hour
    have end_min := accepted.end_min
    have some_minutes := accepted.some_minutes
    refine ⟨_, _, readStamp_instant (by omega) (by omega) (by omega),
      readStamp_instant (by omega) (by omega) (by omega), ?_⟩
    rw [accepted.seconds]
    omega

end ScuffedCrew.Calendar
