import ScuffedCrew.Calendar.Structure

/-!
# The days of an event

The feed writes every event with the same first day, a Thursday, and the weekly
rule with the day of the event.  The first day is an occurrence in any case.
-/

namespace ScuffedCrew.Calendar

open Rust (Text)
open ICalendar (ContentLine Stamp Occurrence)

/-- The occurrences of the event from some day on: those of its clock and duration on its day of
the week, and the first of them only when it does not recur. -/
def Own (event : Event) (shown : Set Occurrence) : Prop :=
  ∃ hour minute first, parseHhmm event.time = some (hour, minute) ∧
    shown = { occurrence | occurrence.second = (hour * 60 + minute) * 60 ∧
      occurrence.duration = event.durationMinutes * 60 ∧
      ICalendar.weekday occurrence.day = event.dayOfWeek ∧ first ≤ occurrence.day ∧
      (event.isRecurring ∨ occurrence.day = first) }

/-- What a reader of the feed sees of the event is its own occurrences. -/
def ShownOnOwnDay (event : Event) (host : Text) : Prop :=
  ∃ text block shown, generateVevent event host = some text ∧
    ICalendar.readStream text = some block ∧ ICalendar.denoted block = some shown ∧
    Own event shown

section Checks

variable {event : Event} {host : Text} {day : ℤ}
  {hour minute endDay endHour endMin : ℕ}

theorem checkDayOfWeek_ok {stored : ℕ} (checked : checkDayOfWeek day = .ok stored) :
    stored < 7 := by
  unfold checkDayOfWeek at checked
  split at checked
  next bounds =>
    rcases Except.ok.inj checked with rfl
    omega
  next => cases checked

/-- A schedule that is stored can be written. -/
theorem exists_instants_of_checked
    (checked : checkEventSchedule event.time event.durationMinutes = .ok ()) :
    ∃ hour minute endDay endHour endMin, eventInstants event.time event.durationMinutes =
      some (hour, minute, endDay, endHour, endMin) := by
  unfold checkEventSchedule at checked
  split at checked
  · cases checked
  split at checked
  · cases checked
  split at checked
  · cases checked
  split at checked
  · cases checked
  next written =>
    rcases Option.ne_none_iff_exists'.mp (by simpa using written) with ⟨instants, found⟩
    exact ⟨_, _, _, _, _, found⟩

theorem weeklyDay_dayToRrule : ∀ day < 7,
    ICalendar.weeklyDay ("FREQ=WEEKLY;BYDAY=".toList ++ dayToRrule day) = some day := by
  decide

theorem property_rrule : ICalendar.property
      (veventLines event host (hour, minute, endDay, endHour, endMin)) "RRULE".toList =
    if event.isRecurring then
      some ⟨"RRULE".toList, [], "FREQ=WEEKLY;BYDAY=".toList ++ dayToRrule event.dayOfWeek⟩
    else none := by
  cases recurring : event.isRecurring <;> cases team : event.teamId <;>
    simp [ICalendar.property, veventLines, recurring, team]

/-- What the lines of an event denote. -/
theorem denoted_veventLines (known : event.dayOfWeek < 7)
    (accepted : Instants event.time event.durationMinutes hour minute endDay endHour endMin) :
    ICalendar.denoted (veventLines event host (hour, minute, endDay, endHour, endMin)) =
      some (ICalendar.occurrences ⟨2026, 1, 1, hour, minute, 0⟩
        ⟨2026, 1, endDay, endHour, endMin, 0⟩
        (if event.isRecurring then some event.dayOfWeek else none)) := by
  have hours := accepted.hours
  have minutes := accepted.minutes
  have january := accepted.january
  have end_hour := accepted.end_hour
  have end_min := accepted.end_min
  have start : ICalendar.property (veventLines event host
      (hour, minute, endDay, endHour, endMin)) "DTSTART".toList =
    some ⟨"DTSTART".toList, [("TZID".toList, sanitizeTzid event.timezone)],
      instant 1 hour minute⟩ := rfl
  have stop : ICalendar.property (veventLines event host
      (hour, minute, endDay, endHour, endMin)) "DTEND".toList =
    some ⟨"DTEND".toList, [("TZID".toList, sanitizeTzid event.timezone)],
      instant endDay endHour endMin⟩ := rfl
  have read_start : ICalendar.readStamp (instant 1 hour minute) = _ :=
    readStamp_instant (by omega) (by omega) (by omega)
  have read_stop : ICalendar.readStamp (instant endDay endHour endMin) = _ :=
    readStamp_instant (by omega) (by omega) (by omega)
  simp only [ICalendar.denoted, start, stop, Option.bind_some, read_start, read_stop,
    property_rrule, bind]
  cases event.isRecurring with
  | false => rfl
  | true =>
      rw [if_pos rfl, if_pos rfl]
      simp only [weeklyDay_dayToRrule event.dayOfWeek known, Option.map_some]

/-- A checked event is written, and its block denotes the anchor and its weekly rule. -/
theorem exists_shown (host : Text) (day_checked : checkDayOfWeek day = .ok event.dayOfWeek)
    (schedule_checked : checkEventSchedule event.time event.durationMinutes = .ok ()) :
    ∃ text block hour minute stop, generateVevent event host = some text ∧
      ICalendar.readStream text = some block ∧
      ICalendar.denoted block = some (ICalendar.occurrences ⟨2026, 1, 1, hour, minute, 0⟩ stop
        (if event.isRecurring then some event.dayOfWeek else none)) ∧
      parseHhmm event.time = some (hour, minute) ∧
      stop.seconds - Stamp.seconds ⟨2026, 1, 1, hour, minute, 0⟩ = event.durationMinutes * 60 := by
  rcases exists_instants_of_checked schedule_checked with
    ⟨hour, minute, endDay, endHour, endMin, found⟩
  have accepted := instants_of_some found
  have text : generateVevent event host = some ((veventLines event host
      (hour, minute, endDay, endHour, endMin)).flatMap fun written =>
        written.write ++ ICalendar.crlf) := by
    rw [generateVevent_eq, found]
    rfl
  refine ⟨_, _, hour, minute, _, text,
    ICalendar.readStream_write (wellFormed_veventLines accepted),
    denoted_veventLines (checkDayOfWeek_ok day_checked) accepted, accepted.clock, ?_⟩
  rw [accepted.seconds, Nat.add_sub_cancel_left]

theorem weekday_anchor :
    ICalendar.weekday (Stamp.dayNumber ⟨2026, 1, 1, hour, minute, 0⟩) = 3 := by
  rw [dayNumber_january]
  rfl

/-- The anchor is an occurrence, whatever the rule. -/
theorem dayOfWeek_of_shownOnOwnDay (day_checked : checkDayOfWeek day = .ok event.dayOfWeek)
    (schedule_checked : checkEventSchedule event.time event.durationMinutes = .ok ())
    (truly : ShownOnOwnDay event host) : event.dayOfWeek = 3 := by
  rcases exists_shown host day_checked schedule_checked with
    ⟨text, block, hour, minute, stop, is_text, is_block, denotes, -, -⟩
  rcases truly with ⟨_, _, _, is_text', is_block', denotes', hour', minute', first, -, own⟩
  rcases Option.some.inj (is_text.symm.trans is_text') with rfl
  rcases Option.some.inj (is_block.symm.trans is_block') with rfl
  rcases Option.some.inj (denotes.symm.trans denotes') with rfl
  have first_day : (⟨Stamp.dayNumber ⟨2026, 1, 1, hour, minute, 0⟩, _, _⟩ : Occurrence) ∈
      ICalendar.occurrences ⟨2026, 1, 1, hour, minute, 0⟩ stop
        (if event.isRecurring then some event.dayOfWeek else none) :=
    ⟨rfl, rfl, .inl rfl⟩
  rw [own] at first_day
  exact first_day.2.2.1.symm.trans weekday_anchor

theorem shownOnOwnDay_of_dayOfWeek (day_checked : checkDayOfWeek day = .ok event.dayOfWeek)
    (schedule_checked : checkEventSchedule event.time event.durationMinutes = .ok ())
    (thursday : event.dayOfWeek = 3) : ShownOnOwnDay event host := by
  rcases exists_shown host day_checked schedule_checked with
    ⟨text, block, hour, minute, stop, is_text, is_block, denotes, clock, lasts⟩
  refine ⟨text, block, _, is_text, is_block, denotes, hour, minute,
    Stamp.dayNumber ⟨2026, 1, 1, hour, minute, 0⟩, clock, ?_⟩
  have at_clock : Stamp.secondOfDay ⟨2026, 1, 1, hour, minute, 0⟩ = (hour * 60 + minute) * 60 := rfl
  ext ⟨shown_day, second, duration⟩
  simp only [ICalendar.occurrences, Set.mem_ofPred_eq, lasts, thursday, at_clock]
  cases event.isRecurring with
  | false =>
      simp only [Bool.false_eq_true, if_false, reduceCtorEq, and_false, or_false, false_or]
      constructor
      · rintro ⟨same_clock, so_long, rfl⟩
        exact ⟨same_clock, so_long, weekday_anchor, Nat.le_refl _, rfl⟩
      · rintro ⟨same_clock, so_long, -, -, rfl⟩
        exact ⟨same_clock, so_long, rfl⟩
  | true =>
      simp only [if_true, Option.some.injEq, true_or, and_true]
      constructor
      · rintro ⟨same_clock, so_long, rfl | ⟨later, on_day⟩⟩
        · exact ⟨same_clock, so_long, weekday_anchor, Nat.le_refl _⟩
        · exact ⟨same_clock, so_long, on_day.symm, later⟩
      · rintro ⟨same_clock, so_long, on_day, later⟩
        exact ⟨same_clock, so_long, .inr ⟨later, on_day.symm⟩⟩

end Checks

/-- A reader sees the event on its own day exactly when that is the day of the anchor. -/
theorem shownOnOwnDay_iff (event : Event) (host : Text) (day : ℤ)
    (day_checked : checkDayOfWeek day = .ok event.dayOfWeek)
    (schedule_checked : checkEventSchedule event.time event.durationMinutes = .ok ()) :
    ShownOnOwnDay event host ↔ event.dayOfWeek = 3 :=
  ⟨dayOfWeek_of_shownOnOwnDay day_checked schedule_checked,
    shownOnOwnDay_of_dayOfWeek day_checked schedule_checked⟩

theorem thursday_practice :
    ShownOnOwnDay ⟨"evt1".toList, "Practice".toList, 3, "20:00".toList, "UTC".toList, 90, true, none⟩
        "clan.example".toList ↔
      (3 : ℕ) = 3 :=
  shownOnOwnDay_iff _ _ 3 (by decide) (by decide)

/-- A practice on Mondays shows up on Thursday, 1 January 2026. -/
theorem monday_practice :
    checkDayOfWeek 0 = .ok 0 ∧ checkEventSchedule "20:00".toList 90 = .ok () ∧
      ¬ShownOnOwnDay
        ⟨"evt1".toList, "Practice".toList, 0, "20:00".toList, "UTC".toList, 90, true, none⟩
        "clan.example".toList := by
  have checked : checkDayOfWeek 0 = .ok 0 := by decide
  refine ⟨checked, by decide, fun truly => ?_⟩
  cases dayOfWeek_of_shownOnOwnDay checked (by decide) truly

end ScuffedCrew.Calendar
