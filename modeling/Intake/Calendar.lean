import Intake.Calendar.Instant

/-! Calendars. Which date a text says may depend on when it is read: `now` says another one each
time, and a time of day is one of the current day. -/
namespace Intake

/-- How texts are read as dates, at one time. -/
abbrev Dates := Text → Option Calendar.Instant

/-- How texts are read as dates, by the time in milliseconds since the start of 1970. -/
abbrev Calendar := Int → Dates

end Intake
