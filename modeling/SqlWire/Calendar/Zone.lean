import SqlWire.Calendar.Date

/-! Timestamps with an offset from universal time. The offset is a whole number
of minutes of less than a day, and the universal time it leads to has to be in
the calendar as well. -/
namespace SqlWire

/-- Minutes east of universal time. -/
structure Offset where
  minutes : Int
  bounds : -1440 < minutes ∧ minutes < 1440
deriving DecidableEq

namespace Offset

/-- Universal time itself. -/
def zero : Offset := ⟨0, by decide⟩

/-- The offset of these minutes, when they are less than a day. -/
def ofMinutes? (minutes : Int) : Option Offset :=
  if bounds : -1440 < minutes ∧ minutes < 1440 then some ⟨minutes, bounds⟩ else none

/-- Seconds east of universal time. -/
def seconds (offset : Offset) : Int := offset.minutes * 60

/-- A sign, two digits of hours, a colon and two digits of minutes. -/
def toText (offset : Offset) : Text :=
  let size := offset.minutes.natAbs
  (if offset.minutes < 0 then '-' else '+') ::
    Date.twoDigits (size / 60) ++ ':' :: Date.twoDigits (size % 60)

end Offset

/-- A timestamp as the wall clock of an offset shows it. -/
structure ZonedTimestamp where
  wall : Timestamp
  offset : Offset
  in_calendar : (wall.shift? (-offset.minutes)).isSome
deriving DecidableEq

namespace ZonedTimestamp

/-- The wall time at an offset, when its universal time is in the calendar. -/
def ofWall? (wall : Timestamp) (offset : Offset) : Option ZonedTimestamp :=
  if inside : (wall.shift? (-offset.minutes)).isSome then some ⟨wall, offset, inside⟩ else none

/-- The same instant in universal time. -/
def universal (stamp : ZonedTimestamp) : Timestamp :=
  (stamp.wall.shift? (-stamp.offset.minutes)).get stamp.in_calendar

/-- The wall time followed by the offset. -/
def toText (stamp : ZonedTimestamp) : Text :=
  stamp.wall.toText ++ stamp.offset.toText

end ZonedTimestamp

end SqlWire
