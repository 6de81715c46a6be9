import SoftTimer.Error
import SoftTimer.Setting

/-!
# Configuration

Which two compare channels a scheduler drives, how far ahead it arms them, and what a repeating
event does about occurrences that it missed.

The fallback interval and the number of slots that are used when a caller gives none are settings of
a build, which are given as text (`built`, `builtCapacity`). `standard` and `standardCapacity` are
those of a build that sets neither.
-/

namespace SoftTimer

/-- What a repeating event does when more than one of its occurrences is due: `collapse` or
`replay`. -/
inductive CatchUp where
  /-- The event fires once and skips to its next occurrence. -/
  | collapse
  /-- The event fires once for each occurrence, up to a bound, and then skips to its next one. -/
  | replay
deriving DecidableEq, Repr

/-- Which of the two compare channels raised an interrupt: the `primary` or the `fallback` channel.
-/
inductive InterruptSource where
  /-- The channel armed for the earliest event. -/
  | primary
  /-- The channel armed at a bounded distance whatever is pending. -/
  | fallback
deriving DecidableEq, Repr

/-- How a scheduler is set up. The defaults are those of `standard`. -/
structure Config where
  /-- The compare channel armed for the earliest event. -/
  primaryChannel : Nat := 1
  /-- The compare channel armed at a bounded distance. -/
  fallbackChannel : Nat := 0
  /-- The most microseconds between two interrupts of the fallback channel. -/
  fallbackIntervalUs : Nat := 10000000
  /-- The fewest ticks between now and an armed compare value. -/
  minArmTicks : Nat := 10
  /-- What a repeating event does about missed occurrences. -/
  catchUp : CatchUp := .collapse
  /-- How often a replaying event may fire in one interrupt. -/
  maxReplay : Nat := 16
deriving DecidableEq, Repr

namespace Config

/-- `standard` is the configuration used when a caller gives none. -/
def standard : Config := {}

/-- `standardCapacity` is the number of slots of a scheduler's pool when a caller asks for no other.
-/
def standardCapacity : Nat := 10

/-- The configuration used when a caller gives none, in a build whose setting for the fallback
interval is `interval`. -/
def built (interval : String) : Config := { fallbackIntervalUs := Setting.read interval 10000000 }

/-- The number of slots when a caller asks for no other, in a build whose setting for it is `size`.
-/
def builtCapacity (size : String) : Nat := Setting.read size 10

/-- `c.validate` is refused unless the channels differ and neither distance is zero. -/
def validate (c : Config) : Except TimerError Unit :=
  if c.primaryChannel = c.fallbackChannel ∨ c.fallbackIntervalUs = 0 ∨ c.minArmTicks = 0 then
    .error .invalidParameter
  else
    .ok ()

/-- `c.sourceOf? channel` says whose interrupt a match on a channel is, if it is one of the
scheduler's. -/
def sourceOf? (c : Config) (channel : Nat) : Option InterruptSource :=
  if channel = c.fallbackChannel then some .fallback
  else if channel = c.primaryChannel then some .primary
  else none

/-- Whether an event that has fired `count` times in one interrupt goes on to its very next
occurrence, rather than skip to the first one after now. -/
def replays (c : Config) (count : Nat) : Bool := c.catchUp == .replay && count < c.maxReplay

/-- The configuration `standard` is valid. -/
theorem validate_standard : standard.validate = .ok () := rfl

/-- The `standard` configuration is the one `built` from ten seconds. -/
theorem standard_eq_built : standard = built "10000000" := by decide

/-- The capacity `standardCapacity` is the one built from ten slots. -/
theorem standardCapacity_eq_builtCapacity : standardCapacity = builtCapacity "10" := by decide

/-- A configuration that is `built` is valid unless its setting is zero. -/
theorem validate_built (interval : String) :
    (built interval).validate = .ok () ↔ Setting.read interval 10000000 ≠ 0 := by
  simp [validate, built]

end Config

end SoftTimer
