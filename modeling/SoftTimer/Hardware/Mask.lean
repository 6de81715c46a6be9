import SoftTimer.Hardware.Basic

/-!
# Masked sections

A masked section keeps a timer's interrupts out. Entering it masks them unless they are masked
already, and leaving it restores what was found, so sections nest: only the outermost one that found
interrupts enabled enables them again.
-/

namespace SoftTimer.IrqMask

variable {H : Type} [TimerHardware H]

/-- `enter hw` enters a masked section. Also says whether leaving it has to enable interrupts. -/
def enter (hw : H) : Bool × H :=
  if TimerHardware.interruptsEnabled hw then
    (true, TimerHardware.disableInterrupts hw)
  else
    (false, hw)

/-- `leave restore hw` leaves a masked section, and enables interrupts if `restore` says so. -/
def leave (restore : Bool) (hw : H) : H :=
  if restore then TimerHardware.enableInterrupts hw else hw

/-- `within act hw` acts on the hardware in a masked section. -/
def within {α : Type} (act : H → α × H) (hw : H) : α × H :=
  let (restore, hw) := enter hw
  let (result, hw) := act hw
  (result, leave restore hw)

end SoftTimer.IrqMask
