/-!
# Why a timer refuses

The causes for which a timer operation is refused, with the text shown for each.
-/

namespace SoftTimer

/-- Why a timer operation was refused. `TimerError.message` gives the text for each. -/
inductive TimerError where
  /-- A configuration or a request that makes no sense, such as repeating with period zero. -/
  | invalidParameter
  /-- Every slot of the event pool is taken. -/
  | noResources
  /-- No timer is registered as the system's timer. -/
  | notSupported
deriving DecidableEq, Repr

/-- `reason.message` is the text shown to a person for a refusal. -/
def TimerError.message : TimerError → String
  | .invalidParameter => "Invalid parameter"
  | .noResources => "Timer event pool exhausted"
  | .notSupported => "No system timer registered"

/-- Different refusals have a different `message`. -/
theorem TimerError.message_injective {a b : TimerError} (h : a.message = b.message) : a = b := by
  cases a <;> cases b <;> simp [message] at h ⊢

end SoftTimer
