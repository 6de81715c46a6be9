import SoftTimer.Proofs.Scheduler.Effects

/-!
# What every operation keeps to

An operation may change the pending events, the sink and the statistics as it likes, but the
hardware and the clock only in the ways that reading, arming and taking time tracking back do. A
relation that all of these keep to (`Frame`) holds between a scheduler and whatever an operation
makes of it (`Frame.exec`).
-/

namespace SoftTimer.Scheduler

variable {H K : Type} {n : Nat} [TimerHardware H]

/-- A relation of `Arms` that does not depend on what is pending, delivered and counted, and that
setting the clock going again keeps to. -/
structure Frame (R : Scheduler H K n → Scheduler H K n → Prop) : Prop extends Arms R where
  /-- What is pending, delivered and counted does not matter, nor who tracks the time. -/
  contents : ∀ (s : Scheduler H K n) (pool : Pool n) (sink : K) (stats : Stats) (suspended : Bool),
    R s { s with pool := pool, sink := sink, stats := stats, suspended := suspended }
  /-- Setting the clock going again keeps to it. -/
  restart : ∀ (s : Scheduler H K n) (counter elapsedUs : Nat), R s (s.restart counter elapsedUs)

namespace Frame

variable {R : Scheduler H K n → Scheduler H K n → Prop}

/-- `rearm` keeps to a `Frame`. -/
theorem rearm (h : Frame R) (s : Scheduler H K n) : R s s.rearm :=
  h.trans (h.contents s s.pool.recompute s.sink s.stats s.suspended) (h.toArms.rearm s)

/-- `rearmNow` keeps to a `Frame`. -/
theorem rearmNow (h : Frame R) (s : Scheduler H K n) : R s s.rearmNow :=
  have hmasked : R s (masked (fun s => ((), s.rearm)) s).2 := h.masked (h.rearm s.entered)
  hmasked

/-- `register` keeps to a `Frame`. -/
theorem register (h : Frame R) (r : Request) (s : Scheduler H K n) : R s (register r s).2 := by
  rcases register_cases r s with ⟨-, -, hact⟩ | ⟨-, reason, -, hact⟩ | ⟨-, slot, p, -, hact⟩
  · rw [hact]
    exact h.contents s _ _ _ _
  · rw [hact]
    exact h.trans (h.sync s) (h.contents s.sync _ _ _ _)
  · rw [hact]
    have hput := h.contents s.sync p s.sync.sink s.sync.stats s.sync.suspended
    exact h.trans (h.trans (h.sync s) hput) (h.rearm _)

/-- `withdraw` keeps to a `Frame`. -/
theorem withdraw (h : Frame R) (id value : UInt16) (s : Scheduler H K n) :
    R s (withdraw id value s).2 := by
  have hrelease :=
    h.contents s (s.pool.releaseAll (s.pool.find id value)) s.sink s.stats s.suspended
  rw [withdraw_eq]
  dsimp only
  split
  · exact h.trans hrelease (h.rearm _)
  · exact hrelease

/-- `handOver` keeps to a `Frame`. -/
theorem handOver (h : Frame R) (s : Scheduler H K n) : R s (handOver s).2 :=
  h.trans (h.sync s) (h.contents s.sync _ _ _ _)

/-- `takeBack` keeps to a `Frame`. -/
theorem takeBack (h : Frame R) (counter elapsedUs : Nat) (s : Scheduler H K n) :
    R s (takeBack counter elapsedUs s).2 := by
  have hstart := h.restart s counter elapsedUs
  have halign : R (s.restart counter elapsedUs) (s.restart counter elapsedUs).alignDue.2 :=
    h.contents _ _ _ _ _
  exact h.trans (h.trans hstart halign) (h.rearm _)

variable [EventSink K]

/-- `handle` keeps to a `Frame`. -/
theorem handle (h : Frame R) (source : InterruptSource) (s : Scheduler H K n) :
    R s (handle source s).2 := by
  cases hactive : s.suspended with
  | true =>
    rw [handle_of_suspended source hactive]
    exact h.contents s _ _ _ _
  | false =>
    have hfired : R s.sync (s.drained source) := h.contents s.sync _ _ _ _
    rw [handle_of_active source hactive]
    exact h.trans (h.trans (h.sync s) hfired) (h.rearm _)

/-- Every `Command` keeps to a `Frame`. -/
theorem exec (h : Frame R) (s : Scheduler H K n) (c : Command) : R s (s.exec c).2 := by
  cases c with
  | timeMs => exact h.timeMs s
  | timeUs => exact h.timeUs s
  | schedule request => exact h.masked (h.register request s.entered)
  | cancel ident value => exact h.masked (h.withdraw ident value s.entered)
  | rearm => exact h.rearmNow s
  | interrupt source => exact h.masked (h.handle source s.entered)
  | compareMatch channel =>
    show R s (s.compareMatch channel).2
    unfold Scheduler.compareMatch
    split
    · exact h.masked (h.handle _ s.entered)
    · exact h.refl s
  | wait span => exact h.wait span s
  | suspend => exact h.masked (h.handOver s.entered)
  | resume counter elapsedUs => exact h.masked (h.takeBack counter elapsedUs s.entered)

end Frame

/-- No `Command` takes time back. -/
theorem frame_timeUs_le : Frame fun s s' : Scheduler H K n => s.clock.timeUs ≤ s'.clock.timeUs where
  toArms := arms_timeUs_le
  contents _ _ _ _ _ := Nat.le_refl _
  restart s counter elapsedUs := (s.clock.resync counter).timeUs_le_advanceUs elapsedUs

end SoftTimer.Scheduler
