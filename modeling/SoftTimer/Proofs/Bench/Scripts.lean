import SoftTimer.SimTimer.Script
import SoftTimer.Proofs.History.Run
import SoftTimer.Proofs.Scheduler.Sections

/-!
# Masked sections in scripts

A script takes its steps one after another, and those of a masked section in it. `HwStep.visits`
lists the steps that are taken, each with the timer just before and the number of sections it stands
in. In a script that does not enable interrupts itself the sections nest (`HwStep.Nests`): inside
they are masked, at any depth and however a section ends, and only an outermost section finds them
enabled and enables them again. `HwStep.run_passes` is the induction over the tree of steps.

The main statement is `SimTimer.masking_balanced`, which says the same of operations.
-/

namespace SoftTimer

namespace SimTimer

/-- `enter` adds to `maskCount` if interrupts were enabled. -/
theorem maskCount_enter (t : SimTimer) :
    (IrqMask.enter t).2.maskCount = t.maskCount + if t.enabled then 1 else 0 := by
  have hsame : TimerHardware.interruptsEnabled t = t.enabled := rfl
  unfold IrqMask.enter
  rw [hsame]
  split <;> rfl

/-- `leave` does not add to `maskCount`. -/
theorem maskCount_leave (restore : Bool) (t : SimTimer) :
    (IrqMask.leave restore t).maskCount = t.maskCount := by
  cases restore <;> rfl

/-- `armChannel` does not add to `maskCount`. -/
theorem maskCount_armChannel (t : SimTimer) (channel reading : Nat) :
    (t.armChannel channel reading).maskCount = t.maskCount := by
  unfold armChannel
  split <;> rfl

/-- `step` changes neither `enabled` nor `maskCount`. -/
theorem step_mask (t : SimTimer) (maxTicks : Nat) :
    (t.step maxTicks).2.enabled = t.enabled ∧ (t.step maxTicks).2.maskCount = t.maskCount := by
  unfold step
  split
  · split <;> exact ⟨rfl, rfl⟩
  · exact ⟨rfl, rfl⟩

end SimTimer

namespace HwStep

mutual

/-- Whether an `HwStep`, or one of those in it, enables interrupts. -/
def enables : HwStep → Bool
  | enable => true
  | guarded body => anyEnables body
  | _ => false

/-- Whether one of some `HwStep`s enables interrupts. -/
def anyEnables : List HwStep → Bool
  | [] => false
  | first :: rest => first.enables || anyEnables rest

end

end HwStep

mutual

/-- Whether every timer that an answer shows from inside a `guarded` section has its interrupts
masked. -/
def HwAnswer.muted : HwAnswer → Bool
  | .masked _ trace => HwAnswer.allMuted trace
  | _ => true

/-- Whether interrupts are masked in all of a trace. -/
def HwAnswer.allMuted : List (HwAnswer × SimTimer) → Bool
  | [] => true
  | (answer, t) :: rest => !t.enabled && answer.muted && HwAnswer.allMuted rest

end

/-- An `HwStep` as it is taken, at a depth of masked sections and on a timer. -/
structure Visit where
  /-- In how many masked sections it stands. -/
  depth : Nat
  /-- The step. -/
  step : HwStep
  /-- The timer just before. -/
  timer : SimTimer

namespace HwStep

mutual

/-- Every `Visit` in a step at a depth, that of the step itself included. -/
def visits : HwStep → Nat → SimTimer → List Visit
  | guarded body, depth, t =>
    ⟨depth, guarded body, t⟩ :: visitsAll body (depth + 1) (IrqMask.enter t).2
  | other, depth, t => [⟨depth, other, t⟩]

/-- Every `Visit` in a script at a depth. -/
def visitsAll : List HwStep → Nat → SimTimer → List Visit
  | [], _, _ => []
  | first :: rest, depth, t =>
    visits first depth t ++
      match run first t with
      | (.error _, _) => []
      | (.ok _, t) => visitsAll rest depth t

end

end HwStep

namespace Visit

/-- Whether the step of a `Visit` masks interrupts by itself. -/
def disables (v : Visit) : Bool :=
  match v.step with
  | .disable => true
  | _ => false

/-- Whether the step of a `Visit` is a masked section that finds interrupts enabled. -/
def masksAnew (v : Visit) : Bool :=
  match v.step with
  | .guarded _ => v.timer.enabled
  | _ => false

/-- While interrupts are masked no step `masksAnew`. -/
theorem countP_masksAnew {visited : List Visit} (h : ∀ v ∈ visited, v.timer.enabled = false) :
    visited.countP masksAnew = 0 := by
  rw [List.countP_eq_zero]
  intro v hv
  unfold masksAnew
  split
  · rw [h v hv]
    decide
  · decide

/-- What becomes of the timer in the steps `visited` at a depth, none of which enables interrupts.
-/
structure Passes (depth : Nat) (t : SimTimer) (visited : List Visit) (t' : SimTimer) : Prop where
  /-- None of them does, nor any of those in them. -/
  enables : ∀ v ∈ visited, v.step.enables = false
  /-- If interrupts were masked before they stay so. -/
  masked : t.enabled = false → t'.enabled = false ∧ ∀ v ∈ visited, v.timer.enabled = false
  /-- Deeper down they are masked anyway. -/
  deep : ∀ v ∈ visited, depth < v.depth → v.timer.enabled = false
  /-- The count of masked sections grows by one for each step that masks interrupts by itself and
  for each section that finds them enabled. -/
  count : t'.maskCount = t.maskCount + (visited.countP disables + visited.countP masksAnew)

namespace Passes

variable {depth : Nat} {t u t' : SimTimer} {visited visited' : List Visit}

theorem nil (depth : Nat) (t : SimTimer) : Passes depth t [] t where
  enables _ hv := absurd hv List.not_mem_nil
  masked hmasked := ⟨hmasked, fun _ hv => absurd hv List.not_mem_nil⟩
  deep _ hv := absurd hv List.not_mem_nil
  count := rfl

/-- Two parts of a script, each of which `Passes`, do so one after the other. -/
theorem append (h : Passes depth t visited u) (h' : Passes depth u visited' t') :
    Passes depth t (visited ++ visited') t' where
  enables := List.forall_mem_append.mpr ⟨h.enables, h'.enables⟩
  masked hmasked := by
    obtain ⟨hu, hvisited⟩ := h.masked hmasked
    obtain ⟨ht', hvisited'⟩ := h'.masked hu
    exact ⟨ht', List.forall_mem_append.mpr ⟨hvisited, hvisited'⟩⟩
  deep := List.forall_mem_append.mpr ⟨h.deep, h'.deep⟩
  count := by
    rw [h'.count, h.count, List.countP_append, List.countP_append]
    omega

/-- A step that is neither a section nor enables interrupts `Passes`. -/
theorem single {step : HwStep} (henables : step.enables = false)
    (hmasked : t.enabled = false → t'.enabled = false)
    (hcount : t'.maskCount = t.maskCount + ([⟨depth, step, t⟩].countP disables +
      [⟨depth, step, t⟩].countP masksAnew)) :
    Passes depth t [⟨depth, step, t⟩] t' where
  enables := List.forall_mem_singleton.mpr henables
  masked h := ⟨hmasked h, List.forall_mem_singleton.mpr h⟩
  deep := List.forall_mem_singleton.mpr fun h => absurd h (Nat.lt_irrefl depth)
  count := hcount

/-- What `leave` makes of the timer that a section's steps, by `Passes`, have left. -/
theorem left (h : Passes (depth + 1) (IrqMask.enter t).2 visited u) :
    (IrqMask.leave (IrqMask.enter t).1 u).enabled = t.enabled ∧
      (IrqMask.leave (IrqMask.enter t).1 u).maskCount =
        t.maskCount + (if t.enabled then 1 else 0) + visited.countP disables := by
  obtain ⟨hu, hvisited⟩ := h.masked (SimTimer.works.entered t)
  refine ⟨SimTimer.works.left t hu, ?_⟩
  rw [SimTimer.maskCount_leave, h.count, SimTimer.maskCount_enter, countP_masksAnew hvisited]
  rfl

/-- A masked section `Passes` like any other step. -/
theorem guarded {body : List HwStep} (henables : HwStep.anyEnables body = false)
    (h : Passes (depth + 1) (IrqMask.enter t).2 visited u) :
    Passes depth t (⟨depth, .guarded body, t⟩ :: visited)
      (IrqMask.leave (IrqMask.enter t).1 u) := by
  have hvisited := (h.masked (SimTimer.works.entered t)).2
  constructor
  case enables => exact List.forall_mem_cons.mpr ⟨henables, h.enables⟩
  case masked =>
    exact fun hmasked =>
      ⟨h.left.1.trans hmasked, List.forall_mem_cons.mpr ⟨hmasked, hvisited⟩⟩
  case deep =>
    refine List.forall_mem_cons.mpr ⟨fun hlt => absurd hlt (Nat.lt_irrefl depth), ?_⟩
    exact fun v hv _ => hvisited v hv
  case count =>
    have hdisables : (⟨depth, .guarded body, t⟩ : Visit).disables = false := rfl
    have hmasks : (⟨depth, .guarded body, t⟩ : Visit).masksAnew = t.enabled := rfl
    rw [h.left.2, List.countP_cons, List.countP_cons, hdisables, hmasks,
      countP_masksAnew hvisited, if_neg Bool.false_ne_true]
    omega

end Passes

end Visit

namespace HwStep

open Visit (Passes)

mutual

/-- A step that enables no interrupts `Passes`. -/
theorem run_passes : ∀ (step : HwStep) (depth : Nat) (t : SimTimer), step.enables = false →
    Passes depth t (step.visits depth t) (step.run t).2
  | guarded body, depth, _, h => .guarded h (runAll_passes body (depth + 1) _ h)
  | enable, _, _, h => nomatch h
  | disable, _, _, h => .single h (fun _ => rfl) rfl
  | arm channel reading, _, t, h =>
    .single h (SimTimer.works.arm t channel reading).trans (t.maskCount_armChannel channel reading)
  | step maxTicks, _, t, h => .single h (t.step_mask maxTicks).1.trans (t.step_mask maxTicks).2
  | advance _, _, _, h | setCounter _, _, _, h | autoAdvance _, _, _, h | read, _, _, h
  | compare _, _, _, h | ticksUntil _, _, _, h | nextCompare, _, _, h | info, _, _, h
  | fail _, _, _, h => .single h id rfl

/-- A script that enables no interrupts `Passes`. -/
theorem runAll_passes : ∀ (script : List HwStep) (depth : Nat) (t : SimTimer),
    anyEnables script = false → Passes depth t (visitsAll script depth t) (runAll script t).2
  | [], depth, t, _ => .nil depth t
  | first :: rest, depth, t, h => by
    have hboth := Bool.or_eq_false_iff.mp h
    have hfirst := run_passes first depth t hboth.1
    unfold visitsAll runAll
    generalize first.run t = ran at hfirst ⊢
    obtain ⟨reason | answer, u⟩ := ran
    · exact hfirst.append (.nil depth u)
    · exact hfirst.append (runAll_passes rest depth u hboth.2)

end

mutual

/-- A step that enables no interrupts shows no timer from inside a masked section with interrupts
enabled, so that its answer is `muted`. -/
theorem run_muted : ∀ (step : HwStep) (t : SimTimer) {answer : HwAnswer}, step.enables = false →
    (step.run t).1 = .ok answer → answer.muted = true
  | guarded body, t, _, h, hrun => by
    cases hrun
    exact runAll_muted body (IrqMask.enter t).2 h (SimTimer.works.entered t)
  | enable, _, _, h, _ => nomatch h
  | fail _, _, _, _, hrun => nomatch hrun
  | advance _, _, _, _, hrun | setCounter _, _, _, _, hrun | autoAdvance _, _, _, _, hrun
  | arm _ _, _, _, _, hrun | disable, _, _, _, hrun | read, _, _, _, hrun | compare _, _, _, _, hrun
  | ticksUntil _, _, _, _, hrun | nextCompare, _, _, _, hrun | step _, _, _, _, hrun
  | info, _, _, _, hrun => by
    cases hrun
    rfl

/-- A script that begins with interrupts masked shows no timer with interrupts enabled, so that its
trace is `allMuted`. -/
theorem runAll_muted : ∀ (script : List HwStep) (t : SimTimer), anyEnables script = false →
    t.enabled = false → HwAnswer.allMuted (runAll script t).1.2 = true
  | [], _, _, _ => rfl
  | first :: rest, t, h, hmasked => by
    have hboth := Bool.or_eq_false_iff.mp h
    have hafter := ((run_passes first 0 t hboth.1).masked hmasked).1
    have hfirst : ∀ answer, (first.run t).1 = .ok answer → answer.muted = true :=
      fun _ => run_muted first t hboth.1
    unfold runAll
    generalize first.run t = ran at hafter hfirst ⊢
    obtain ⟨reason | answer, u⟩ := ran
    · rfl
    · have hu : u.enabled = false := hafter
      have hrest := runAll_muted rest u hboth.2 hu
      show (!u.enabled && answer.muted && HwAnswer.allMuted (runAll rest u).1.2) = true
      rw [hu, hfirst answer rfl, hrest]
      rfl

end

/-- The answers of a script that enables no interrupts are all `muted`. -/
theorem muted_of_mem {script : List HwStep} {t : SimTimer} (h : anyEnables script = false)
    {shown : HwAnswer × SimTimer} (hshown : shown ∈ (runAll script t).1.2) :
    shown.1.muted = true := by
  induction script generalizing t with
  | nil => exact absurd hshown List.not_mem_nil
  | cons first rest ih =>
    have hboth := Bool.or_eq_false_iff.mp h
    have hfirst : ∀ answer, (first.run t).1 = .ok answer → answer.muted = true :=
      fun _ => run_muted first t hboth.1
    unfold runAll at hshown
    generalize first.run t = ran at hfirst hshown
    obtain ⟨reason | answer, u⟩ := ran
    · exact absurd hshown List.not_mem_nil
    · rcases List.mem_cons.mp hshown with rfl | hrest
      · exact hfirst answer rfl
      · exact ih hboth.2 hrest

end HwStep

/-- The step of a `Visit` is kept from being interrupted inside masked sections, and a section
leaves it at that. -/
structure Visit.Kept (v : Visit) : Prop where
  /-- Interrupts are masked when the step is taken. -/
  before : 0 < v.depth → v.timer.enabled = false
  /-- Interrupts are masked when a step inside a section has been taken. -/
  after : 0 < v.depth → (v.step.run v.timer).2.enabled = false
  /-- A section restores what it has found. -/
  restored : ∀ body, v.step = .guarded body →
    (v.step.run v.timer).2.enabled = v.timer.enabled
  /-- A section is counted once if it has found interrupts enabled, besides the steps in it that
  mask them by themselves. -/
  counted : ∀ body, v.step = .guarded body → (v.step.run v.timer).2.maskCount =
    v.timer.maskCount + (if v.timer.enabled then 1 else 0) +
      (HwStep.visitsAll body (v.depth + 1) (IrqMask.enter v.timer).2).countP Visit.disables

/-- The `guarded` sections of a script nest. -/
structure HwStep.Nests (script : List HwStep) (t : SimTimer) : Prop where
  /-- Every step that is taken is kept from being interrupted in them. -/
  kept : ∀ v ∈ visitsAll script 0 t, v.Kept
  /-- Only an outermost section finds interrupts enabled. -/
  outermost : ∀ v ∈ visitsAll script 0 t, v.masksAnew = true → v.depth = 0
  /-- The count grows by one for each that does, and for each step that masks interrupts by itself.
  -/
  counted : (runAll script t).2.maskCount = t.maskCount +
    ((visitsAll script 0 t).countP Visit.disables + (visitsAll script 0 t).countP Visit.masksAnew)
  /-- Every timer that is shown from inside a section has its interrupts masked. -/
  muted : ∀ shown ∈ (runAll script t).1.2, shown.1.muted = true

/-- A step of a script that `Passes` from outside all sections is `Kept` from being interrupted. -/
theorem Visit.Passes.kept {v : Visit} {t t' : SimTimer} {visited : List Visit}
    (h : Passes 0 t visited t') (hv : v ∈ visited) : v.Kept := by
  have hpasses := HwStep.run_passes v.step v.depth v.timer (h.enables v hv)
  have hsection : ∀ body, v.step = .guarded body →
      (v.step.run v.timer).2 =
          IrqMask.leave (IrqMask.enter v.timer).1 (HwStep.runAll body (IrqMask.enter v.timer).2).2 ∧
        Passes (v.depth + 1) (IrqMask.enter v.timer).2
          (HwStep.visitsAll body (v.depth + 1) (IrqMask.enter v.timer).2)
          (HwStep.runAll body (IrqMask.enter v.timer).2).2 := by
    intro body hbody
    have hbodyEnables : HwStep.anyEnables body = false := by
      have henables := h.enables v hv
      rw [hbody] at henables
      exact henables
    rw [hbody]
    exact ⟨rfl, HwStep.runAll_passes body (v.depth + 1) _ hbodyEnables⟩
  constructor
  case before => exact h.deep v hv
  case after => exact fun hdeep => (hpasses.masked (h.deep v hv hdeep)).1
  case restored =>
    intro body hbody
    obtain ⟨hrun, hinside⟩ := hsection body hbody
    rw [hrun]
    exact hinside.left.1
  case counted =>
    intro body hbody
    obtain ⟨hrun, hinside⟩ := hsection body hbody
    rw [hrun]
    exact hinside.left.2

/-- The masked sections of a script that enables no interrupts nest, as `Nests` says. -/
theorem HwStep.nests {script : List HwStep} (h : anyEnables script = false) (t : SimTimer) :
    Nests script t := by
  have hpasses := runAll_passes script 0 t h
  constructor
  case kept => exact fun v hv => hpasses.kept hv
  case outermost =>
    intro v hv hmasks
    by_contra hdeep
    have hmasked := hpasses.deep v hv (Nat.pos_of_ne_zero hdeep)
    unfold Visit.masksAnew at hmasks
    split at hmasks
    · exact Bool.false_ne_true (hmasked.symm.trans hmasks)
    · exact Bool.false_ne_true hmasks
  case counted => exact hpasses.count
  case muted => exact fun shown hshown => muted_of_mem h hshown

/-- On a `SimTimer` masking is balanced. All that operations do is done in masked sections that
leave the interrupts as they have found them, by `KeepsOut`, and the sections of a script nest. -/
theorem SimTimer.masking_balanced {K : Type} {n : Nat} [EventSink K] :
    (∀ (s : Scheduler SimTimer K n) (c : Command), s.KeepsOut c) ∧
      ∀ script, HwStep.anyEnables script = false → ∀ t, HwStep.Nests script t :=
  ⟨Scheduler.keepsOut works, fun _ h t => HwStep.nests h t⟩

/-- A script for `standard`. A section stands in another and is left early, after which a step masks
interrupts that are masked already. They are enabled when the outer section is left, and masked by
another step. -/
def HwStep.nested : List HwStep :=
  [.guarded [.advance 5, .guarded [.arm 1 9, .fail .noResources, .arm 2 9], .disable, .read],
    .disable, .guarded [.read]]

/-- In `nested` interrupts are masked once by the outer section and twice by steps, and not by the
other sections. A request is a section of its own. In it the counter is read and the clock set, the
event is put into the pool and the earliest one looked for, and the counter is read again before
both channels are armed. -/
theorem SimTimer.masking_balanced_nested :
    HwStep.anyEnables HwStep.nested = false ∧ HwStep.Nests HwStep.nested standard ∧
      (HwStep.visitsAll HwStep.nested 0 standard).map (fun v => (v.depth, v.timer.enabled)) =
        [(0, true), (1, false), (1, false), (2, false), (2, false), (1, false), (1, false),
          (0, true), (0, false), (1, false)] ∧
      (HwStep.runAll HwStep.nested standard).2.maskCount = 3 ∧
      Scheduler.bench.KeepsOut (.schedule ⟨.us 50, 7, 1, false, .empty⟩) ∧
      ((Procedure.ofCommand (.schedule ⟨.us 50, 7, 1, false, .empty⟩)).record
        Scheduler.bench).map (fun entry => (entry.act matches .pool _, entry.enabled)) =
          [(false, true), (false, false), (false, false), (true, false), (true, false),
            (false, false), (false, false), (false, false), (false, false), (false, false)] ∧
      ((Scheduler.bench.on (⟨Scheduler.bench.hw, []⟩ : Journal SimTimer)).exec
        (.schedule ⟨.us 50, 7, 1, false, .empty⟩)).2.hw.notes =
          [(.disable, true), (.read, false), (.read, false), (.arm 1 50, false),
            (.arm 0 10000000, false), (.enable, false)] := by
  have hquiet : HwStep.anyEnables HwStep.nested = false := by decide
  obtain ⟨hkeeps, hnests⟩ := masking_balanced (K := Recorder) (n := 3)
  exact ⟨hquiet, hnests _ hquiet standard, by decide +kernel, by decide +kernel, hkeeps _ _,
    by decide +kernel, by decide +kernel⟩

end SoftTimer
