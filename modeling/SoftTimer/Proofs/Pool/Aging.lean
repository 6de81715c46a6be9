import SoftTimer.Proofs.Dispatch.Drain

/-!
# How a pool ages

Apart from taking in new events a pool only ages: an event that is pending has been pending in the
same slot before, and nothing about it has changed but its timestamp, which is no earlier than it
was (`Event.Ages`, `Pool.Ages`). Freeing slots, lining events up and draining all come to that,
whatever the time is. In a drain this is so of every single firing, so no bound on the time and none
on the number of firings is needed (`Drain.run_ages`). What fires was pending before, too, and may
have grown older on the way (`Drain.mem_run_firings`).
-/

namespace SoftTimer

/-- The event `e'` is `e`, at the same time or a later one. -/
structure Event.Ages (e e' : Event) : Prop where
  /-- Nothing else has changed. -/
  same : e' = { e with timestamp := e'.timestamp }
  /-- The timestamp does not go back, and stays a 64-bit word. -/
  timestamp : e.timestamp ≤ max64 → e.timestamp ≤ e'.timestamp ∧ e'.timestamp ≤ max64

namespace Event

namespace Ages

variable {e e' e'' : Event}

theorem refl (e : Event) : e.Ages e := ⟨rfl, fun h => ⟨Nat.le_refl _, h⟩⟩

theorem trans (h : e.Ages e') (h' : e'.Ages e'') : e.Ages e'' where
  same := by rw [h'.same, h.same]
  timestamp hfits := by
    obtain ⟨hle, hfits'⟩ := h.timestamp hfits
    obtain ⟨hle', hfits''⟩ := h'.timestamp hfits'
    exact ⟨Nat.le_trans hle hle', hfits''⟩

/-- An event that has aged has the same number `seq`. -/
theorem seq (h : e.Ages e') : e'.seq = e.seq := by rw [h.same]

/-- An event that has aged has the same `period`. -/
theorem period (h : e.Ages e') : e'.period = e.period := by rw [h.same]

end Ages

/-- `shift` makes an event older. -/
theorem ages_shift (e : Event) (steps : Nat) : e.Ages (e.shift steps) where
  same := rfl
  timestamp hfits := ⟨Nat.le_min.mpr ⟨Nat.le_add_right _ _, hfits⟩, sat64_le _⟩

/-- `align` makes an event older, for a time that fits 64 bits. -/
theorem ages_align (e : Event) {now : Nat} (hnow : now ≤ max64) : e.Ages (e.align now).2 := by
  unfold align
  split
  · next hlate =>
    rw [Bool.and_eq_true, isDue_iff] at hlate
    have hdue := hlate.2
    have hperiods : e.periodsBy now * e.period ≤ now - e.timestamp := Nat.div_mul_le_self _ _
    refine ⟨rfl, fun _ => ⟨Nat.le_add_right _ _, ?_⟩⟩
    show e.timestamp + e.periodsBy now * e.period ≤ max64
    omega
  · exact .refl e

end Event

namespace Pool

variable {n : Nat} {p p' p'' : Pool n}

/-- Nothing has come into the pool, and what is still pending has only become older. -/
structure Ages (p p' : Pool n) : Prop where
  /-- A pending event was pending in the same slot. -/
  get? : ∀ ⦃slot : Nat⦄ ⦃e' : Event⦄, p'.get? slot = some e' →
    ∃ e, p.get? slot = some e ∧ e.Ages e'
  /-- No number has been given out. -/
  nextSeq : p'.nextSeq = p.nextSeq

namespace Ages

/-- A pool with the same events in the same slots has aged by nothing. -/
theorem of_same (hget : ∀ slot, p'.get? slot = p.get? slot) (hseq : p'.nextSeq = p.nextSeq) :
    p.Ages p' :=
  ⟨fun slot e' h => ⟨e', (hget slot).symm.trans h, .refl e'⟩, hseq⟩

theorem refl (p : Pool n) : p.Ages p := of_same (fun _ => rfl) rfl

theorem trans (h : p.Ages p') (h' : p'.Ages p'') : p.Ages p'' where
  get? slot e'' he'' := by
    obtain ⟨e', he', hages'⟩ := h'.get? he''
    obtain ⟨e, he, hages⟩ := h.get? he'
    exact ⟨e, he, hages.trans hages'⟩
  nextSeq := h'.nextSeq.trans h.nextSeq

/-- A pool that is `Distinct` stays `Distinct` as it ages. -/
theorem distinct (h : p.Ages p') (hdistinct : p.Distinct) : p'.Distinct := by
  intro i j a b ha hb hseq
  obtain ⟨a', ha', hages⟩ := h.get? ha
  obtain ⟨b', hb', hages'⟩ := h.get? hb
  exact hdistinct ha' hb' (by rw [← hages.seq, ← hages'.seq, hseq])

/-- A pool that is `Numbered` stays `Numbered` as it ages. -/
theorem numbered (h : p.Ages p') (hnumbered : p.Numbered) : p'.Numbered where
  distinct := h.distinct hnumbered.distinct
  seq_lt slot e' he' := by
    obtain ⟨e, he, hages⟩ := h.get? he'
    rw [hages.seq, h.nextSeq]
    exact hnumbered.seq_lt he

end Ages

/-- `recompute` changes no event of the pool. -/
theorem ages_recompute (p : Pool n) : p.Ages p.recompute := .of_same (fun _ => rfl) rfl

/-- `releaseAll` leaves the events in other slots as they are. -/
theorem ages_releaseAll (p : Pool n) (slots : List Nat) : p.Ages (p.releaseAll slots) where
  get? slot e' he' := by
    rw [get?_releaseAll] at he'
    split at he'
    · cases he'
    · exact ⟨e', he', .refl e'⟩
  nextSeq := nextSeq_releaseAll p slots

/-- `alignAll` makes the events of the pool older, for a time that fits 64 bits. -/
theorem ages_alignAll (p : Pool n) {now : Nat} (hnow : now ≤ max64) :
    p.Ages (p.alignAll now).2 where
  get? slot e' he' := by
    have hmap : (p.get? slot).map (fun e => (e.align now).2) = some e' := by
      rw [← get?_map]
      exact he'
    obtain ⟨e, he, rfl⟩ := Option.map_eq_some_iff.mp hmap
    exact ⟨e, he, e.ages_align hnow⟩
  nextSeq := rfl

end Pool

namespace Drain

variable {n : Nat} {config : Config} {now : Nat}

/-- What a `Firing` leaves behind is its event, grown older. -/
theorem ages_rest {f : Firing} {e' : Event} (h : e' ∈ f.rest) : f.event.Ages e' := by
  unfold Firing.rest at h
  split at h
  · cases h
    exact f.event.ages_shift _
  · cases h

/-- One step `fire` of a drain makes the pool older. -/
theorem ages_fire (config : Config) {d : Drain n} {slot : Nat} {e : Event}
    (hget : d.pool.get? slot = some e) (hdue : e.timestamp ≤ now) :
    d.pool.Ages (d.fire config now slot e).pool where
  get? i e' he' := by
    rw [get?_fire hget hdue] at he'
    split at he'
    · next hi =>
      rw [hi]
      exact ⟨e, hget, ages_rest he'⟩
    · exact ⟨e', he', .refl e'⟩
  nextSeq := nextSeq_fire config now slot e d

/-- Any number of steps of a drain make the pool older. -/
theorem run_ages (config : Config) (steps : Nat) (d : Drain n) :
    d.pool.Ages (run config now steps d).pool := by
  induction steps generalizing d with
  | zero => exact .refl _
  | succ steps ih =>
    unfold run
    cases hfirst : d.pool.firstDue? now with
    | none => exact .refl _
    | some found =>
      obtain ⟨slot, e⟩ := found
      obtain ⟨hget, hdue, -⟩ := Pool.firstDue?_eq_some hfirst
      exact (ages_fire config hget hdue).trans (ih _)

/-- Whatever `run` has fired in the end had fired before, or was pending and has grown older. -/
theorem mem_run_firings (config : Config) (steps : Nat) (d : Drain n) {f : Firing}
    (hf : f ∈ (run config now steps d).firings) :
    f ∈ d.firings ∨ ∃ slot e, d.pool.get? slot = some e ∧ e.Ages f.event := by
  induction steps generalizing d with
  | zero => exact .inl hf
  | succ steps ih =>
    unfold run at hf
    cases hfirst : d.pool.firstDue? now with
    | none =>
      rw [hfirst] at hf
      exact .inl hf
    | some found =>
      obtain ⟨slot, e⟩ := found
      obtain ⟨hget, hdue, -⟩ := Pool.firstDue?_eq_some hfirst
      rw [hfirst] at hf
      rcases ih _ hf with hfired | ⟨i, e', he', hages'⟩
      · -- The last firing was that of the event chosen.
        rw [firings_fire, Array.mem_push] at hfired
        rcases hfired with hbefore | rfl
        · exact .inl hbefore
        · exact .inr ⟨slot, e, hget, .refl e⟩
      · obtain ⟨e₀, he₀, hages⟩ := (ages_fire config hget hdue).get? he'
        exact .inr ⟨i, e₀, he₀, hages.trans hages'⟩

end Drain

/-- `drain` makes a pool older. -/
theorem Pool.ages_drain {n : Nat} (p : Pool n) (config : Config) (now : Nat) :
    p.Ages (p.drain config now).2 := Drain.run_ages config _ (.start p)

/-- Whatever fires in a `drain` was pending, and may have grown older meanwhile. -/
theorem Pool.ages_of_mem_drain {n : Nat} {p : Pool n} {config : Config} {now : Nat} {f : Firing}
    (hf : f ∈ (p.drain config now).1) : ∃ slot e, p.get? slot = some e ∧ e.Ages f.event := by
  rcases Drain.mem_run_firings config _ (.start p) hf with hnone | hpending
  · exact absurd hnone (Array.not_mem_empty f)
  · exact hpending

end SoftTimer
