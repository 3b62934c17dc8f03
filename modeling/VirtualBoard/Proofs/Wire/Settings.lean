import VirtualBoard.Proofs.Wire.Forms

/-! Settings that are written and read back.

A form has whole milliseconds. Usable settings come back with the same limits
and the same watch list, and are usable again unless one of their spans is
shorter than a millisecond: of such a span nothing is left. Settings that were
not usable before they were written are not looked at here. -/
namespace VirtualBoard
open Wire

theorem flooredNothing (d : Duration) : d.floored = .zero ↔ d < .ofMillis 1 := by
  have nanos := flooredNanos d
  have one : (Duration.ofMillis 1).nanos = 1000000 := by decide
  rw [Duration.ext_iff]
  show d.floored.nanos = 0 ↔ d.nanos < (Duration.ofMillis 1).nanos
  omega

theorem flooredParts (wall interval : Duration) (most : UInt32) (limit : UInt64)
    (watch : List Watch) : Settings.floored ⟨⟨wall, most⟩, interval, limit, watch⟩ =
      ⟨⟨wall.floored, most⟩, interval.floored, limit, watch⟩ := rfl

theorem flooredProblem {s : Settings} (usable : s.problem? = none) : s.floored.problem? =
    if s.budget.wallClock < .ofMillis 1 then some .zeroWallClock
    else if s.sampleInterval < .ofMillis 1 then some .zeroInterval
    else none := by
  obtain ⟨⟨wall, most⟩, interval, limit, watch⟩ := s
  rw [flooredParts]
  unfold Settings.problem? at usable ⊢
  simp only [flooredNothing]
  grind

/- What usable settings come back as. -/
structure Restored (s back : Settings) : Prop where
  wallClock : back.budget.wallClock.nanos =
    min (s.budget.wallClock.nanos / 1000000) 18446744073709551615 * 1000000
  maxSteps : back.budget.maxSteps = s.budget.maxSteps
  sampleInterval : back.sampleInterval.nanos =
    min (s.sampleInterval.nanos / 1000000) 18446744073709551615 * 1000000
  imageLimit : back.imageLimit = s.imageLimit
  watch : back.watch = s.watch
  problem : back.problem? =
    if s.budget.wallClock < .ofMillis 1 then some .zeroWallClock
    else if s.sampleInterval < .ofMillis 1 then some .zeroInterval
    else none

/- Usable settings are read back from their form, as it was written or as JSON carries it, and they
are usable if their spans have at least a millisecond each. -/
theorem settingsRestored {s : Settings} (usable : s.problem? = none) {arrived : Wire}
    (carried : Carried (toWire s) arrived) :
    ∃ back : Settings, ofWire? arrived = some back ∧ Restored s back := by
  have read := (returnsSettings s).read arrived carried
  have problem := flooredProblem usable
  obtain ⟨⟨wall, most⟩, interval, limit, watch⟩ := s
  rw [flooredParts] at read problem
  exact ⟨_, read, {
    wallClock := flooredNanos wall
    maxSteps := rfl
    sampleInterval := flooredNanos interval
    imageLimit := rfl
    watch := rfl
    problem }⟩

theorem sampleRestored :
    let s : Settings := {Settings.standard with budget := ⟨.ofNanos 16500000, 80000⟩}
    s.problem? = none ∧ ∃ back : Settings, ofWire? (toWire s).json = some back ∧
      back.budget.wallClock.nanos = 16000000 ∧ back.problem? = none := by
  intro s
  have usable : s.problem? = none := by decide
  obtain ⟨back, read, restored⟩ := settingsRestored usable (.inr rfl)
  exact ⟨usable, back, read, restored.wallClock.trans (by decide),
    restored.problem.trans (by decide)⟩

/- Bursts of half a millisecond are usable, and come back as bursts of no time at all. -/
theorem halfMillisecondLost : ¬ ∀ s : Settings, s.problem? = none →
    ∃ back : Settings, ofWire? (toWire s) = some back ∧ back.problem? = none := by
  intro all
  let s : Settings := {Settings.standard with budget := ⟨.ofNanos 500000, 80000⟩}
  have usable : s.problem? = none := by decide
  obtain ⟨back, read, again⟩ := all s usable
  cases ((returnsSettings s).read _ (.inl rfl)).symm.trans read
  have refused := (flooredProblem usable).trans (if_pos (by decide))
  cases refused.symm.trans again

end VirtualBoard
