import Mathlib.Algebra.GroupWithZero.Nat
import VirtualBoard.Proofs.Burst
import VirtualBoard.Scheduler.Burst

/-! A burst on a counter of 64 bits.

The counter has no part in how far a burst goes, unless it stops the program. So a burst on a
counter is the burst without one, with its steps added, as long as the sum is below 2^64. Past that
it is the same burst with a count that began again, or the program has stopped right after the tick
that the counter had no number for. The count of a session has no bound, and is the counter's as
long as that has a number for it (`sessionCounter`). -/
namespace VirtualBoard.Scheduler
open Rig Burst

section
variable {ω μ : Type} {env : Surroundings ω μ} {overflow : Overflow} {started wall : Duration}

theorem countSum {cycles : UInt64} {steps : Nat} (room : cycles.toNat + steps < 2 ^ 64) :
    (cycles + UInt64.ofNat steps).toNat = cycles.toNat + steps := by
  have small : steps < 2 ^ 64 := Nat.lt_of_le_of_lt (Nat.le_add_left _ _) room
  rw [UInt64.toNat_add, UInt64.toNat_ofNat_of_lt' small]
  exact Nat.mod_eq_of_lt room

theorem countLast {cycles : UInt64} : cycles + 1 = 0 ↔ cycles.toNat + 1 = 2 ^ 64 := by
  rw [← UInt64.toNat_inj, UInt64.toNat_add]
  have below := cycles.toNat_lt
  show (cycles.toNat + 1) % 2 ^ 64 = 0 ↔ _
  omega

theorem countNone (cycles : UInt64) : cycles + UInt64.ofNat 0 = cycles := UInt64.add_zero cycles

theorem countNext (cycles : UInt64) (steps : Nat) :
    cycles + 1 + UInt64.ofNat steps = cycles + UInt64.ofNat (steps + 1) := by
  rw [Nat.add_comm steps 1, UInt64.ofNat_add, ← UInt64.add_assoc]
  rfl

theorem nextFits {cycles : UInt64} (fits : overflow = .wraps ∨ cycles.toNat + 1 < 2 ^ 64) :
    overflow.next? cycles = some (cycles + 1) := by
  cases overflow with
  | wraps => rfl
  | stops =>
    have room := fits.resolve_left nofun
    exact if_neg fun zero => by have := countLast.mp zero; omega

theorem stretchLate {left done : Nat} {cycles : UInt64} {x : μ × Rig ω}
    (late : Late env started wall x) :
    stretch overflow env.clock env.cpu started wall (left + 1) done cycles x.1 x.2 =
      ((x.1, cycles, done, some .wallClockBudget), (ask env.clock x.2).2) := by
  rw [stretch, bindRun]
  exact congrFun (if_pos late) _

theorem stretchFault {left done : Nat} {cycles : UInt64} {x : μ × Rig ω} {fault : CpuFault}
    (early : ¬ Late env started wall x) (faulty : fault? env x = some fault) :
    stretch overflow env.clock env.cpu started wall (left + 1) done cycles x.1 x.2 =
      (((stepping env x).1.1, cycles, done, some (.faulted fault)), (stepping env x).2) := by
  rw [stretch, bindRun]
  refine (congrFun (if_neg early) _).trans ?_
  rw [bindRun]
  simp only [fault?, stepping] at faulty ⊢
  simp only [faulty]
  rfl

theorem stretchTicked {left done : Nat} {cycles : UInt64} {x : μ × Rig ω}
    (early : ¬ Late env started wall x) (fine : fault? env x = none) :
    stretch overflow env.clock env.cpu started wall (left + 1) done cycles x.1 x.2 =
      match overflow.next? cycles with
      | none => (((Burst.round env x).1, cycles, done, none), (Burst.round env x).2)
      | some more => stretch overflow env.clock env.cpu started wall left (done + 1) more
          (Burst.round env x).1 (Burst.round env x).2 := by
  rw [stretch, bindRun]
  refine (congrFun (if_neg early) _).trans ?_
  rw [bindRun]
  simp only [fault?, stepping] at fine
  simp only [fine, bindRun, Burst.round, stepping]
  cases overflow.next? cycles <;> rfl

theorem stretchCounts (done : Nat) {left steps : Nat} {cycles : UInt64} {x out : μ × Rig ω}
    {exit : Exit} (ran : Ran env started wall left steps x exit out)
    (fits : overflow = .wraps ∨ cycles.toNat + steps < 2 ^ 64) :
    stretch overflow env.clock env.cpu started wall left done cycles x.1 x.2 =
      ((out.1, cycles + UInt64.ofNat steps, done + steps, some exit), out.2) := by
  induction steps generalizing left done cycles x with
  | zero =>
    rw [countNone]
    cases left with
    | zero =>
      cases ran.ends with
      | full => rfl
      | late room | fault room => exact absurd rfl room
    | succ left =>
      cases ran.ends with
      | full spent => cases spent
      | late room late => exact stretchLate late
      | fault room early faulty => exact stretchFault early faulty
  | succ steps ih =>
    obtain ⟨rest, rfl, early, fine, later⟩ := ran.goesOn
    have one : overflow = .wraps ∨ cycles.toNat + 1 < 2 ^ 64 := fits.imp_right (by omega)
    have more : overflow = .wraps ∨ (cycles + 1).toNat + steps < 2 ^ 64 := by
      refine fits.imp_right fun room => ?_
      have first : (cycles + 1).toNat = cycles.toNat + 1 :=
        countSum (show cycles.toNat + 1 < 2 ^ 64 by omega)
      omega
    rw [stretchTicked early fine, nextFits one]
    refine (ih (done + 1) later more).trans ?_
    rw [countNext, Nat.add_assoc, Nat.add_comm 1 steps]

theorem burstPlain (overflow : Overflow) (env : Surroundings ω μ) (s : Scheduler) (model : μ)
    (cycles : UInt64) (r : Rig ω) (fits : overflow = .wraps ∨
      cycles.toNat + (Burst.run env.clock env.cpu s.budget model r).1.2.steps < 2 ^ 64) :
    let out := Burst.run env.clock env.cpu s.budget model r
    s.burst overflow env.clock env.cpu model cycles r =
      ((out.1.1, cycles + UInt64.ofNat out.1.2.steps, some out.1.2), out.2) := by
  obtain ⟨steps, counted, ran⟩ := stretchRan env (ask env.clock r).1 s.budget.wallClock
    s.budget.maxSteps.toNat 0 (model, (ask env.clock r).2)
  rw [Nat.zero_add] at counted
  subst counted
  have walked := stretchCounts 0 ran fits
  rw [burst, bindRun, bindRun, walked]
  simp only [Nat.zero_add]
  rfl

theorem sessionCounter (env : Surroundings ω μ) (s : Session μ) (r : Rig ω)
    (fits : (s.burst env.clock env.cpu r).1.1.counters.cycles < 2 ^ 64) :
    let out := s.burst env.clock env.cpu r
    s.scheduler.burst overflow env.clock env.cpu s.model (.ofNat s.counters.cycles) r =
      ((out.1.1.model, .ofNat out.1.1.counters.cycles, some out.1.2), out.2) := by
  have sum : s.counters.cycles +
      (Burst.run env.clock env.cpu s.scheduler.budget s.model r).1.2.steps < 2 ^ 64 := fits
  have start : (UInt64.ofNat s.counters.cycles).toNat = s.counters.cycles :=
    UInt64.toNat_ofNat_of_lt' (by show _ < 2 ^ 64; omega)
  refine (burstPlain overflow env s.scheduler s.model _ r (.inr ?_)).trans ?_
  · rw [start]
    exact sum
  · rw [← UInt64.ofNat_add]
    rfl

end

section
variable {ω ω' μ : Type} {n : Numbers} {like : Rig ω → Rig ω' → Prop} {clock : Clock ω}
  {clock' : Clock ω'} {cpu : CpuModel ω μ} {cpu' : CpuModel ω' μ}

theorem stretchNumbered (time : Mapped like (·) (ask clock) (ask clock'))
    (same : cpu.Numbered n like cpu') (overflow : Overflow) (started wall : Duration)
    (left done : Nat) (cycles : UInt64) (model : μ) :
    Mapped like (·) (stretch overflow clock cpu started wall left done cycles model)
      (stretch overflow clock' cpu' started wall left done cycles model) := by
  induction left generalizing done cycles model with
  | zero => exact mappedPure (·) _
  | succ left ih =>
    refine mappedBind time fun now => ?_
    split
    · exact mappedPure (·) _
    · refine mappedBind (same.step _) fun stepped => ?_
      obtain ⟨model, fault⟩ := stepped
      cases fault with
      | some fault => exact mappedPure (·) _
      | none =>
        refine mappedBind (same.tick _) fun model => ?_
        cases overflow.next? cycles with
        | none => exact mappedPure (·) _
        | some more => exact ih _ _ _

theorem burstNumbered (counting : Counting n like) (time : Mapped like (·) (ask clock) (ask clock'))
    (same : cpu.Numbered n like cpu') (overflow : Overflow) (s : Scheduler) (model : μ)
    (cycles : UInt64) :
    Mapped like (·) (s.burst overflow clock cpu model cycles)
      (s.burst overflow clock' cpu' model cycles) := by
  refine mappedBind time fun started => ?_
  refine mappedBind (stretchNumbered time same overflow _ _ _ _ _ _) fun ran => ?_
  obtain ⟨model, cycles, steps, exit⟩ := ran
  cases exit with
  | none => exact mappedPure (·) _
  | some exit =>
    exact mappedBind (Burst.closeNumbered counting time _ _ _) fun _ => mappedPure (·) _

end

section
variable {ω μ : Type}

/- What a burst comes to that makes so many steps from a model in its rig, on a counter of 64 bits.
The clock was read as `started` first, and there were calls before. -/
structure Counts (env : Surroundings ω μ) (overflow : Overflow) (budget : Budget) (cycles : UInt64)
    (before : List (Call μ)) (started : Duration) (x : μ × Rig (Noted ω μ)) (steps : Nat)
    (out : (μ × UInt64 × Option Report) × Rig (Noted ω μ)) : Prop where
  stops : Stops env.noted budget started x steps
  least : ∀ k, Stops env.noted budget started x k → steps ≤ k
  reports : overflow = .wraps ∨ cycles.toNat + steps < 2 ^ 64 → ∃ ended report,
    out.1.2.2 = some report ∧ report.steps = steps ∧ Counted env budget started ended x report ∧
      out.2.world.calls = before ++ burstCalls env started ended x report
  sum : cycles.toNat + steps < 2 ^ 64 → out.1.2.1.toNat = cycles.toNat + steps
  again : overflow = .wraps → 2 ^ 64 ≤ cycles.toNat + steps →
    out.1.2.1.toNat + 2 ^ 64 = cycles.toNat + steps
  stopped : overflow = .stops → 2 ^ 64 ≤ cycles.toNat + steps →
    out.1.2 = (.ofNat (2 ^ 64 - 1), none) ∧
    out.2.world.calls =
      before ++ .clock started :: roundsCalls env (2 ^ 64 - cycles.toNat) x

end

end VirtualBoard.Scheduler
