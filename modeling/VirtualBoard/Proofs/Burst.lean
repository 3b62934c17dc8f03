import VirtualBoard.Proofs.Controller.Runs
import VirtualBoard.Proofs.Controller.Samples
import VirtualBoard.Proofs.Life

/-! How far a burst goes.

A burst is compared with rounds that go on whatever the time: each reads the
clock, steps the model and ticks it. The burst is as many of these rounds as come
before the first that its budget, the time or a fault forbids, whatever a step
takes and whatever the clock shows. -/
namespace VirtualBoard
namespace Burst
open Rig

section
variable {ω μ : Type} (env : Surroundings ω μ)

def reading (x : μ × Rig ω) : Duration := (ask env.clock x.2).1

def stepping (x : μ × Rig ω) : (μ × Option CpuFault) × Rig ω :=
  ask (env.cpu.step x.1) (ask env.clock x.2).2

def fault? (x : μ × Rig ω) : Option CpuFault := (stepping env x).1.2

def round (x : μ × Rig ω) : μ × Rig ω := ask (env.cpu.tick (stepping env x).1.1) (stepping env x).2

def rounds : Nat → μ × Rig ω → μ × Rig ω
  | 0, x => x
  | k + 1, x => rounds k (round env x)

def Late (started wall : Duration) (x : μ × Rig ω) : Prop := wall ≤ reading env x - started

/- What a burst that stops before a round leaves. Of the reasons to stop, the first that holds is
the exit. -/
inductive Ends (started wall : Duration) (full : Prop) (x : μ × Rig ω) :
    Exit → μ × Rig ω → Prop where
  | full (spent : full) : Ends started wall full x .stepBudget x
  | late (room : ¬ full) (late : Late env started wall x) :
    Ends started wall full x .wallClockBudget (x.1, (ask env.clock x.2).2)
  | fault {fault : CpuFault} (room : ¬ full) (early : ¬ Late env started wall x)
      (faulty : fault? env x = some fault) :
    Ends started wall full x (.faulted fault) ((stepping env x).1.1, (stepping env x).2)

/- A stretch of so many rounds: none of them was late or faulted, and the next is not made. -/
structure Ran (started wall : Duration) (most steps : Nat) (x : μ × Rig ω) (exit : Exit)
    (out : μ × Rig ω) : Prop where
  within : steps ≤ most
  early : ∀ j < steps, ¬ Late env started wall (rounds env j x)
  faultless : ∀ j < steps, fault? env (rounds env j x) = none
  ends : Ends env started wall (steps = most) (rounds env steps x) exit out

variable {env} {started wall : Duration} {most steps : Nat} {x out : μ × Rig ω} {exit : Exit}

theorem Ran.first (ends : Ends env started wall (0 = most) x exit out) :
    Ran env started wall most 0 x exit out :=
  ⟨Nat.zero_le _, by simp, by simp, ends⟩

theorem Ran.more (early : ¬ Late env started wall x) (fine : fault? env x = none)
    (ran : Ran env started wall most steps (round env x) exit out) :
    Ran env started wall (most + 1) (steps + 1) x exit out where
  within := Nat.succ_le_succ ran.within
  early j inside := by
    cases j with
    | zero => exact early
    | succ j => exact ran.early j (Nat.lt_of_succ_lt_succ inside)
  faultless j inside := by
    cases j with
    | zero => exact fine
    | succ j => exact ran.faultless j (Nat.lt_of_succ_lt_succ inside)
  ends := by simpa [rounds] using ran.ends

theorem Ran.goesOn (ran : Ran env started wall most (steps + 1) x exit out) :
    ∃ rest, most = rest + 1 ∧ ¬ Late env started wall x ∧ fault? env x = none ∧
      Ran env started wall rest steps (round env x) exit out := by
  obtain ⟨rest, rfl⟩ := Nat.exists_eq_succ_of_ne_zero
    (Nat.ne_of_gt (Nat.lt_of_lt_of_le (Nat.succ_pos steps) ran.within))
  refine ⟨rest, rfl, ran.early 0 (Nat.succ_pos steps), ran.faultless 0 (Nat.succ_pos steps), ?_⟩
  exact {
    within := Nat.le_of_succ_le_succ ran.within
    early := fun j inside => ran.early (j + 1) (Nat.succ_lt_succ inside)
    faultless := fun j inside => ran.faultless (j + 1) (Nat.succ_lt_succ inside)
    ends := by simpa [rounds] using ran.ends }

theorem stretchLate {left done : Nat} (late : Late env started wall x) :
    stretch env.clock env.cpu started wall (left + 1) done x.1 x.2 =
      ((x.1, done, .wallClockBudget), (ask env.clock x.2).2) := by
  rw [stretchRound]
  exact if_pos late

theorem stretchFault {left done : Nat} {fault : CpuFault} (early : ¬ Late env started wall x)
    (faulty : fault? env x = some fault) :
    stretch env.clock env.cpu started wall (left + 1) done x.1 x.2 =
      (((stepping env x).1.1, done, .faulted fault), (stepping env x).2) := by
  rw [stretchRound]
  refine (if_neg early).trans ?_
  simp only [fault?, stepping] at faulty ⊢
  simp only [faulty]

theorem stretchMore {left done : Nat} (early : ¬ Late env started wall x)
    (fine : fault? env x = none) :
    stretch env.clock env.cpu started wall (left + 1) done x.1 x.2 =
      stretch env.clock env.cpu started wall left (done + 1) (round env x).1 (round env x).2 := by
  rw [stretchRound]
  refine (if_neg early).trans ?_
  simp only [fault?, stepping] at fine
  simp only [fine, round, stepping]

theorem stretchRan (env : Surroundings ω μ) (started wall : Duration) (left done : Nat)
    (x : μ × Rig ω) :
    let out := stretch env.clock env.cpu started wall left done x.1 x.2
    ∃ steps, out.1.2.1 = done + steps ∧
      Ran env started wall left steps x out.1.2.2 (out.1.1, out.2) := by
  induction left generalizing done x with
  | zero => exact ⟨0, rfl, .first (.full rfl)⟩
  | succ left ih =>
    have room : ¬ 0 = left + 1 := (Nat.succ_ne_zero left).symm
    by_cases late : Late env started wall x
    · rw [stretchLate late]
      exact ⟨0, rfl, .first (.late room late)⟩
    · cases faulty : fault? env x with
      | some fault =>
        rw [stretchFault late faulty]
        exact ⟨0, rfl, .first (.fault room late faulty)⟩
      | none =>
        rw [stretchMore late faulty]
        obtain ⟨steps, counted, ran⟩ := ih (done + 1) (round env x)
        refine ⟨steps + 1, ?_, ran.more late faulty⟩
        omega

end

/-! The calls of a burst, in the order they are made. -/

section
variable {ω μ : Type} (env : Surroundings ω μ)

def roundCalls (x : μ × Rig (Noted ω μ)) : List (Call μ) :=
  [.clock (reading env.noted x), .stepped x.1 (stepping env.noted x).1.1 none,
    .ticked (stepping env.noted x).1.1 (round env.noted x).1]

def roundsCalls : Nat → μ × Rig (Noted ω μ) → List (Call μ)
  | 0, _ => []
  | k + 1, x => roundCalls env x ++ roundsCalls k (round env.noted x)

def endCalls (x : μ × Rig (Noted ω μ)) : Exit → List (Call μ)
  | .stepBudget => []
  | .wallClockBudget => [.clock (reading env.noted x)]
  | .faulted fault =>
    [.clock (reading env.noted x), .stepped x.1 (stepping env.noted x).1.1 (some fault)]

variable {env}

theorem askCalls {α : Type} (note : α → Call μ) (act : Act ω α) (r : Rig (Noted ω μ)) :
    (ask (act.noting note) r).2.world.calls =
      r.world.calls ++ [note (ask (act.noting note) r).1] :=
  congrArg Noted.calls (askWorld (act.noting note) r)

theorem clockCalls (env : Surroundings ω μ) (r : Rig (Noted ω μ)) :
    (ask env.noted.clock r).2.world.calls = r.world.calls ++ [.clock (ask env.noted.clock r).1] :=
  askCalls .clock env.clock r

theorem steppingCalls (x : μ × Rig (Noted ω μ)) : (stepping env.noted x).2.world.calls =
    x.2.world.calls ++ [.clock (reading env.noted x),
      .stepped x.1 (stepping env.noted x).1.1 (fault? env.noted x)] := by
  have stepped := askCalls (fun after : μ × Option CpuFault => .stepped x.1 after.1 after.2)
    (env.cpu.step x.1) (ask env.noted.clock x.2).2
  rw [clockCalls, List.append_assoc] at stepped
  exact stepped

theorem roundNotes {x : μ × Rig (Noted ω μ)} (fine : fault? env.noted x = none) :
    (round env.noted x).2.world.calls = x.2.world.calls ++ roundCalls env x := by
  have ticked := askCalls (fun after => .ticked (stepping env.noted x).1.1 after)
    (env.cpu.tick (stepping env.noted x).1.1) (stepping env.noted x).2
  rw [steppingCalls, fine, List.append_assoc] at ticked
  exact ticked

theorem roundsNotes {k : Nat} {x : μ × Rig (Noted ω μ)}
    (faultless : ∀ j < k, fault? env.noted (rounds env.noted j x) = none) :
    (rounds env.noted k x).2.world.calls = x.2.world.calls ++ roundsCalls env k x := by
  induction k generalizing x with
  | zero => simp [rounds, roundsCalls]
  | succ k ih =>
    have first := roundNotes (faultless 0 (Nat.zero_lt_succ k))
    have later := ih (x := round env.noted x) fun j inside =>
      faultless (j + 1) (Nat.succ_lt_succ inside)
    simp only [rounds] at first
    simp only [rounds, roundsCalls, later, first, List.append_assoc]

theorem endsNotes {started wall : Duration} {full : Prop} {x out : μ × Rig (Noted ω μ)}
    {exit : Exit} (ends : Ends env.noted started wall full x exit out) :
    out.2.world.calls = x.2.world.calls ++ endCalls env x exit := by
  cases ends with
  | full => simp [endCalls]
  | late room late => exact clockCalls env x.2
  | fault room early faulty => simp [endCalls, steppingCalls, faulty]

theorem Ran.calls {started wall : Duration} {most steps : Nat} {x out : μ × Rig (Noted ω μ)}
    {exit : Exit} (ran : Ran env.noted started wall most steps x exit out) :
    out.2.world.calls = x.2.world.calls ++
      (roundsCalls env steps x ++ endCalls env (rounds env.noted steps x) exit) := by
  rw [endsNotes ran.ends, roundsNotes ran.faultless, List.append_assoc]

def Stops (env : Surroundings ω μ) (budget : Budget) (started : Duration) (x : μ × Rig ω)
    (k : Nat) : Prop :=
  k = budget.maxSteps.toNat ∨ Late env started budget.wallClock (rounds env k x) ∨
    fault? env (rounds env k x) ≠ none

def burstCalls (env : Surroundings ω μ) (started ended : Duration) (x : μ × Rig (Noted ω μ))
    (report : Report) : List (Call μ) :=
  .clock started :: (roundsCalls env report.steps x ++
    (endCalls env (rounds env.noted report.steps x) report.exit ++ [.clock ended]))

/- The report of a burst from a model in its rig, after the clock was read as `started` and before
it is read as `ended`. -/
structure Counted (env : Surroundings ω μ) (budget : Budget) (started ended : Duration)
    (x : μ × Rig (Noted ω μ)) (report : Report) : Prop where
  stops : Stops env.noted budget started x report.steps
  least : ∀ k, Stops env.noted budget started x k → report.steps ≤ k
  full : report.exit = .stepBudget ↔ report.steps = budget.maxSteps.toNat
  late : report.exit = .wallClockBudget ↔ report.steps ≠ budget.maxSteps.toNat ∧
    Late env.noted started budget.wallClock (rounds env.noted report.steps x)
  fault : ∀ fault, report.exit = .faulted fault ↔ report.steps ≠ budget.maxSteps.toNat ∧
    ¬ Late env.noted started budget.wallClock (rounds env.noted report.steps x) ∧
      fault? env.noted (rounds env.noted report.steps x) = some fault
  ticks : (burstCalls env started ended x report).countP Call.ticks = report.steps
  elapsed : report.elapsed = ended - started
  reached : report.exit = .wallClockBudget →
    (readings (burstCalls env started ended x report)).Pairwise (· ≤ ·) →
      budget.wallClock ≤ report.elapsed
  overshoot : ∀ j, j < report.steps ∨ j = report.steps ∧ report.exit.fault?.isSome →
    report.elapsed.nanos <
      budget.wallClock.nanos + (ended.nanos - (reading env.noted (rounds env.noted j x)).nanos)

theorem Ran.stops {budget : Budget} {started : Duration} {x out : μ × Rig ω} {steps : Nat}
    {exit : Exit} {env : Surroundings ω μ}
    (ran : Ran env started budget.wallClock budget.maxSteps.toNat steps x exit out) :
    Stops env budget started x steps ∧ ∀ k, Stops env budget started x k → steps ≤ k := by
  constructor
  · cases ran.ends with
    | full spent => exact .inl spent
    | late room late => exact .inr (.inl late)
    | fault room early faulty => exact .inr (.inr (by simp [faulty]))
  · intro k stops
    refine Nat.le_of_not_lt fun less => ?_
    rcases stops with spent | late | faulty
    · have within := ran.within
      omega
    · exact ran.early k less late
    · exact faulty (ran.faultless k less)

theorem Ran.begins {started wall : Duration} {most steps : Nat} {x out : μ × Rig (Noted ω μ)}
    {exit : Exit} (ran : Ran env.noted started wall most steps x exit out) (room : 0 < most)
    (fine : exit.fault? = none) :
    (∃ rest, roundsCalls env steps x ++ endCalls env (rounds env.noted steps x) exit =
      .clock (reading env.noted x) :: rest) ∧
    (0 < steps ↔ ¬ Late env.noted started wall x) := by
  cases steps with
  | zero =>
    cases ran.ends with
    | full spent => omega
    | late room late => exact ⟨⟨_, rfl⟩, fun more => absurd more (Nat.lt_irrefl 0), (absurd late ·)⟩
    | fault => cases fine
  | succ steps =>
    exact ⟨⟨_, rfl⟩, fun _ => ran.early 0 (Nat.succ_pos steps), fun _ => Nat.succ_pos steps⟩

end

/-! A whole burst. -/

section
variable {ω μ : Type}

theorem runRan (env : Surroundings ω μ) (budget : Budget) (model : μ) (r : Rig ω) :
    let began := ask env.clock r
    let out := run env.clock env.cpu budget model r
    ∃ stopped : μ × Rig ω,
      Ran env began.1 budget.wallClock budget.maxSteps.toNat out.1.2.steps (model, began.2)
        out.1.2.exit stopped ∧
      out.1.2.elapsed = (ask env.clock stopped.2).1 - began.1 ∧
      out.2.world = (ask env.clock stopped.2).2.world := by
  obtain ⟨steps, counted, ran⟩ := stretchRan env (ask env.clock r).1 budget.wallClock
    budget.maxSteps.toNat 0 (model, (ask env.clock r).2)
  rw [Nat.zero_add] at counted
  subst counted
  exact ⟨_, ran, rfl, rfl⟩

theorem runNotes (env : Surroundings ω μ) (budget : Budget) (model : μ) (r : Rig (Noted ω μ)) :
    let began := ask env.noted.clock r
    let out := run env.noted.clock env.noted.cpu budget model r
    ∃ ended stopped,
      Ran env.noted began.1 budget.wallClock budget.maxSteps.toNat out.1.2.steps (model, began.2)
        out.1.2.exit stopped ∧
      out.1.2.elapsed = ended - began.1 ∧ out.2.world.calls =
        r.world.calls ++ burstCalls env began.1 ended (model, began.2) out.1.2 := by
  obtain ⟨stopped, ran, elapsed, world⟩ := runRan env.noted budget model r
  refine ⟨(ask env.noted.clock stopped.2).1, stopped, ran, elapsed, ?_⟩
  rw [world, clockCalls, ran.calls, clockCalls]
  simp [burstCalls]

theorem sessionNotes (env : Surroundings ω μ) (s : Session μ) (r : Rig (Noted ω μ)) :
    let began := ask env.noted.clock r
    let out := s.burst env.noted.clock env.noted.cpu r
    ∃ ended stopped, Ran env.noted began.1 s.scheduler.budget.wallClock
        s.scheduler.budget.maxSteps.toNat out.1.2.steps (s.model, began.2) out.1.2.exit stopped ∧
      out.1.2.elapsed = ended - began.1 ∧ out.2.world.calls =
        r.world.calls ++ burstCalls env began.1 ended (s.model, began.2) out.1.2 :=
  runNotes env s.scheduler.budget s.model r

end
end Burst
end VirtualBoard
