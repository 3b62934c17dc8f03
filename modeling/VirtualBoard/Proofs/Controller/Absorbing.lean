import VirtualBoard.Proofs.Controller.Holding

/-! Stops and resets in a row.

However many of them are given one after the other, nothing shows of them but one:
a reset if there was a reset among them, and else a stop. This is so in every phase,
of a command that is held as of one that takes effect at once. -/
namespace VirtualBoard.Controller

variable {ω μ : Type}

/- Runs that leave the same controller, all but its log, and make the same calls outside. -/
structure Agree (env : Surroundings ω μ) (c : Controller ω μ) (first second : List (Command ω)) :
    Prop where
  left : (c.run env first).2.takeLog.2 = (c.run env second).2.takeLog.2
  calls : c.history env first = c.history env second

/- Which one of some stops and resets is left of them. -/
def strongest (command : Held) (rest : List Held) : Held :=
  if .reset ∈ command :: rest then .reset else .stop

theorem holdStrongest (command : Held) (rest : List Held) :
    (command :: rest).foldl Held.hold none = some (strongest command rest) := by
  unfold strongest
  split
  · rename_i reset
    exact holdReset none _ (.inr reset)
  · rename_i unreset
    have stop : command = .stop := by
      cases command with
      | stop => rfl
      | reset => exact absurd (List.mem_cons_self ..) unreset
    exact holdStop none _ nofun unreset (.inr (by simp [stop]))

theorem runStrongest (env : Surroundings ω μ) (c : Controller ω μ) (command : Held)
    (rest : List Held) :
    Beside (c.run env ((command :: rest).map Held.command)).2
      (c.run env [(strongest command rest).command]).2 := by
  have all := replayAll env c none (command :: rest)
  rw [holdStrongest] at all
  have once : (c.run env [(strongest command rest).command]).2 =
      c.apply env (strongest command rest) := performHeld env c _
  rw [once]
  exact all.symm

theorem agreeStrongest (env : Surroundings ω μ) (c : Controller ω μ) (command : Held)
    (rest : List Held) : Agree env c ((command :: rest).map Held.command)
      [(strongest command rest).command] where
  left := (runStrongest env c command rest).takeLog
  calls := by
    have once : ∀ held : Held, [(held.command : Command ω)] = [held].map Held.command :=
      fun _ => rfl
    refine historyBeside ?_
    rw [once, heldNoted, heldNoted]
    exact runStrongest env.noted c.withNotes command rest

/- Stopping twice is stopping, and resetting twice, before or after a stop, is resetting. So it is
with any number of them. -/
theorem stopsAbsorbed (env : Surroundings ω μ) (c : Controller ω μ) :
    Agree env c [.stop, .stop] [.stop] ∧
    Agree env c [.reset, .reset] [.reset] ∧
    Agree env c [.stop, .reset] [.reset] ∧
    Agree env c [.reset, .stop] [.reset] ∧
    ∀ command rest, Agree env c ((command :: rest).map Held.command)
      [(strongest command rest).command] :=
  ⟨agreeStrongest env c .stop [.stop], agreeStrongest env c .reset [.reset],
    agreeStrongest env c .stop [.reset], agreeStrongest env c .reset [.stop],
    agreeStrongest env c⟩

end VirtualBoard.Controller
