import VirtualBoard.Proofs.Matching
import VirtualBoard.Proofs.Signals.Logged

/-! What a run logs itself.

Outside parties may write into the log whatever they like. With all of that left
out a run goes the same way, and its log is what is left of the whole one. -/
namespace VirtualBoard

variable {ω μ α : Type}

def Event.isCall : Event → Bool
  | called .. => true
  | logged _ => false

def Act.muted (act : Act ω α) : Act ω α := fun world =>
  ⟨(act world).value, (act world).world, (act world).events.filter Event.isCall⟩

def Surroundings.muted (env : Surroundings ω μ) : Surroundings ω μ where
  clock := Act.muted env.clock
  cpu := {
    step := fun model => (env.cpu.step model).muted
    tick := fun model => (env.cpu.tick model).muted
    listen := fun model pin key => (env.cpu.listen model pin key).muted
    unlisten := fun model id => (env.cpu.unlisten model id).muted
    level := fun model pin => (env.cpu.level model pin).muted
    discard := fun model => (env.cpu.discard model).muted }
  construct image := (env.construct image).muted
  host := ⟨fun token => (env.host.request token).muted, fun token => (env.host.cancel token).muted⟩

def Command.muted : Command ω → Command ω
  | .startWith source compiler => .startWith source fun request => (compiler request).muted
  | .outside act => .outside act.muted
  | command => command

theorem Act.mutedTacit (act : Act ω α) : act.muted.Tacit := by
  intro world event member
  have call := (List.mem_filter.mp member).2
  cases event with
  | called key level => trivial
  | logged entry => cases call

namespace Rig

def Quieter (r s : Rig ω) : Prop := ∃ log, s = {r with log := log} ∧ log.Sublist r.log

variable {r s : Rig ω}

theorem Quieter.write (quieter : Quieter r s) (entry : Log.Entry) :
    Quieter (r.write entry) (s.write entry) := by
  obtain ⟨log, rfl, fewer⟩ := quieter
  exact ⟨_, rfl, fewer.cons_cons entry⟩

theorem Quieter.call (quieter : Quieter r s) (key : ListenerKey) (level : Level) :
    Quieter (r.call key level) (s.call key level) := by
  obtain ⟨log, rfl, fewer⟩ := quieter
  have same : ({r with log := log} : Rig ω).name? key = r.name? key := rfl
  simp only [Rig.call, same]
  cases r.name? key with
  | none => exact ⟨_, rfl, fewer⟩
  | some name =>
    dsimp only
    split
    · exact ⟨_, rfl, fewer.cons_cons _⟩
    · exact ⟨_, rfl, fewer⟩

theorem Quieter.takeAll (quieter : Quieter r s) (events : List Event) :
    Quieter (events.foldl take r) ((events.filter Event.isCall).foldl take s) := by
  induction events generalizing r s with
  | nil => exact quieter
  | cons event rest ih =>
    cases event with
    | called key level => exact ih (quieter.call key level)
    | logged entry =>
      obtain ⟨log, rfl, fewer⟩ := quieter
      exact ih ⟨log, rfl, fewer.cons entry⟩

theorem askQuieter (act : Act ω α) : Matched Quieter (ask act) (ask act.muted) := by
  rintro r _ ⟨log, rfl, fewer⟩
  have moved : Quieter {r with world := (act r.world).world}
      {r with world := (act r.world).world, log := log} := ⟨log, rfl, fewer⟩
  exact ⟨rfl, moved.takeAll _⟩

theorem quieterLikeness : StepLikeness (Quieter (ω := ω)) where
  record _ _ _ _ quieter := ⟨rfl, quieter.write _⟩
  declare := by rintro _ r _ ⟨log, rfl, fewer⟩; exact ⟨rfl, _, rfl, fewer⟩
  publish := by rintro _ _ r _ ⟨log, rfl, fewer⟩; exact ⟨rfl, _, rfl, fewer⟩
  arm := by rintro _ r _ ⟨log, rfl, fewer⟩; exact ⟨rfl, _, rfl, fewer⟩
  disarm := by rintro _ r _ ⟨log, rfl, fewer⟩; exact ⟨rfl, _, rfl, fewer⟩
  clear := by rintro r _ ⟨log, rfl, fewer⟩; exact ⟨rfl, _, rfl, fewer⟩

end Rig
open Rig

theorem Surroundings.quieter (env : Surroundings ω μ) : env.Matched Quieter env.muted where
  likeness := quieterLikeness.toLikeness
  clock := askQuieter _
  cpu := ⟨fun _ => askQuieter _, fun _ => askQuieter _,
    fun _ _ => Subscription.attachMatched quieterLikeness (askQuieter _) fun _ => askQuieter _,
    fun _ _ => askQuieter _, fun _ => askQuieter _⟩
  construct _ := askQuieter _
  request _ := askQuieter _
  cancel _ := askQuieter _

theorem Command.quieter (command : Command ω) : command.Matched Quieter command.muted := by
  cases command with
  | start source => exact .start source
  | complete ticket outcome => exact .complete ticket outcome
  | startWith source compiler => exact .startWith source fun request => askQuieter _
  | stop => exact .stop
  | reset => exact .reset
  | frame token => exact .frame token
  | outside act => exact .outside (askQuieter act)

namespace Controller

def mutedRun (env : Surroundings ω μ) (c : Controller ω μ) (commands : List (Command ω)) :
    Controller ω μ := (c.run env.muted (commands.map Command.muted)).2

theorem mutedSame (env : Surroundings ω μ) (c : Controller ω μ) (commands : List (Command ω)) :
    (c.mutedRun env commands).takeLog.2 = (c.run env commands).2.takeLog.2 ∧
    (c.mutedRun env commands).rig.log.Sublist (c.run env commands).2.rig.log := by
  have same : Like Quieter c c := .atRig c.rig ⟨c.rig.log, rfl, .refl _⟩
  have after := (runMatched env.quieter same commands Command.muted
    fun command _ => command.quieter).2
  rw [mutedRun]
  generalize (c.run env.muted (commands.map Command.muted)).2 = d at after
  obtain ⟨_, log, rfl, fewer⟩ := after
  exact ⟨rfl, fewer⟩

end Controller
end VirtualBoard
