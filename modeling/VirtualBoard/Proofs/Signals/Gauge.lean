import VirtualBoard.Proofs.Journal
import VirtualBoard.Proofs.Signals.Follow

/-! CPU models that tell their listeners each level they set a pin to.

A gauge says what the model of a world does with its pins: which level each has,
who listens at which, and which pins an act sets. A model heeds its listeners if
in every act each of them is called with exactly the levels its pin is set to. A
listener listens from the moment it is handed to the model.

`Surroundings.driven` are the same surroundings with a record in their world of
all that is set, and of the moment at which each listener joined. Nobody reads it,
so forgetting it gives back the run without one. -/
namespace VirtualBoard

structure Drive where
  pin : Pin
  level : Level
  deriving DecidableEq, Repr

def Drive.on (pin : Pin) (drives : List Drive) : List Level :=
  (drives.filter (·.pin = pin)).map Drive.level

theorem Drive.onAppend (pin : Pin) (early late : List Drive) :
    on pin (early ++ late) = on pin early ++ on pin late := by
  simp only [on, List.filter_append, List.map_append]

inductive Mark where
  | drove (drive : Drive)
  | joined (key : ListenerKey) (pin : Pin) (level : Level)
  deriving DecidableEq, Repr

namespace Mark

def drive? : Mark → Option Drive
  | drove drive => some drive
  | joined .. => none

def key? : Mark → Option ListenerKey
  | drove _ => none
  | joined key _ _ => some key

def on (pin : Pin) (marks : List Mark) : List Level := Drive.on pin (marks.filterMap drive?)

theorem onDriven (pin : Pin) (since : List Mark) (more : List Drive) :
    on pin (since ++ more.map drove) = on pin since ++ Drive.on pin more := by
  have drives : (more.map drove).filterMap drive? = more := by
    rw [List.filterMap_map]
    exact List.filterMap_some
  rw [on, List.filterMap_append, drives, Drive.onAppend, on]

theorem onJoined (pin : Pin) (since : List Mark) (key : ListenerKey) (other : Pin)
    (level : Level) : on pin (since ++ [joined key other level]) = on pin since := by
  have unset : [joined key other level].filterMap drive? = [] := rfl
  rw [on, List.filterMap_append, unset, List.append_nil, on]

end Mark

structure Driven (ω : Type) where
  world : ω
  marks : List Mark

/- What can be told of a model in its world: the levels of its pins, who listens at which, the
states in which it can be relied on, and what an act sets, in order. -/
structure Gauge (ω μ : Type) where
  level : μ → ω → Pin → Level
  Listens : μ → ω → ListenerKey → Pin → Prop
  Sound : μ → ω → Prop
  drives : {α : Type} → Act ω α → ω → List Drive

variable {ω μ α : Type}

namespace Gauge

/- An act of which all listeners hear what they should: a pin has the level it was last set to,
each listener was called with the levels its pin was set to, and the same ones go on listening. -/
structure Heeds (g : Gauge ω μ) (ears : ListenerKey → Pin → Prop) (act : Act ω α) (w : ω)
    (model after : μ) : Prop where
  sound : g.Sound after (act w).world
  level : ∀ pin, g.level after (act w).world pin =
    (Drive.on pin (g.drives act w)).getLastD (g.level model w pin)
  heard : ∀ key pin, ears key pin →
    heardBy (· = key) (act w).events = Drive.on pin (g.drives act w)
  stays : ∀ key pin, g.Listens after (act w).world key pin ↔ ears key pin

/- The same for surroundings, as far as they act while a session is live. Nobody listens to a new
model, and who is handed over has not listened before. -/
structure Faithful (g : Gauge ω μ) (env : Surroundings ω μ) : Prop where
  construct : ∀ image w model, (env.construct image w).value = .ok model →
    g.Sound model (env.construct image w).world ∧
    ∀ key pin, ¬ g.Listens model (env.construct image w).world key pin
  step : ∀ model w, g.Sound model w → g.Heeds (g.Listens model w) (env.cpu.step model) w model
    (env.cpu.step model w).value.1
  tick : ∀ model w, g.Sound model w → g.Heeds (g.Listens model w) (env.cpu.tick model) w model
    (env.cpu.tick model w).value
  level : ∀ model pin w, g.Sound model w →
    g.Heeds (g.Listens model w) (env.cpu.level model pin) w model model ∧
    (env.cpu.level model pin w).value = g.level model (env.cpu.level model pin w).world pin
  listen : ∀ model pin key w, g.Sound model w → (∀ place, ¬ g.Listens model w key place) →
    g.Heeds (fun ear place => g.Listens model w ear place ∨ ear = key ∧ place = pin)
      (env.cpu.listen model pin key) w model (env.cpu.listen model pin key w).value.1
  clock : ∀ model w, g.Sound model w → g.Heeds (g.Listens model w) env.clock w model model
  request : ∀ model token w, g.Sound model w →
    g.Heeds (g.Listens model w) (env.host.request token) w model model

end Gauge

namespace Act

def driven (g : Gauge ω μ) (act : Act ω α) : Act (Driven ω) α := fun d =>
  ⟨(act d.world).value, ⟨(act d.world).world, d.marks ++ (g.drives act d.world).map .drove⟩,
    (act d.world).events⟩

def marking (mark : ω → Mark) (act : Act (Driven ω) α) : Act (Driven ω) α := fun d =>
  act ⟨d.world, d.marks ++ [mark d.world]⟩

end Act

def CpuModel.driven (g : Gauge ω μ) (cpu : CpuModel ω μ) : CpuModel (Driven ω) μ where
  step model := (cpu.step model).driven g
  tick model := (cpu.tick model).driven g
  listen model pin key := ((cpu.listen model pin key).driven g).marking fun w =>
    .joined key pin (g.level model w pin)
  unlisten model id := (cpu.unlisten model id).driven g
  level model pin := (cpu.level model pin).driven g
  discard model := (cpu.discard model).driven g

def Surroundings.driven (g : Gauge ω μ) (env : Surroundings ω μ) : Surroundings (Driven ω) μ where
  clock := Act.driven g env.clock
  cpu := env.cpu.driven g
  construct image := (env.construct image).driven g
  host := ⟨fun token => (env.host.request token).driven g,
    fun token => (env.host.cancel token).driven g⟩

def Command.driven (g : Gauge ω μ) : Command ω → Command (Driven ω)
  | .start source => .start source
  | .complete ticket outcome => .complete ticket outcome
  | .startWith source compiler => .startWith source fun request => (compiler request).driven g
  | .stop => .stop
  | .reset => .reset
  | .frame token => .frame token
  | .outside act => .outside (act.driven g)

theorem Act.drivenOver (g : Gauge ω μ) (act : Act ω α) :
    Act.Over Driven.world (act.driven g) act := fun _ => rfl

theorem Surroundings.drivenOver (g : Gauge ω μ) (env : Surroundings ω μ) :
    (env.driven g).Over Driven.world env where
  clock := Act.drivenOver g _
  cpu := ⟨fun _ => Act.drivenOver g _, fun _ => Act.drivenOver g _, fun _ _ _ _ => rfl,
    fun _ _ => Act.drivenOver g _, fun _ _ => Act.drivenOver g _, fun _ => Act.drivenOver g _⟩
  construct _ := Act.drivenOver g _
  request _ := Act.drivenOver g _
  cancel _ := Act.drivenOver g _

theorem Command.drivenMatched (g : Gauge ω μ) (command : Command ω) :
    (command.driven g).Matched (Rig.Onto Driven.world) command := by
  cases command with
  | start source => exact .start source
  | complete ticket outcome => exact .complete ticket outcome
  | startWith source compiler =>
    exact .startWith source fun request => (Rig.overAsk (Act.drivenOver g _)).matched
  | stop => exact .stop
  | reset => exact .reset
  | frame token => exact .frame token
  | outside act => exact .outside (Rig.overAsk (Act.drivenOver g act)).matched

namespace Controller

def recorded (c : Controller ω μ) : Controller (Driven ω) μ :=
  ⟨c.settings, c.phase, c.tokens, c.tickets, c.sessions,
    ⟨⟨c.rig.world, []⟩, c.rig.board, c.rig.armed, c.rig.nextKey, c.rig.log⟩⟩

theorem drivenPerform (g : Gauge ω μ) (env : Surroundings ω μ) (d : Controller (Driven ω) μ)
    (command : Command ω) : (d.onto Driven.world).perform env command =
      ((d.perform (env.driven g) (command.driven g)).1,
        (d.perform (env.driven g) (command.driven g)).2.onto Driven.world) := by
  obtain ⟨answer, after⟩ := performMatched (env.drivenOver g).matched (ontoLike _ d)
    (command.drivenMatched g)
  exact Prod.ext answer after.onto

end Controller
end VirtualBoard
