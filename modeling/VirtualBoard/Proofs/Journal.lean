import VirtualBoard.Proofs.Matching

/-! What the outside parties are asked, written down.

`Surroundings.noted` are the same surroundings with a notebook in their world:
each call the controller makes is noted with its answer, in order. The notebook
is read by nobody, so forgetting it gives back the run without one. `calls` are
the notes of one command and `history` those of a run. -/
namespace VirtualBoard

/- A call made of an outside party, with what was given and what came back. -/
inductive Call (μ : Type) where
  | clock (reading : Duration)
  | stepped (model after : μ) (fault : Option CpuFault)
  | ticked (model after : μ)
  | listened (model : μ) (pin : Pin) (key : ListenerKey) (after : μ) (id : ListenerId)
  | unlistened (model : μ) (id : ListenerId) (after : μ) (removed : Bool)
  | read (model : μ) (pin : Pin) (level : Level)
  | discarded (model : μ)
  | constructed (image : Image) (result : Except CpuFault μ)
  | requested (token : BurstToken)
  | cancelled (token : BurstToken)

/- A world with a notebook, the oldest note first. -/
structure Noted (ω μ : Type) where
  world : ω
  calls : List (Call μ)

variable {ω ω' μ α β : Type}

namespace Act

def noting (note : α → Call μ) (act : Act ω α) : Act (Noted ω μ) α := fun n =>
  ⟨(act n.world).value, ⟨(act n.world).world, n.calls ++ [note (act n.world).value]⟩,
    (act n.world).events⟩

def unnoted (act : Act ω α) : Act (Noted ω μ) α := fun n =>
  ⟨(act n.world).value, ⟨(act n.world).world, n.calls⟩, (act n.world).events⟩

end Act

def CpuModel.noted (cpu : CpuModel ω μ) : CpuModel (Noted ω μ) μ where
  step model := (cpu.step model).noting fun after => .stepped model after.1 after.2
  tick model := (cpu.tick model).noting fun after => .ticked model after
  listen model pin key :=
    (cpu.listen model pin key).noting fun after => .listened model pin key after.1 after.2
  unlisten model id :=
    (cpu.unlisten model id).noting fun after => .unlistened model id after.1 after.2
  level model pin := (cpu.level model pin).noting fun level => .read model pin level
  discard model := (cpu.discard model).noting fun _ => .discarded model

def FrameHost.noted (host : FrameHost ω) : FrameHost (Noted ω μ) where
  request token := (host.request token).noting fun _ => .requested token
  cancel token := (host.cancel token).noting fun _ => .cancelled token

def Surroundings.noted (env : Surroundings ω μ) : Surroundings (Noted ω μ) μ where
  clock := Act.noting .clock env.clock
  cpu := env.cpu.noted
  construct image := (env.construct image).noting fun result => .constructed image result
  host := env.host.noted

def Command.noted : Command ω → Command (Noted ω μ)
  | .start source => .start source
  | .complete ticket outcome => .complete ticket outcome
  | .startWith source compiler => .startWith source fun request => (compiler request).unnoted
  | .stop => .stop
  | .reset => .reset
  | .frame token => .frame token
  | .outside act => .outside act.unnoted

/- The notes a projection of the calls is interested in. -/
namespace Call

def requested? : Call μ → Option BurstToken
  | requested token => some token
  | _ => none

def fault? : Call μ → Option CpuFault
  | stepped _ _ fault => fault
  | _ => none

end Call

def requests (calls : List (Call μ)) : List BurstToken := calls.filterMap Call.requested?
def faults (calls : List (Call μ)) : List CpuFault := calls.filterMap Call.fault?

namespace Controller

def withNotes (c : Controller ω μ) : Controller (Noted ω μ) μ :=
  ⟨c.settings, c.phase, c.tokens, c.tickets, c.sessions,
    ⟨⟨c.rig.world, []⟩, c.rig.board, c.rig.armed, c.rig.nextKey, c.rig.log⟩⟩

def calls (env : Surroundings ω μ) (c : Controller ω μ) (command : Command ω) : List (Call μ) :=
  (c.withNotes.perform env.noted command.noted).2.rig.world.calls

def history (env : Surroundings ω μ) (c : Controller ω μ) : List (Command ω) → List (Call μ)
  | [] => []
  | command :: rest => c.calls env command ++ (c.perform env command).2.history env rest

end Controller

/-! Forgetting part of the world. An act above and an act below agree if the one
below sees of the world only what is kept, and does to it what the one above does. -/

def Act.Over (f : ω → ω') (above : Act ω α) (below : Act ω' α) : Prop :=
  ∀ w, below (f w) = ⟨(above w).value, f (above w).world, (above w).events⟩

theorem Act.notingOver (note : α → Call μ) (act : Act ω α) :
    Act.Over Noted.world (act.noting note) act := fun _ => rfl

theorem Act.unnotedOver (act : Act ω α) :
    Act.Over (Noted.world (μ := μ)) act.unnoted act := fun _ => rfl

def Rig.onto (f : ω → ω') (r : Rig ω) : Rig ω' := ⟨f r.world, r.board, r.armed, r.nextKey, r.log⟩

namespace Rig

theorem takeOnto (f : ω → ω') (event : Event) (r : Rig ω) :
    (r.onto f).take event = (r.take event).onto f := by
  cases event with
  | logged entry => rfl
  | called key level =>
    show (r.onto f).call key level = (r.call key level).onto f
    have same : (r.onto f).name? key = r.name? key := rfl
    simp only [call, same]
    cases r.name? key with
    | none => rfl
    | some name =>
      show (if (r.board.publish name level).1 = true then _ else _) =
        Rig.onto f (if _ then _ else _)
      split <;> rfl

theorem takeAllOnto (f : ω → ω') (events : List Event) (r : Rig ω) :
    events.foldl take (r.onto f) = (events.foldl take r).onto f := by
  induction events generalizing r with
  | nil => rfl
  | cons event rest ih => rw [List.foldl_cons, takeOnto, ih, List.foldl_cons]

def Over (f : ω → ω') (above : Work ω α) (below : Work ω' α) : Prop :=
  ∀ r, below (r.onto f) = ((above r).1, (above r).2.onto f)

variable {f : ω → ω'}

theorem overAsk {above : Act ω α} {below : Act ω' α} (same : Act.Over f above below) :
    Over f (ask above) (ask below) := by
  intro r
  show ((below (f r.world)).value, (below (f r.world)).events.foldl take
    {r.onto f with world := (below (f r.world)).world}) = _
  rw [same]
  exact congrArg _ (takeAllOnto f _ {r with world := (above r.world).world})

def Onto (f : ω → ω') (r : Rig ω) (s : Rig ω') : Prop := s = r.onto f

theorem Over.matched {above : Work ω α} {below : Work ω' α} (same : Over f above below) :
    Matched (Onto f) above below := by
  rintro r _ rfl
  rw [same r]
  exact ⟨rfl, rfl⟩

theorem ontoLikeness : StepLikeness (Onto f) where
  record _ _ := Over.matched fun _ => rfl
  declare _ := Over.matched fun _ => rfl
  publish _ _ := Over.matched fun _ => rfl
  arm _ := Over.matched fun _ => rfl
  disarm _ := Over.matched fun _ => rfl
  clear := Over.matched fun _ => rfl

end Rig

structure CpuModel.Over (f : ω → ω') (above : CpuModel ω μ) (below : CpuModel ω' μ) : Prop where
  step : ∀ model, Act.Over f (above.step model) (below.step model)
  tick : ∀ model, Act.Over f (above.tick model) (below.tick model)
  listen : ∀ model pin key, Act.Over f (above.listen model pin key) (below.listen model pin key)
  unlisten : ∀ model id, Act.Over f (above.unlisten model id) (below.unlisten model id)
  level : ∀ model pin, Act.Over f (above.level model pin) (below.level model pin)
  discard : ∀ model, Act.Over f (above.discard model) (below.discard model)

structure Surroundings.Over (f : ω → ω') (above : Surroundings ω μ) (below : Surroundings ω' μ) :
    Prop where
  clock : Act.Over f above.clock below.clock
  cpu : above.cpu.Over f below.cpu
  construct : ∀ image, Act.Over f (above.construct image) (below.construct image)
  request : ∀ token, Act.Over f (above.host.request token) (below.host.request token)
  cancel : ∀ token, Act.Over f (above.host.cancel token) (below.host.cancel token)

theorem Surroundings.notedOver (env : Surroundings ω μ) : env.noted.Over Noted.world env where
  clock := Act.notingOver _ _
  cpu := ⟨fun _ => Act.notingOver _ _, fun _ => Act.notingOver _ _, fun _ _ _ => Act.notingOver _ _,
    fun _ _ => Act.notingOver _ _, fun _ _ => Act.notingOver _ _, fun _ => Act.notingOver _ _⟩
  construct _ := Act.notingOver _ _
  request _ := Act.notingOver _ _
  cancel _ := Act.notingOver _ _

theorem Surroundings.Over.matched {f : ω → ω'} {above : Surroundings ω μ}
    {below : Surroundings ω' μ} (same : above.Over f below) :
    above.Matched (Rig.Onto f) below where
  likeness := Rig.ontoLikeness.toLikeness
  clock := (Rig.overAsk same.clock).matched
  cpu := {
    step := fun model => (Rig.overAsk (same.cpu.step model)).matched
    tick := fun model => (Rig.overAsk (same.cpu.tick model)).matched
    attach := fun model watch => Subscription.attachMatched Rig.ontoLikeness
      (Rig.overAsk (same.cpu.level model watch.pin)).matched
      fun key => (Rig.overAsk (same.cpu.listen model watch.pin key)).matched
    unlisten := fun model id => (Rig.overAsk (same.cpu.unlisten model id)).matched
    discard := fun model => (Rig.overAsk (same.cpu.discard model)).matched }
  construct image := (Rig.overAsk (same.construct image)).matched
  request token := (Rig.overAsk (same.request token)).matched
  cancel token := (Rig.overAsk (same.cancel token)).matched

theorem Command.notedMatched (command : Command ω) :
    (command.noted (μ := μ)).Matched (Rig.Onto Noted.world) command := by
  cases command with
  | start source => exact .start source
  | complete ticket outcome => exact .complete ticket outcome
  | startWith source compiler =>
    exact .startWith source fun request => (Rig.overAsk (Act.unnotedOver _)).matched
  | stop => exact .stop
  | reset => exact .reset
  | frame token => exact .frame token
  | outside act => exact .outside (Rig.overAsk (Act.unnotedOver act)).matched

namespace Controller

def onto (f : ω → ω') (c : Controller ω μ) : Controller ω' μ :=
  ⟨c.settings, c.phase, c.tokens, c.tickets, c.sessions, c.rig.onto f⟩

theorem Like.onto {f : ω → ω'} {c : Controller ω μ} {d : Controller ω' μ}
    (alike : Like (Rig.Onto f) c d) : d = c.onto f := by
  obtain ⟨s, rfl⟩ := alike
  rfl

theorem ontoLike (f : ω → ω') (c : Controller ω μ) : Like (Rig.Onto f) c (c.onto f) := .atRig _ rfl

theorem notedPerform (env : Surroundings ω μ) (c : Controller (Noted ω μ) μ)
    (command : Command ω) :
    (c.onto Noted.world).perform env command =
      ((c.perform env.noted command.noted).1,
        (c.perform env.noted command.noted).2.onto Noted.world) := by
  obtain ⟨answer, after⟩ := performMatched env.notedOver.matched (ontoLike _ c)
    command.notedMatched
  exact Prod.ext answer after.onto

theorem notedStep (env : Surroundings ω μ) (c : Controller ω μ) (command : Command ω) :
    c.perform env command =
      ((c.withNotes.perform env.noted command.noted).1,
        (c.withNotes.perform env.noted command.noted).2.onto Noted.world) :=
  notedPerform env c.withNotes command

theorem notedFrame (env : Surroundings ω μ) (c : Controller ω μ) (token : BurstToken) :
    c.frame env token = ((c.withNotes.frame env.noted token).1,
      (c.withNotes.frame env.noted token).2.onto Noted.world) := by
  obtain ⟨continuation, after⟩ := frameMatched env.notedOver.matched (ontoLike _ c.withNotes) token
  exact Prod.ext continuation after.onto

theorem notedLoad (env : Surroundings ω μ) (c : Controller ω μ) (outcome : Outcome) :
    c.load env outcome = (c.withNotes.load env.noted outcome).onto Noted.world := by
  have loaded := loadNumbered env.notedOver.matched.numbered
    (likeNumbered.mpr (ontoLike _ c.withNotes)) outcome
  exact (likeNumbered.mp loaded).onto

theorem notedRun (env : Surroundings ω μ) (c : Controller (Noted ω μ) μ)
    (commands : List (Command ω)) :
    (c.onto Noted.world).run env commands =
      ((c.run env.noted (commands.map Command.noted)).1,
        (c.run env.noted (commands.map Command.noted)).2.onto Noted.world) := by
  induction commands generalizing c with
  | nil => rfl
  | cons command rest ih => simp only [run, List.map_cons, notedPerform, ih]

end Controller

/-! A notebook that is begun already: what is noted in it does not depend on that. -/

def Noted.after (prior : List (Call μ)) (n : Noted ω μ) : Noted ω μ := ⟨n.world, prior ++ n.calls⟩

theorem Act.notingAfter (prior : List (Call μ)) (note : α → Call μ) (act : Act ω α) :
    Act.Over (Noted.after prior) (act.noting note) (act.noting note) := by
  intro n
  simp only [noting, Noted.after, List.append_assoc]

theorem Act.unnotedAfter (prior : List (Call μ)) (act : Act ω α) :
    Act.Over (Noted.after prior) act.unnoted act.unnoted := fun _ => rfl

theorem Surroundings.notedAfter (env : Surroundings ω μ) (prior : List (Call μ)) :
    env.noted.Over (Noted.after prior) env.noted where
  clock := Act.notingAfter prior _ _
  cpu := {
    step := fun model => Act.notingAfter prior
      (fun out : μ × Option CpuFault => .stepped model out.1 out.2) _
    tick := fun model => Act.notingAfter prior (.ticked model) _
    listen := fun model pin key => Act.notingAfter prior
      (fun out : μ × ListenerId => .listened model pin key out.1 out.2) _
    unlisten := fun model id => Act.notingAfter prior
      (fun out : μ × Bool => .unlistened model id out.1 out.2) _
    level := fun model pin => Act.notingAfter prior (.read model pin) _
    discard := fun model => Act.notingAfter prior (fun _ => .discarded model) _ }
  construct _ := Act.notingAfter prior _ _
  request token := Act.notingAfter prior (fun _ => .requested token) _
  cancel token := Act.notingAfter prior (fun _ => .cancelled token) _

theorem Command.notedAfter (command : Command ω) (prior : List (Call μ)) :
    command.noted.Matched (Rig.Onto (Noted.after prior)) command.noted := by
  cases command with
  | start source => exact .start source
  | complete ticket outcome => exact .complete ticket outcome
  | startWith source compiler =>
    exact .startWith source fun request => (Rig.overAsk (Act.unnotedAfter prior _)).matched
  | stop => exact .stop
  | reset => exact .reset
  | frame token => exact .frame token
  | outside act => exact .outside (Rig.overAsk (Act.unnotedAfter prior act)).matched

namespace Controller

theorem performNotes (env : Surroundings ω μ) (c : Controller ω μ) (command : Command ω) :
    (c.withNotes.perform env.noted command.noted).2 =
      (c.perform env command).2.withNotes.onto (Noted.after (c.calls env command)) := by
  have forgotten := congrArg Prod.snd (notedStep env c command)
  dsimp only at forgotten
  rw [forgotten, calls]
  simp only [withNotes, onto, Rig.onto, Noted.after, List.append_nil]

theorem runNotes (env : Surroundings ω μ) (c : Controller ω μ) (commands : List (Command ω)) :
    (c.withNotes.run env.noted (commands.map Command.noted)).2 =
      (c.run env commands).2.withNotes.onto (Noted.after (c.history env commands)) := by
  induction commands generalizing c with
  | nil => rfl
  | cons command rest ih =>
    have after := (runMatched (env.notedAfter (c.calls env command)).matched
      (ontoLike _ (c.perform env command).2.withNotes) (rest.map Command.noted) id
      (by simp only [List.forall_mem_map]; exact fun other _ => other.notedAfter _)).2.onto
    rw [List.map_id, ih] at after
    simp only [List.map_cons, run]
    rw [performNotes, after]
    simp only [history, onto, Rig.onto, Noted.after, List.append_assoc]

theorem runCalls (env : Surroundings ω μ) (c : Controller ω μ) (commands : List (Command ω)) :
    (c.withNotes.run env.noted (commands.map Command.noted)).2.rig.world.calls =
      c.history env commands := by
  rw [runNotes]
  exact List.append_nil _

end Controller
end VirtualBoard
