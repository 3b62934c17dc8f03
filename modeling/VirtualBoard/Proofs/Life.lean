import VirtualBoard.Proofs.Journal

/-! The life of one CPU model, read off the calls that were made.

A model is constructed once, then given listeners, then stepped and ticked in
turns, and in the end it is let go. Each step is of the model that the call before
left. A step that does not fault is followed by one tick of what it left, and the
two are a beat: the beats of a life are the completed steps among its calls. -/
namespace VirtualBoard
open Rig

variable {ω μ α β : Type}

/- How far a life has come, with the model as it was left. -/
inductive Stand (μ : Type) where
  | unmade
  | live (model : μ)
  | closing (model : μ)
  | gone

def Stand.made : Stand μ → Nat
  | unmade => 0
  | _ => 1

namespace Call

def aside : Call μ → Bool
  | clock _ | requested _ | cancelled _ => true
  | _ => false

def makes : Call μ → Bool
  | constructed _ (.ok _) => true
  | _ => false

def completes : Call μ → Bool
  | stepped _ _ none => true
  | _ => false

def ticks : Call μ → Bool
  | ticked .. => true
  | _ => false

end Call

def completed (calls : List (Call μ)) : Nat := calls.countP Call.completes

/- The calls of one life so far, how far it has come, and its beats. -/
inductive Life : List (Call μ) → Stand μ → Nat → Prop where
  | none : Life [] .unmade 0
  | aside {calls stand n call} (life : Life calls stand n) (apart : call.aside) :
    Life (calls ++ [call]) stand n
  | refused {calls n image fault} (life : Life calls .unmade n) :
    Life (calls ++ [.constructed image (.error fault)]) .unmade n
  | made {calls n image model} (life : Life calls .unmade n) :
    Life (calls ++ [.constructed image (.ok model)]) (.live model) n
  | read {calls n model pin level} (life : Life calls (.live model) n) :
    Life (calls ++ [.read model pin level]) (.live model) n
  | listened {calls n model pin key after id} (life : Life calls (.live model) n) :
    Life (calls ++ [.listened model pin key after id]) (.live after) n
  | beat {calls n model between after} (life : Life calls (.live model) n) :
    Life (calls ++ [.stepped model between none, .ticked between after]) (.live after) (n + 1)
  | faulted {calls n model after fault} (life : Life calls (.live model) n) :
    Life (calls ++ [.stepped model after (some fault)]) (.closing after) n
  | retired {calls n model} (life : Life calls (.live model) n) : Life calls (.closing model) n
  | unlistened {calls n model id after removed} (life : Life calls (.closing model) n) :
    Life (calls ++ [.unlistened model id after removed]) (.closing after) n
  | discarded {calls n model} (life : Life calls (.closing model) n) :
    Life (calls ++ [.discarded model]) .gone n

namespace Life

variable {calls : List (Call μ)} {stand : Stand μ} {n : Nat}

theorem counted (life : Life calls stand n) :
    completed calls = n ∧ calls.countP Call.ticks = n ∧ calls.countP Call.makes = stand.made := by
  unfold completed
  induction life with
  | none => exact ⟨rfl, rfl, rfl⟩
  | @aside calls stand n call life apart ih =>
    have none : call.completes = false ∧ call.ticks = false ∧ call.makes = false := by
      cases call <;> first | exact ⟨rfl, rfl, rfl⟩ | cases apart
    simpa [none] using ih
  | retired life ih => exact ih
  | _ life ih =>
    simpa [List.countP_cons, Call.completes, Call.ticks, Call.makes, Stand.made] using ih

end Life

def Rig.Tells (past : List (Call μ)) (stand : Stand μ) (n : Nat) (r : Rig (Noted ω μ)) : Prop :=
  Life (past ++ r.world.calls) stand n

def Rig.Leads (past : List (Call μ)) (n : Nat) (stand : Stand μ) (w : Work (Noted ω μ) α)
    (next : α → Stand μ) : Prop :=
  ∀ r, Tells past stand n r → Tells past (next (w r).1) n (w r).2

def Burst.Exit.stand (exit : Burst.Exit) (model : μ) : Stand μ :=
  match exit with
  | .faulted _ => .closing model
  | _ => .live model

theorem Burst.Exit.standLive {exit : Burst.Exit} {model : μ} (fine : exit.fault? = none) :
    exit.stand model = .live model := by
  cases exit with
  | faulted => cases fine
  | _ => rfl

section
variable {past : List (Call μ)} {stand : Stand μ} {n : Nat} {model : μ}

theorem leadsBind {between : α → Stand μ} {after : β → Stand μ} {first : Work (Noted ω μ) α}
    {next : α → Work (Noted ω μ) β} (early : Leads past n stand first between)
    (late : ∀ a, Leads past n (between a) (next a) after) :
    Leads past n stand (first >>= next) after :=
  fun r tells => late _ _ (early r tells)

theorem leadsPure {value : α} {after : α → Stand μ} (same : after value = stand) :
    Leads past n stand (pure value : Work (Noted ω μ) α) after := by
  intro r tells
  rw [pureRun, same]
  exact tells

theorem leadsRig {w : Work (Noted ω μ) α} (unasked : ∀ r, (w r).2.world = r.world) :
    Leads past n stand w fun _ => stand := by
  intro r tells
  unfold Tells
  rw [unasked]
  exact tells

theorem askTells (note : α → Call μ) (act : Act ω α) {next : Stand μ} {m : Nat}
    {r : Rig (Noted ω μ)} (tells : Tells past stand n r)
    (further : ∀ {calls}, Life calls stand n →
      Life (calls ++ [note (ask (act.noting note) r).1]) next m) :
    Tells past next m (ask (act.noting note) r).2 := by
  unfold Tells
  rw [askWorld]
  show Life (past ++ (r.world.calls ++ [note _])) next m
  rw [← List.append_assoc]
  exact further tells

theorem leadsAsk (note : α → Call μ) {act : Act ω α} {after : α → Stand μ}
    (further : ∀ {calls} value, Life calls stand n →
      Life (calls ++ [note value]) (after value) n) :
    Leads past n stand (ask (act.noting note)) after :=
  fun _ tells => askTells note act tells (further _)

section
variable (env : Surroundings ω μ)

theorem clockLeads : Leads past n stand (ask env.noted.clock) fun _ => stand :=
  leadsAsk .clock fun _ life => life.aside rfl

theorem requestLeads (token : BurstToken) :
    Leads past n stand (ask (env.noted.host.request token)) fun _ => stand :=
  leadsAsk (fun _ => .requested token) fun _ life => life.aside rfl

theorem constructLeads (image : Image) :
    Leads past n .unmade (ask (env.noted.construct image)) fun
      | .ok model => .live model
      | .error _ => .unmade := by
  refine leadsAsk (.constructed image) fun result life => ?_
  cases result with
  | ok model => exact life.made
  | error fault => exact life.refused

theorem attachLeads (watch : Watch) :
    Leads past n (.live model) (Subscription.attach env.noted.cpu model watch)
      fun out => .live out.1 := by
  refine leadsBind (leadsRig fun _ => rfl) fun _ => ?_
  refine leadsBind (leadsAsk (.read model watch.pin) fun _ life => life.read) fun level => ?_
  refine leadsBind (leadsRig fun _ => rfl) fun _ => leadsBind (leadsRig fun _ => rfl) fun key => ?_
  have listens : Leads past n (.live model) (ask (env.noted.cpu.listen model watch.pin key))
      fun out => .live out.1 := leadsAsk _ fun _ life => life.listened
  exact leadsBind listens fun _ => leadsBind (leadsRig fun _ => rfl) fun _ => leadsPure rfl

theorem attachAllLeads (watches : List Watch) :
    Leads past n (.live model) (Subscription.attachAll env.noted.cpu model watches)
      fun out => .live out.1 := by
  induction watches generalizing model with
  | nil => exact leadsPure rfl
  | cons watch rest ih =>
    exact leadsBind (attachLeads env watch) fun _ => leadsBind ih fun _ => leadsPure rfl

theorem releaseLeads (s : Subscription) :
    Leads past n (.closing model) (Subscription.release env.noted.cpu model s) .closing := by
  have ends : Leads past n (.closing model) (ask (env.noted.cpu.unlisten model s.listener))
      fun out => .closing out.1 := leadsAsk _ fun _ life => life.unlistened
  refine leadsBind (leadsRig fun _ => rfl) fun _ => leadsBind ends fun answer => ?_
  obtain ⟨after, removed⟩ := answer
  cases removed with
  | true => exact leadsBind (leadsRig fun _ => rfl) fun _ => leadsPure rfl
  | false =>
    refine leadsBind (leadsRig fun _ => rfl) fun _ => ?_
    exact leadsBind (leadsRig fun _ => rfl) fun _ => leadsPure rfl

theorem releaseAllLeads (subscriptions : List Subscription) :
    Leads past n (.closing model)
      (Subscription.releaseAll env.noted.cpu model subscriptions) .closing := by
  induction subscriptions generalizing model with
  | nil => exact leadsPure rfl
  | cons s rest ih => exact leadsBind (releaseLeads env s) fun _ => ih

theorem closeLeads (s : Session μ) :
    Leads past n (.closing s.model) (s.close env.noted.cpu env.noted.host) fun _ => .gone := by
  have withdrawn : Leads past n (.closing s.model) (s.withdraw env.noted.host)
      fun _ => .closing s.model := by
    unfold Session.withdraw
    cases s.scheduler.pending with
    | none => exact leadsPure rfl
    | some token =>
      exact leadsAsk (fun _ => .cancelled token) fun _ life => life.aside rfl
  have discards : ∀ model, Leads past n (.closing model) (ask (env.noted.cpu.discard model))
      fun _ => .gone := fun _ => leadsAsk _ fun _ life => life.discarded
  rw [Session.closeSteps]
  refine leadsBind withdrawn fun _ => leadsBind (releaseAllLeads env _) fun model => ?_
  refine leadsBind (leadsRig fun _ => rfl) fun _ => ?_
  exact leadsBind (discards model) fun _ => leadsPure rfl

theorem faultTells {r : Rig (Noted ω μ)} (tells : Tells past (.live model) n r) {fault : CpuFault}
    (faulted : (ask (env.noted.cpu.step model) r).1.2 = some fault) :
    let stepped := ask (env.noted.cpu.step model) r
    Tells past (.closing stepped.1.1) n stepped.2 := by
  intro stepped
  refine askTells (fun after : μ × Option CpuFault => .stepped model after.1 after.2)
    (env.cpu.step model) tells fun life => ?_
  show Life (_ ++ [.stepped model stepped.1.1 stepped.1.2]) _ n
  rw [faulted]
  exact life.faulted

theorem beatTells {r : Rig (Noted ω μ)} (tells : Tells past (.live model) n r)
    (fine : (ask (env.noted.cpu.step model) r).1.2 = none) :
    let stepped := ask (env.noted.cpu.step model) r
    let ticked := ask (env.noted.cpu.tick stepped.1.1) stepped.2
    Tells past (.live ticked.1) (n + 1) ticked.2 := by
  intro stepped ticked
  have step : stepped.2.world.calls = r.world.calls ++ [.stepped model stepped.1.1 none] := by
    rw [← fine]
    exact congrArg Noted.calls (askWorld (env.noted.cpu.step model) r)
  have tick : ticked.2.world.calls = stepped.2.world.calls ++ [.ticked stepped.1.1 ticked.1] :=
    congrArg Noted.calls (askWorld (env.noted.cpu.tick stepped.1.1) stepped.2)
  unfold Tells at tells ⊢
  rw [tick, step, List.append_assoc, ← List.append_assoc]
  exact tells.beat

theorem stretchTells (started wall : Duration) (left done : Nat) {r : Rig (Noted ω μ)}
    (tells : Tells past (.live model) (n + done) r) :
    let out := Burst.stretch env.noted.clock env.noted.cpu started wall left done model r
    Tells past (out.1.2.2.stand out.1.1) (n + out.1.2.1) out.2 := by
  induction left generalizing done model r with
  | zero => exact tells
  | succ left ih =>
    have read := clockLeads env r tells
    rw [Burst.stretchRound]
    generalize ask env.noted.clock r = now at read
    dsimp only
    split
    · exact read
    · cases result : (ask (env.noted.cpu.step model) now.2).1.2 with
      | some fault => exact faultTells env read result
      | none => exact ih (done + 1) (beatTells env read result)

theorem burstTells (s : Session μ) {r : Rig (Noted ω μ)}
    (tells : Tells past (.live s.model) s.counters.cycles r) :
    let out := s.burst env.noted.clock env.noted.cpu r
    Tells past (out.1.2.exit.stand out.1.1.model) out.1.1.counters.cycles out.2 := by
  have began := clockLeads env r tells
  have ran := stretchTells env (ask env.noted.clock r).1 s.scheduler.budget.wallClock
    s.scheduler.budget.maxSteps.toNat 0 began
  rw [Session.burstRun]
  exact clockLeads env _ ran

end
end
end VirtualBoard
