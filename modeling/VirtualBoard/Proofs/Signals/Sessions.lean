import VirtualBoard.Proofs.Signals.Coupling

/-! The signals of a session, from its opening on and through every burst.

Subscribing reads the pin, shows its level and then lets the listener join, so
that nothing set in between goes unheard. After that each act of the model is
heeded, at every single step of a burst and not only at its end. -/
namespace VirtualBoard
open Rig

variable {ω μ : Type} {g : Gauge ω μ} {names : List String} {env : Surroundings ω μ}

namespace Gauge

/- A rig in which some pins of a model are watched: their signals have followed them since they
were subscribed to, and the other signals are as they were before. -/
structure Watched (g : Gauge ω μ) (names : List String) (before : Board)
    (subs : List Subscription) (model : μ) (r : Rig (Driven ω)) : Prop where
  coupled : g.Coupled names subs model r
  shown : ∀ s ∈ subs, g.Follows before s model r
  rest : ∀ name ∉ subs.map Subscription.name, r.board.find? name = before.find? name

variable {before : Board} {subs : List Subscription} {model after : μ} {r s : Rig (Driven ω)}

theorem Watched.reached (watched : g.Watched names before subs model r)
    (reached : g.Reached names subs model r after s) : g.Watched names before subs after s := by
  obtain ⟨more, moved⟩ := reached.moved
  exact ⟨reached.coupled, fun x member => (watched.shown x member).moved member moved,
    fun name apart => (moved.rest name apart).trans (watched.rest name apart)⟩

theorem Watched.start (sound : g.Sound model r.world.world)
    (unheard : ∀ key pin, ¬ g.Listens model r.world.world key pin) (fits : Fits names r)
    (quiet : r.armed = []) : g.Watched names r.board [] model r where
  coupled := ⟨sound, fits, by simp [name?, quiet], List.nodup_nil, by simp [unheard]⟩
  shown := by simp
  rest _ _ := rfl

def handing (name : String) (pin : Pin) (level : Level) (r : Rig (Driven ω)) : Rig (Driven ω) :=
  let armed := (arm name (publish name level r).2).2
  {armed with world := ⟨r.world.world, r.world.marks ++ [.joined ⟨r.nextKey⟩ pin level]⟩}

section
variable {watch : Watch}

theorem handingHooked (coupled : g.Coupled names subs model r) (known : watch.name ∈ names)
    (apart : watch.name ∉ subs.map Subscription.name) (level : Level) (id : ListenerId) :
    Hooked (fun ear place => g.Listens model r.world.world ear place ∨
        ear = ⟨r.nextKey⟩ ∧ place = watch.pin) names
      (subs ++ [⟨id, watch.pin, watch.name, ⟨r.nextKey⟩⟩])
      (handing watch.name watch.pin level r) := by
  have armed := (coupled.hooked.published known level).arm known apart watch.pin id
  exact ⟨⟨armed.fits.board, armed.fits.armed, armed.fits.keys⟩, armed.armed, armed.distinct,
    armed.ears⟩

theorem handingFind (coupled : g.Coupled names subs model r) (known : watch.name ∈ names)
    (level : Level) (other : String) :
    (handing watch.name watch.pin level r).board.find? other =
      (r.board.find? other).map fun s => s.after (if other = watch.name then [level] else []) := by
  have there : watch.name ∈ r.board.names := by
    rw [coupled.hooked.fits.board]
    exact known
  exact Board.publishFind there level other

theorem handingFollows (watched : g.Watched names before subs model r) (known : watch.name ∈ names)
    (apart : watch.name ∉ subs.map Subscription.name) (id : ListenerId) :
    let level := g.level model r.world.world watch.pin
    ∀ s ∈ subs ++ [⟨id, watch.pin, watch.name, ⟨r.nextKey⟩⟩],
      g.Follows before s model (handing watch.name watch.pin level r) := by
  intro level s member
  have found := handingFind watched.coupled known level
  rcases List.mem_append.mp member with old | new
  · obtain ⟨first, now, joined, since, account⟩ := watched.shown s old
    obtain ⟨earlier, marks⟩ := account.marks
    have other : s.name ≠ watch.name := fun same =>
      apart (List.mem_map.mpr ⟨s, old, same⟩)
    refine ⟨first, now, joined, since ++ [.joined ⟨r.nextKey⟩ watch.pin level], account.found, ?_,
      ⟨earlier, ?_⟩, ?_, account.level, ?_, ?_⟩
    · rw [found, account.shown, if_neg other]
      rfl
    · show r.world.marks ++ _ = _
      rw [marks, List.append_assoc, List.cons_append]
    · intro mark there
      rcases List.mem_append.mp there with late | new
      · exact account.once mark late
      · rw [List.mem_singleton.mp new]
        intro same
        have bound := watched.coupled.hooked.keys old
        rw [← Option.some.inj same] at bound
        exact Nat.lt_irrefl _ bound
    · rw [Mark.onJoined]
      exact account.last
    · rw [Mark.onJoined]
      exact account.changes
  · have there : watch.name ∈ r.board.names := by
      rw [watched.coupled.hooked.fits.board]
      exact known
    obtain ⟨first, shown⟩ := Board.findKnown there
    rw [List.mem_singleton.mp new]
    refine ⟨first, first.after [level], level, [], ?_, ?_, ⟨r.world.marks, rfl⟩, by simp, rfl, rfl,
      rfl⟩
    · rw [← watched.rest watch.name apart]
      exact shown
    · rw [found, shown, if_pos rfl]
      rfl

theorem handingWatched (watched : g.Watched names before subs model r)
    (known : watch.name ∈ names) (apart : watch.name ∉ subs.map Subscription.name)
    (id : ListenerId) {α : Type} {act : Act ω α} {next : μ}
    (heeds : g.Heeds (fun ear place => g.Listens model r.world.world ear place ∨
      ear = ⟨r.nextKey⟩ ∧ place = watch.pin) act r.world.world model next) :
    let handed := handing watch.name watch.pin (g.level model r.world.world watch.pin) r
    g.Watched names before (subs ++ [⟨id, watch.pin, watch.name, ⟨r.nextKey⟩⟩]) next
      (ask (act.driven g) handed).2 := by
  intro handed
  obtain ⟨hooked, moved⟩ := Heeds.moves (r := handed) heeds
    (handingHooked watched.coupled known apart _ id)
  have world : (ask (act.driven g) handed).2.world = ⟨(act r.world.world).world, _⟩ := askWorld _ _
  refine ⟨⟨?_, ?_⟩, fun s member => ?_, fun name unsubscribed => ?_⟩
  · rw [world]
    exact heeds.sound
  · rw [world]
    exact hooked
  · exact (handingFollows watched known apart id s member).moved member moved
  · rw [moved.rest name unsubscribed, handingFind watched.coupled known]
    rw [List.map_append, List.mem_append, not_or] at unsubscribed
    rw [if_neg fun same => unsubscribed.2 (List.mem_singleton.mpr same)]
    exact Option.map_id'.trans (watched.rest name unsubscribed.1)

end
end Gauge

namespace Subscription

variable {before : Board} {subs : List Subscription} {model : μ}

theorem attachHanding (cpu : CpuModel ω μ) {watch : Watch} {r s : Rig (Driven ω)}
    (fits : Fits names r) (known : watch.name ∈ names)
    (read : ask ((cpu.level model watch.pin).driven g) r =
      (g.level model s.world.world watch.pin, s)) :
    attach (cpu.driven g) model watch r =
      let handed := Gauge.handing watch.name watch.pin (g.level model s.world.world watch.pin) s
      let listened := ask ((cpu.listen model watch.pin ⟨s.nextKey⟩).driven g) handed
      ((listened.1.1, ⟨listened.1.2, watch.pin, watch.name, ⟨s.nextKey⟩⟩),
        listened.2.write
          (.record .debug ("attached " ++ watch.name ++ " to " ++ watch.pin.text))) := by
  have shown : ask ((cpu.driven g).level model watch.pin) r = _ := read
  rw [attachRun _ _ fits known, shown]
  rfl

theorem attachWatched (faithful : g.Faithful env) {watch : Watch} {r : Rig (Driven ω)}
    (watched : g.Watched names before subs model r) (known : watch.name ∈ names)
    (apart : watch.name ∉ subs.map Subscription.name) :
    g.Watched names before (subs ++ [(attach (env.cpu.driven g) model watch r).1.2])
      (attach (env.cpu.driven g) model watch r).1.1
      (attach (env.cpu.driven g) model watch r).2 := by
  obtain ⟨heeds, value⟩ := faithful.level model watch.pin r.world.world watched.coupled.sound
  have read := watched.reached ((Gauge.Reached.refl watched.coupled).ask heeds)
  have world := askWorld ((env.cpu.level model watch.pin).driven g) r
  generalize ran : ask ((env.cpu.level model watch.pin).driven g) r = out at read world
  obtain ⟨shown, s⟩ := out
  dsimp only at read world
  -- nobody acts between the reading and the handing over, so what was read is still so
  have level : g.level model s.world.world watch.pin = shown := by
    rw [world]
    exact value.symm.trans (congrArg Prod.fst ran)
  rw [← level] at ran
  have listens := faithful.listen model watch.pin ⟨s.nextKey⟩ s.world.world read.coupled.sound
    read.coupled.hooked.fresh
  have handed := fun id => Gauge.handingWatched read known apart id listens
  rw [attachHanding env.cpu watched.coupled.hooked.fits known ran]
  exact (handed _).reached ((Gauge.Reached.refl (handed _).coupled).write _)

theorem attachAllWatched (faithful : g.Faithful env) {watches : List Watch} {r : Rig (Driven ω)}
    (watched : g.Watched names before subs model r) (known : ∀ w ∈ watches, w.name ∈ names)
    (distinct : (subs.map Subscription.name ++ watches.map Watch.name).Nodup) :
    g.Watched names before (subs ++ (attachAll (env.cpu.driven g) model watches r).1.2)
      (attachAll (env.cpu.driven g) model watches r).1.1
      (attachAll (env.cpu.driven g) model watches r).2 := by
  induction watches generalizing subs model r with
  | nil =>
    have ends : attachAll (env.cpu.driven g) model [] r = ((model, []), r) := rfl
    rw [ends, List.append_nil]
    exact watched
  | cons w rest ih =>
    have apart : w.name ∉ subs.map Subscription.name := fun twice =>
      (List.nodup_append.mp distinct).2.2 _ twice _ (List.mem_cons_self ..) rfl
    have first := attachWatched faithful watched (known w (List.mem_cons_self ..)) apart
    have bound := (attached (env.cpu.driven g) model watched.coupled.hooked.fits
      (known w (List.mem_cons_self ..))).bound
    have ends : attachAll (env.cpu.driven g) model (w :: rest) r =
        let out := attach (env.cpu.driven g) model w r
        let others := attachAll (env.cpu.driven g) out.1.1 rest out.2
        ((others.1.1, out.1.2 :: others.1.2), others.2) := rfl
    rw [ends]
    generalize attach (env.cpu.driven g) model w r = out at first bound
    have named : (subs ++ [out.1.2]).map Subscription.name =
        subs.map Subscription.name ++ [w.name] := by
      rw [List.map_append, List.map_singleton, ← bound]
      rfl
    have others := ih first (fun v member => known v (List.mem_cons_of_mem _ member)) (by
      rw [named, List.append_assoc]
      exact distinct)
    rw [List.append_assoc] at others
    exact others

end Subscription

namespace Burst

variable {ω' : Type} {clock : Clock ω} {cpu : CpuModel ω μ}

def path (clock : Clock ω) (cpu : CpuModel ω μ) (started wall : Duration) :
    Nat → μ → Rig ω → List (μ × Rig ω)
  | 0, _, _ => []
  | left + 1, model, r =>
    let read := ask clock r
    if wall ≤ read.1 - started then []
    else
      let stepped := ask (cpu.step model) read.2
      (stepped.1.1, stepped.2) :: match stepped.1.2 with
        | some _ => []
        | none =>
          let ticked := ask (cpu.tick stepped.1.1) stepped.2
          ticked :: path clock cpu started wall left ticked.1 ticked.2

theorem stretchHolds {holds : μ → Rig ω → Prop}
    (time : ∀ {model r}, holds model r → holds model (ask clock r).2)
    (step : ∀ {model r}, holds model r →
      holds (ask (cpu.step model) r).1.1 (ask (cpu.step model) r).2)
    (tick : ∀ {model r}, holds model r →
      holds (ask (cpu.tick model) r).1 (ask (cpu.tick model) r).2)
    (started wall : Duration) (left done : Nat) {model : μ} {r : Rig ω} (begins : holds model r) :
    (∀ p ∈ path clock cpu started wall left model r, holds p.1 p.2) ∧
    holds (stretch clock cpu started wall left done model r).1.1
      (stretch clock cpu started wall left done model r).2 := by
  induction left generalizing done model r with
  | zero => exact ⟨by simp [path], begins⟩
  | succ left ih =>
    have read := time begins
    have stepped := step read
    rw [stretchRound, path]
    dsimp only
    by_cases late : wall ≤ (ask clock r).1 - started
    · simp only [if_pos late]
      exact ⟨by simp, read⟩
    · simp only [if_neg late]
      generalize ask (cpu.step model) (ask clock r).2 = out at stepped
      obtain ⟨⟨after, fault⟩, s⟩ := out
      cases fault with
      | some fault => exact ⟨by simpa using stepped, stepped⟩
      | none =>
        obtain ⟨inside, ends⟩ := ih (done + 1) (tick stepped)
        refine ⟨fun p member => ?_, ends⟩
        rcases List.mem_cons.mp member with rfl | later
        · exact stepped
        · rcases List.mem_cons.mp later with rfl | further
          · exact tick stepped
          · exact inside p further

theorem pathOver {f : ω → ω'} {clock' : Clock ω'} {cpu' : CpuModel ω' μ}
    (time : Act.Over f clock clock') (same : cpu.Over f cpu') (started wall : Duration)
    (left : Nat) (model : μ) (r : Rig ω) : path clock' cpu' started wall left model (r.onto f) =
      (path clock cpu started wall left model r).map fun p => (p.1, p.2.onto f) := by
  induction left generalizing model r with
  | zero => rfl
  | succ left ih =>
    simp only [path, overAsk time r, overAsk (same.step _) _]
    split
    · rfl
    · generalize ask (cpu.step model) (ask clock r).2 = stepped
      obtain ⟨⟨after, fault⟩, s⟩ := stepped
      cases fault with
      | some fault => rfl
      | none => simp only [overAsk (same.tick _) _, ih, List.map_cons]

end Burst

namespace Session

def path (clock : Clock ω) (cpu : CpuModel ω μ) (s : Session μ) (r : Rig ω) : List (μ × Rig ω) :=
  let began := ask clock r
  Burst.path clock cpu began.1 s.scheduler.budget.wallClock s.scheduler.budget.maxSteps.toNat
    s.model began.2

theorem pathOver {ω' : Type} {f : ω → ω'} {env' : Surroundings ω' μ} (same : env.Over f env')
    (s : Session μ) (r : Rig ω) : s.path env'.clock env'.cpu (r.onto f) =
      (s.path env.clock env.cpu r).map fun p => (p.1, p.2.onto f) := by
  simp only [path, overAsk same.clock r, Burst.pathOver same.clock same.cpu]

theorem burstReached (faithful : g.Faithful env) {subs : List Subscription} {s : Session μ}
    {model : μ} {r q : Rig (Driven ω)} (reached : g.Reached names subs model r s.model q) :
    (∀ p ∈ s.path (env.driven g).clock (env.driven g).cpu q,
      g.Reached names subs model r p.1 p.2) ∧
    g.Reached names subs model r (s.burst (env.driven g).clock (env.driven g).cpu q).1.1.model
      (s.burst (env.driven g).clock (env.driven g).cpu q).2 := by
  have time : ∀ {m q}, g.Reached names subs model r m q →
      g.Reached names subs model r m (ask (env.driven g).clock q).2 :=
    fun reached => reached.ask (faithful.clock _ _ reached.coupled.sound)
  have step : ∀ {m q}, g.Reached names subs model r m q →
      g.Reached names subs model r (ask ((env.driven g).cpu.step m) q).1.1
        (ask ((env.driven g).cpu.step m) q).2 :=
    fun reached => reached.ask (faithful.step _ _ reached.coupled.sound)
  have tick : ∀ {m q}, g.Reached names subs model r m q →
      g.Reached names subs model r (ask ((env.driven g).cpu.tick m) q).1
        (ask ((env.driven g).cpu.tick m) q).2 :=
    fun reached => reached.ask (faithful.tick _ _ reached.coupled.sound)
  obtain ⟨inside, ends⟩ := Burst.stretchHolds time step tick (ask (env.driven g).clock q).1
    s.scheduler.budget.wallClock s.scheduler.budget.maxSteps.toNat 0 (time reached)
  rw [burstRun]
  exact ⟨inside, (time ends).write _⟩

end Session
end VirtualBoard
