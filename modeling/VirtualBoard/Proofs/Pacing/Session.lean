import VirtualBoard.Proofs.Pacing.Wiring

/-! A session's model beside the chip it shows.

Each act asked of the model is one of the chip's; acts of others leave its core
and the board alone. So a burst of k completed steps is k beats, wherever the
clock cuts it, and the subscriptions of a session are those of the chip. -/
namespace VirtualBoard
open Rig

variable {ω μ σ α : Type} {chip : Chip σ} {probe : Probe ω μ σ} {env : Surroundings ω μ}
  {names : List String} {keys : List ListenerKey} {m : μ} {r : Rig ω}

namespace Probe

def state (probe : Probe ω μ σ) (m : μ) (r : Rig ω) : σ × List Level :=
  (probe.core m r.world, r.levels)

/- A model whose listeners are the armed ones. -/
structure Tracks (probe : Probe ω μ σ) (names : List String) (keys : List ListenerKey) (m : μ)
    (r : Rig ω) : Prop where
  wired : Wired names keys r
  ears : probe.Hears m r.world keys

theorem askTracks (tracks : probe.Tracks names keys m r) (act : Act ω α) {after : μ}
    (ears : probe.Hears after (act r.world).world keys) :
    probe.Tracks names keys after (ask act r).2 where
  wired := tracks.wired.kept (keepsAsk act r)
  ears := by rw [askWorld]; exact ears

theorem askState (tracks : probe.Tracks names keys m r) (act : Act ω α) (after : μ) :
    probe.state after (ask act r).2 = (probe.core after (act r.world).world,
      hear r.levels (heard keys (act r.world).events)) := by
  rw [state, askWorld, askLevels tracks.wired]

def Unmoved (probe : Probe ω μ σ) (names : List String) (keys : List ListenerKey) (m : μ)
    (r s : Rig ω) : Prop :=
  probe.Tracks names keys m r → probe.Tracks names keys m s ∧ probe.state m s = probe.state m r

theorem unmovedWay : Way (probe.Unmoved names keys m) where
  refl _ tracks := ⟨tracks, rfl⟩
  trans early late tracks := by
    obtain ⟨between, same⟩ := early tracks
    obtain ⟨last, still⟩ := late between
    exact ⟨last, still.trans same⟩
  write entry r tracks := ⟨⟨tracks.wired.kept (writeKeeps entry r), tracks.ears⟩, rfl⟩

theorem sparedUnmoved {act : Act ω α} (spared : probe.Spares m act r.world) :
    probe.Unmoved names keys m r (ask act r).2 := by
  intro tracks
  obtain ⟨core, left⟩ := spared
  obtain ⟨ears, quiet⟩ := left keys tracks.ears
  refine ⟨askTracks tracks act ears, ?_⟩
  rw [askState tracks, core, quiet]
  rfl

end Probe

namespace Chip

theorem stepShown (steady : chip.Steady probe env) (tracks : probe.Tracks names keys m r) :
    let stepped := ask (env.cpu.step m) r
    probe.Tracks names keys stepped.1.1 stepped.2 ∧
    stepped.1.2 = (chip.step (probe.core m r.world)).2.1 ∧
    probe.state stepped.1.1 stepped.2 = ((chip.step (probe.core m r.world)).1,
      hear r.levels (chip.step (probe.core m r.world)).2.2) := by
  obtain ⟨core, fault, made⟩ := steady.step m r.world
  obtain ⟨ears, calls⟩ := made keys tracks.ears
  refine ⟨Probe.askTracks tracks _ ears, fault, ?_⟩
  refine (Probe.askState tracks _ _).trans ?_
  rw [calls]
  exact congrArg (·, _) core

theorem tickShown (steady : chip.Steady probe env) (tracks : probe.Tracks names keys m r) :
    let ticked := ask (env.cpu.tick m) r
    probe.Tracks names keys ticked.1 ticked.2 ∧
    probe.state ticked.1 ticked.2 = ((chip.tick (probe.core m r.world)).1,
      hear r.levels (chip.tick (probe.core m r.world)).2) := by
  obtain ⟨core, made⟩ := steady.tick m r.world
  obtain ⟨ears, calls⟩ := made keys tracks.ears
  refine ⟨Probe.askTracks tracks _ ears, ?_⟩
  refine (Probe.askState tracks _ _).trans ?_
  rw [calls]
  exact congrArg (·, _) core

theorem faultShown (steady : chip.Steady probe env) (tracks : probe.Tracks names keys m r)
    {fault : CpuFault} (faulted : (ask (env.cpu.step m) r).1.2 = some fault) :
    chip.beat (probe.state m r) = .error fault := by
  obtain ⟨-, shown, -⟩ := stepShown steady tracks
  rw [shown] at faulted
  unfold beat Probe.state
  generalize chip.step (probe.core m r.world) = out at faulted
  obtain ⟨core, result, calls⟩ := out
  cases faulted
  rfl

theorem beatShown (steady : chip.Steady probe env) (tracks : probe.Tracks names keys m r)
    (fine : (ask (env.cpu.step m) r).1.2 = none) :
    let stepped := ask (env.cpu.step m) r
    let ticked := ask (env.cpu.tick stepped.1.1) stepped.2
    probe.Tracks names keys ticked.1 ticked.2 ∧
    chip.beat (probe.state m r) = .ok (probe.state ticked.1 ticked.2) := by
  intro stepped ticked
  obtain ⟨between, shown, state⟩ := stepShown steady tracks
  obtain ⟨last, late⟩ := tickShown steady between
  refine ⟨last, ?_⟩
  rw [shown] at fine
  obtain ⟨core, levels⟩ := Prod.mk.inj state
  rw [core, levels] at late
  rw [late]
  unfold beat Probe.state
  generalize chip.step (probe.core m r.world) = out at fine
  obtain ⟨core, fault, calls⟩ := out
  cases fine
  rfl

def Ran (chip : Chip σ) (probe : Probe ω μ σ) (names : List String) (keys : List ListenerKey)
    (start : σ × List Level) (k : Nat) (exit : Burst.Exit) (m : μ) (r : Rig ω) : Prop :=
  match exit.fault? with
  | some fault => (∃ s, chip.after k start = .ok s) ∧ chip.after (k + 1) start = .error fault
  | none => probe.Tracks names keys m r ∧ chip.after k start = .ok (probe.state m r)

theorem Ran.later {s t : σ × List Level} {k : Nat} {exit : Burst.Exit}
    (beaten : chip.beat s = .ok t) (ran : Ran chip probe names keys t k exit m r) :
    Ran chip probe names keys s (k + 1) exit m r := by
  have further : ∀ n, chip.after (n + 1) s = chip.after n t := by
    intro n
    simp only [after, beaten]
  unfold Ran at ran ⊢
  cases found : exit.fault? with
  | some fault =>
    rw [found] at ran
    simpa only [further] using ran
  | none =>
    rw [found] at ran
    simpa only [further] using ran

theorem Ran.unmoved {start : σ × List Level} {k : Nat} {exit : Burst.Exit} {s : Rig ω}
    (ran : Ran chip probe names keys start k exit m r) (still : probe.Unmoved names keys m r s) :
    Ran chip probe names keys start k exit m s := by
  unfold Ran at ran ⊢
  cases found : exit.fault? with
  | some fault =>
    rw [found] at ran
    exact ran
  | none =>
    rw [found] at ran
    obtain ⟨tracks, same⟩ := still ran.1
    exact ⟨tracks, by rw [same]; exact ran.2⟩

theorem stretchRan (steady : chip.Steady probe env) (started wall : Duration) (left done : Nat)
    (tracks : probe.Tracks names keys m r) :
    let out := Burst.stretch env.clock env.cpu started wall left done m r
    ∃ k, out.1.2.1 = done + k ∧
      Ran chip probe names keys (probe.state m r) k out.1.2.2 out.1.1 out.2 := by
  induction left generalizing done m r with
  | zero => exact ⟨0, rfl, tracks, rfl⟩
  | succ left ih =>
    obtain ⟨tracks, same⟩ := Probe.sparedUnmoved (steady.clock m r.world) tracks
    rw [Burst.stretchRound]
    generalize ask env.clock r = read at tracks same
    obtain ⟨now, r⟩ := read
    dsimp only at tracks same ⊢
    split
    · exact ⟨0, rfl, tracks, congrArg Except.ok same.symm⟩
    · cases result : (ask (env.cpu.step m) r).1.2 with
      | some fault =>
        have beaten := faultShown steady tracks result
        refine ⟨0, rfl, ⟨_, rfl⟩, ?_⟩
        rw [← same]
        simp only [after, beaten]
      | none =>
        obtain ⟨ticked, beaten⟩ := beatShown steady tracks result
        obtain ⟨k, count, ran⟩ := ih (done + 1) ticked
        rw [same] at beaten
        refine ⟨k + 1, by rw [count]; omega, ran.later beaten⟩

theorem burstRan (steady : chip.Steady probe env) (s : Session μ)
    (tracks : probe.Tracks names keys s.model r) :
    let out := s.burst env.clock env.cpu r
    ∃ k, out.1.1.counters.cycles = s.counters.cycles + k ∧
      Ran chip probe names keys (probe.state s.model r) k out.1.2.exit out.1.1.model out.2 := by
  obtain ⟨began, same⟩ := Probe.sparedUnmoved (steady.clock s.model r.world) tracks
  obtain ⟨k, count, ran⟩ := stretchRan steady (ask env.clock r).1 s.scheduler.budget.wallClock
    s.scheduler.budget.maxSteps.toNat 0 began
  rw [same] at ran
  refine ⟨k, by rw [Session.burstRun]; exact congrArg _ (count.trans (Nat.zero_add k)), ?_⟩
  rw [Session.burstRun]
  exact ran.unmoved (Probe.unmovedWay.trans (Probe.sparedUnmoved (steady.clock _ _))
    (Probe.unmovedWay.write _ _))

theorem attachTracks (steady : chip.Steady probe env) (tracks : probe.Tracks names keys m r)
    {w : Watch} (next : names[keys.length]? = some w.name) :
    let out := Subscription.attach env.cpu m w r
    probe.Tracks names (keys ++ [out.1.2.key]) out.1.1 out.2 := by
  have known := List.mem_of_getElem? next
  have read := Probe.askTracks tracks (env.cpu.level m w.pin)
    (steady.level m w.pin r.world keys tracks.ears)
  rw [Subscription.attachRun env.cpu m tracks.wired.fits known]
  generalize ask (env.cpu.level m w.pin) r = out at read
  obtain ⟨level, s⟩ := out
  have armed := armWired (publishWired read.wired known level) next
  refine ⟨armed.kept ((keepsAsk _ _).trans (writeKeeps _ _)), ?_⟩
  show probe.Hears _
    (ask (env.cpu.listen m w.pin _) (arm w.name (publish w.name level s).2).2).2.world _
  rw [askWorld]
  exact steady.listen m w.pin ⟨s.nextKey⟩ s.world keys read.wired.unheard read.ears

theorem attachState (repeats : chip.Repeats probe env)
    (tracks : probe.Tracks names keys m r) {w : Watch} (next : names[keys.length]? = some w.name) :
    let out := Subscription.attach env.cpu m w r
    probe.state out.1.1 out.2 = ((chip.listen (probe.core m r.world) w.pin).1,
      hear (r.levels.set keys.length (chip.level (probe.core m r.world) w.pin))
        (chip.listen (probe.core m r.world) w.pin).2) := by
  have known := List.mem_of_getElem? next
  obtain ⟨shown, spared⟩ := repeats.level m w.pin r.world
  obtain ⟨read, same⟩ := Probe.sparedUnmoved spared tracks
  obtain ⟨core, levels⟩ := Prod.mk.inj same
  rw [Subscription.attachRun env.cpu m tracks.wired.fits known]
  replace shown : (ask (env.cpu.level m w.pin) r).1 = chip.level (probe.core m r.world) w.pin :=
    shown
  generalize ask (env.cpu.level m w.pin) r = out at read core levels shown
  obtain ⟨level, s⟩ := out
  dsimp only at read core levels shown
  have armed := armWired (publishWired read.wired known level) next
  have published : (publish w.name level s).2.levels = s.levels.set keys.length level :=
    publishLevels read.wired.fits read.wired.distinct level next
  obtain ⟨after, made⟩ := repeats.listen m w.pin ⟨s.nextKey⟩ s.world
  have calls := made keys read.wired.unheard read.ears
  refine Prod.ext ?_ ?_
  · refine (congrArg (probe.core _) (askWorld _ _)).trans (after.trans ?_)
    rw [core]
  · refine (askLevels armed _).trans ?_
    rw [← shown, ← levels, ← core, ← calls]
    exact congrArg (hear · _) published

theorem attachAllTracks (steady : chip.Steady probe env) (watches : List Watch)
    (tracks : probe.Tracks names keys m r)
    (rest : names.drop keys.length = watches.map Watch.name) :
    let out := Subscription.attachAll env.cpu m watches r
    probe.Tracks names (keys ++ out.1.2.map Subscription.key) out.1.1 out.2 := by
  induction watches generalizing keys m r with
  | nil => simpa [Subscription.attachAll, pureRun] using tracks
  | cons w later ih =>
    have next : names[keys.length]? = some w.name := by
      rw [← List.head?_drop, rest]
      rfl
    have first := attachTracks steady tracks next
    have others := ih first (by
      rw [List.length_append, ← List.drop_drop, rest]
      rfl)
    dsimp only at others
    rw [List.append_assoc] at others
    exact others

theorem levelsLength (tracks : probe.Tracks names keys m r) : r.levels.length = names.length := by
  have board := congrArg List.length tracks.wired.fits.board
  simpa only [levels, Board.names, List.length_map] using board

theorem attachAllState (steady : chip.Steady probe env) (repeats : chip.Repeats probe env)
    (watches : List Watch) (tracks : probe.Tracks names keys m r)
    (rest : names.drop keys.length = watches.map Watch.name) {shown stale : List Level}
    (levels : r.levels = shown ++ stale) (placed : shown.length = keys.length) :
    let out := Subscription.attachAll env.cpu m watches r
    let chip := chip.subscribe watches (probe.core m r.world, shown)
    probe.state out.1.1 out.2 = (chip.1, chip.2 ++ stale.drop watches.length) := by
  induction watches generalizing keys m r shown stale with
  | nil => exact Prod.ext rfl levels
  | cons w later ih =>
    have next : names[keys.length]? = some w.name := by
      rw [← List.head?_drop, rest]
      rfl
    have inside : ∀ call ∈ (chip.listen (probe.core m r.world) w.pin).2,
        call.1 < keys.length + 1 := by
      obtain ⟨-, made⟩ := repeats.listen m w.pin ⟨r.nextKey⟩ r.world
      rw [← made keys tracks.wired.unheard tracks.ears]
      intro call member
      have bound := heardInside call member
      rwa [List.length_append] at bound
    obtain ⟨old, more, rfl⟩ : ∃ old more, stale = old :: more := by
      have total := levelsLength tracks
      obtain ⟨short, -⟩ := List.getElem?_eq_some_iff.mp next
      rw [levels, List.length_append, placed] at total
      exact List.exists_cons_of_length_pos (by omega)
    obtain ⟨core, heardNow⟩ := Prod.mk.inj (attachState repeats tracks next)
    have first := attachTracks steady tracks next
    have placedNext : (shown ++ [chip.level (probe.core m r.world) w.pin]).length =
        keys.length + 1 := by rw [List.length_append, placed]; rfl
    have split : (Subscription.attach env.cpu m w r).2.levels =
        hear (shown ++ [chip.level (probe.core m r.world) w.pin])
          (chip.listen (probe.core m r.world) w.pin).2 ++ more := by
      refine heardNow.trans ?_
      rw [levels, ← placed, List.set_append_right _ _ (Nat.le_refl _), Nat.sub_self,
        List.set_cons_zero, List.append_cons]
      exact hearLeft (by rw [placedNext]; exact inside)
    have others := ih first
      (by rw [List.length_append, ← List.drop_drop, rest]; rfl) split
      (by rw [hearLength, placedNext, List.length_append]; rfl)
    rw [core] at others
    exact others

end Chip
end VirtualBoard
