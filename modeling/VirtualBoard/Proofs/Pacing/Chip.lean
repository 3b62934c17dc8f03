import VirtualBoard.Surroundings

/-! A chip by itself, without clock, bursts or controller.

A chip has a core that steps and ticks, reads its pins and calls its listeners,
which it knows by the order of their registration. Beside the core stand the
levels its listeners were last called with. A beat is a step and the tick after
it; `after n` are n beats. `Steady` says that a CPU model in its surroundings
shows such a core, whatever else its world holds, and `Repeats` that its
construction and its subscriptions are the chip's too. -/
namespace VirtualBoard

/- Listeners are called by their places, each with a level. -/
structure Chip (σ : Type) where
  boot : Image → σ
  step : σ → σ × Option CpuFault × List (Nat × Level)
  tick : σ → σ × List (Nat × Level)
  listen : σ → Pin → σ × List (Nat × Level)
  level : σ → Pin → Level

def hear (levels : List Level) (calls : List (Nat × Level)) : List Level :=
  calls.foldl (fun levels call => levels.set call.1 call.2) levels

theorem hearLength (levels : List Level) (calls : List (Nat × Level)) :
    (hear levels calls).length = levels.length := by
  induction calls generalizing levels with
  | nil => rfl
  | cons call rest ih => exact (ih _).trans List.length_set

theorem hearAppend (levels : List Level) (early late : List (Nat × Level)) :
    hear levels (early ++ late) = hear (hear levels early) late := List.foldl_append

theorem hearLeft {levels rest : List Level} {calls : List (Nat × Level)}
    (inside : ∀ call ∈ calls, call.1 < levels.length) :
    hear (levels ++ rest) calls = hear levels calls ++ rest := by
  induction calls generalizing levels with
  | nil => rfl
  | cons call later ih =>
    have here := inside call (by simp)
    have there : ∀ c ∈ later, c.1 < (levels.set call.1 call.2).length := by
      rw [List.length_set]
      exact fun c member => inside c (List.mem_cons_of_mem _ member)
    show hear ((levels ++ rest).set call.1 call.2) later = _
    rw [List.set_append_left _ _ here]
    exact ih there

def heard (ears : List ListenerKey) (events : List Event) : List (Nat × Level) :=
  events.filterMap fun event =>
    match event with
    | .called key level => (ears.idxOf? key).map (·, level)
    | .logged _ => none

theorem heardInside {ears : List ListenerKey} {events : List Event} :
    ∀ call ∈ heard ears events, call.1 < ears.length := by
  intro call member
  obtain ⟨event, -, shown⟩ := List.mem_filterMap.mp member
  cases event with
  | logged entry => cases shown
  | called key level =>
    obtain ⟨place, found, rfl⟩ := Option.map_eq_some_iff.mp shown
    obtain ⟨inside, -⟩ := List.findIdx?_eq_some_iff_getElem.mp found
    exact inside

structure Probe (ω μ σ : Type) where
  core : μ → ω → σ
  Hears : μ → ω → List ListenerKey → Prop

namespace Chip

variable {σ : Type} (chip : Chip σ)

def beat (s : σ × List Level) : Except CpuFault (σ × List Level) :=
  match chip.step s.1 with
  | (_, some fault, _) => .error fault
  | (core, none, calls) =>
    .ok ((chip.tick core).1, hear (hear s.2 calls) (chip.tick core).2)

def after : Nat → σ × List Level → Except CpuFault (σ × List Level)
  | 0, s => .ok s
  | n + 1, s =>
    match chip.beat s with
    | .error fault => .error fault
    | .ok next => after n next

def subscribe : List Watch → σ × List Level → σ × List Level
  | [], s => s
  | w :: rest, s =>
    subscribe rest ((chip.listen s.1 w.pin).1,
      hear (s.2 ++ [chip.level s.1 w.pin]) (chip.listen s.1 w.pin).2)

variable {chip}

theorem afterAdd {m n : Nat} {s t : σ × List Level} (early : chip.after m s = .ok t) :
    chip.after (m + n) s = chip.after n t := by
  induction m generalizing s with
  | zero =>
    cases early
    rw [Nat.zero_add]
  | succ m ih =>
    rw [Nat.succ_add]
    simp only [after] at early ⊢
    cases beaten : chip.beat s with
    | error fault =>
      rw [beaten] at early
      cases early
    | ok next =>
      rw [beaten] at early
      exact ih early

theorem afterFault {m n : Nat} {s : σ × List Level} {fault : CpuFault}
    (faulted : chip.after m s = .error fault) (later : m ≤ n) :
    chip.after n s = .error fault := by
  induction m generalizing n s with
  | zero => cases faulted
  | succ m ih =>
    obtain ⟨k, rfl⟩ := Nat.exists_eq_add_of_le later
    rw [Nat.succ_add]
    simp only [after] at faulted ⊢
    cases beaten : chip.beat s with
    | error fault' =>
      rw [beaten] at faulted
      exact faulted
    | ok next =>
      rw [beaten] at faulted
      exact ih faulted (Nat.le_add_right m k)

theorem faultBound {m n : Nat} {s t : σ × List Level} {fault : CpuFault}
    (faulted : chip.after (m + 1) s = .error fault) (running : chip.after n s = .ok t) :
    n ≤ m := by
  refine Nat.le_of_not_lt fun beyond => ?_
  rw [afterFault faulted beyond] at running
  cases running

theorem faultOnce {m n : Nat} {s t u : σ × List Level} {fault fault' : CpuFault}
    (early : chip.after m s = .ok t) (faulted : chip.after (m + 1) s = .error fault)
    (early' : chip.after n s = .ok u) (faulted' : chip.after (n + 1) s = .error fault') :
    m = n ∧ fault = fault' := by
  have one := faultBound faulted early'
  have two := faultBound faulted' early
  have same : m = n := Nat.le_antisymm two one
  subst same
  rw [faulted] at faulted'
  exact ⟨rfl, Except.error.inj faulted'⟩

end Chip

def Probe.Spares {ω μ σ α : Type} (probe : Probe ω μ σ) (m : μ) (act : Act ω α) (w : ω) : Prop :=
  probe.core m (act w).world = probe.core m w ∧
  ∀ ears, probe.Hears m w ears → probe.Hears m (act w).world ears ∧ heard ears (act w).events = []

/- A CPU model whose steps and ticks are those of a chip, in surroundings that leave
its core to it. What the clock shows, and what steps do to it, is left open. -/
structure Chip.Steady {ω μ σ : Type} (chip : Chip σ) (probe : Probe ω μ σ)
    (env : Surroundings ω μ) : Prop where
  step : ∀ m w, let out := env.cpu.step m w
    probe.core out.value.1 out.world = (chip.step (probe.core m w)).1 ∧
    out.value.2 = (chip.step (probe.core m w)).2.1 ∧
    ∀ ears, probe.Hears m w ears → probe.Hears out.value.1 out.world ears ∧
      heard ears out.events = (chip.step (probe.core m w)).2.2
  tick : ∀ m w, let out := env.cpu.tick m w
    probe.core out.value out.world = (chip.tick (probe.core m w)).1 ∧
    ∀ ears, probe.Hears m w ears → probe.Hears out.value out.world ears ∧
      heard ears out.events = (chip.tick (probe.core m w)).2
  construct : ∀ image w m, (env.construct image w).value = .ok m →
    probe.Hears m (env.construct image w).world []
  listen : ∀ m pin key w ears, key ∉ ears → probe.Hears m w ears →
    let out := env.cpu.listen m pin key w
    probe.Hears out.value.1 out.world (ears ++ [key])
  level : ∀ m pin w ears, probe.Hears m w ears → probe.Hears m (env.cpu.level m pin w).world ears
  clock : ∀ m w, probe.Spares m env.clock w
  request : ∀ m token w, probe.Spares m (env.host.request token) w

/- And its construction, its subscriptions and its pins are the chip's as well. -/
structure Chip.Repeats {ω μ σ : Type} (chip : Chip σ) (probe : Probe ω μ σ)
    (env : Surroundings ω μ) : Prop where
  construct : ∀ image w m, (env.construct image w).value = .ok m →
    probe.core m (env.construct image w).world = chip.boot image
  listen : ∀ m pin key w, let out := env.cpu.listen m pin key w
    probe.core out.value.1 out.world = (chip.listen (probe.core m w) pin).1 ∧
    ∀ ears, key ∉ ears → probe.Hears m w ears →
      heard (ears ++ [key]) out.events = (chip.listen (probe.core m w) pin).2
  level : ∀ m pin w, (env.cpu.level m pin w).value = chip.level (probe.core m w) pin ∧
    probe.Spares m (env.cpu.level m pin) w

end VirtualBoard
