import VirtualBoard.Proofs.Controller.Ledger

/-! What holds of a controller after any run.

The settings are usable ones and the surroundings arbitrary; the commands come in
any order, with what else happens outside between them. -/
namespace VirtualBoard
namespace Controller
open Rig

variable {ω μ : Type}

theorem tokensLast {n : Nat} (drawn : 0 < n) : (tokensAfter 0 n).getLast? = some ⟨n⟩ := by
  obtain ⟨m, rfl⟩ := Nat.exists_eq_succ_of_ne_zero (Nat.ne_of_gt drawn)
  rw [tokensAfter, List.range'_concat, List.map_append, List.map_singleton, List.getLast?_concat]
  congr 2
  omega

theorem tokensBound {issued n : Nat} {token : BurstToken} (member : token ∈ tokensAfter issued n) :
    token.raw ≤ issued + n := by
  obtain ⟨raw, inside, rfl⟩ := List.mem_map.mp member
  have upper := (List.mem_range'_1.mp inside).2
  show raw ≤ issued + n
  omega

theorem clearedLow {b : Board} (cleared : b = b.clear) :
    ∀ s ∈ b.signals, s.level = .low ∧ s.changes = 0 := by
  intro s member
  rw [cleared] at member
  obtain ⟨name, -, rfl⟩ := List.mem_map.mp member
  exact ⟨rfl, rfl⟩

theorem newUsable {settings : Settings} (usable : settings.problem? = none) (world : ω) :
    ∃ fresh : Controller ω μ, new settings world = .ok fresh := by
  unfold new
  rw [usable]
  exact ⟨_, rfl⟩

theorem newRequests {settings : Settings} {world : ω} {fresh : Controller ω μ}
    (made : new settings world = .ok fresh) (env : Surroundings ω μ)
    (commands : List (Command ω)) : requests (fresh.history env commands) =
      tokensAfter 0 (fresh.run env commands).2.tokens.issued := by
  obtain ⟨orderly, none, -⟩ := newOrderly made
  obtain ⟨n, issued, asked⟩ := historyRequests orderly env commands
  rw [none] at issued asked
  rw [asked, issued, Nat.zero_add]

end Controller

/- A model that blinks: its pins show whether its count of steps is odd, and its first
listener hears of it. The fourth step faults. A step takes a given time by the clock. -/
structure Blink where
  count : Nat
  ear : Option ListenerKey

namespace Blink

def level (count : Nat) : Level := if count % 2 = 1 then .high else .low

def cpu (cost : Duration) : CpuModel Duration Blink where
  step m := fun now =>
    if m.count = 3 then ⟨(m, some ⟨.other, "out of steps"⟩), now, []⟩
    else ⟨({m with count := m.count + 1}, none), now + cost,
      m.ear.toList.map (.called · (level (m.count + 1)))⟩
  tick m := pure m
  listen m _ key := pure ({m with ear := m.ear.or (some key)}, ⟨0⟩)
  unlisten m _ := pure (m, true)
  level m _ := pure (level m.count)
  discard _ := pure ()

def surroundings (cost : Duration) : Surroundings Duration Blink where
  clock := fun now => ⟨now, now, []⟩
  cpu := cpu cost
  construct _ := pure (.ok ⟨0, none⟩)
  host := ⟨fun _ => pure (), fun _ => pure ()⟩

/- Bursts of at most so many steps. -/
def settings (steps : UInt32) : Settings :=
  {Settings.standard with budget := ⟨.ofMillis 16, steps⟩}

def begin : Command Duration :=
  .startWith "" fun _ => pure (.ok ⟨some ":020000000102FB\n:00000001FF", none⟩)

end Blink

namespace Controller

/- What a frame answers is what was done: nothing but a log record for any token but
the one that is waited under, and for that one a burst with its outcome. -/
theorem frameAnswers (env : Surroundings ω μ) {settings : Settings}
    (usable : settings.problem? = none) (world : ω) :
    ∃ fresh : Controller ω μ, new settings world = .ok fresh ∧ ∀ commands token,
      let c := (fresh.run env commands).2
      let after := (c.frame env token).2
      let answer := (c.frame env token).1
      let calls := c.calls env (.frame token)
      (c.queued? ≠ some token →
        answer = .cancelled ∧ calls = [] ∧
          ∃ severity text, after = c.record severity text) ∧
      (c.queued? = some token →
        (∃ next session latest, answer = .next next ∧
          (∀ old ∈ requests (fresh.history env commands), old.raw < next.raw) ∧
          c.tokens.issued < next.raw ∧ after.tokens.issued = next.raw ∧
          requests calls = [next] ∧ faults calls = [] ∧
          after.phase = .running session latest ∧ after.queued? = some next) ∨
        (∃ fault tally, answer = .faulted (.cpu fault) ∧
          requests calls = [] ∧ faults calls = [fault] ∧
          after.phase = .failed (.cpu fault) tally)) := by
  obtain ⟨fresh, made⟩ := newUsable (μ := μ) usable world
  refine ⟨fresh, made, fun commands token => ?_⟩
  have orderly := runOrderly (newOrderly made).1 env commands
  have asked := newRequests made env commands
  generalize (fresh.run env commands).2 = c at orderly asked
  refine ⟨fun stale => ?_, fun waited => ?_⟩
  · obtain ⟨severity, text, after⟩ := frameStale env c stale
    obtain ⟨severity', text', noted⟩ := frameStale env.noted c.withNotes stale
    have none : c.calls env (.frame token) = [] := by
      show (c.withNotes.frame env.noted token).2.rig.world.calls = []
      rw [noted]
      rfl
    rw [after]
    exact ⟨rfl, none, severity, text, rfl⟩
  · have still := (frameOrderly orderly env token).holds
    rcases frameCalls orderly env waited with
      ⟨session, latest, answer, phase, tokens, requested, quiet⟩ |
      ⟨fault, tally, answer, phase, -, requested, faulty⟩
    · rw [phase, tokens] at still
      have waits : (c.frame env token).2.queued? = some ⟨c.tokens.issued + 1⟩ :=
        (queuedBy phase).trans still.pending
      have earlier : ∀ old ∈ requests (fresh.history env commands),
          old.raw < c.tokens.issued + 1 := by
        rw [asked]
        intro old member
        have bound := tokensBound member
        omega
      exact .inl ⟨_, session, latest, answer, earlier, Nat.lt_succ_self _, by rw [tokens],
        requested, quiet, phase, waits⟩
    · exact .inr ⟨fault, tally, answer, requested, faulty, phase⟩

theorem blinkAnswers : ∃ fresh : Controller Duration Blink,
    new (Blink.settings 2) .zero = .ok fresh ∧
      let env := Blink.surroundings (.ofMillis 1)
      let c := (fresh.run env [Blink.begin, .frame ⟨1⟩]).2
      (c.frame env ⟨1⟩).1 = .cancelled ∧ c.calls env (.frame ⟨1⟩) = [] ∧
      (c.frame env ⟨2⟩).1 = .faulted (.cpu ⟨.other, "out of steps"⟩) ∧
      requests (c.calls env (.frame ⟨2⟩)) = [] ∧
      faults (c.calls env (.frame ⟨2⟩)) = [⟨.other, "out of steps"⟩] := by
  let env := Blink.surroundings (.ofMillis 1)
  obtain ⟨fresh, made, all⟩ := frameAnswers env
    (show (Blink.settings 2).problem? = none by decide) .zero
  have known : (new (Blink.settings 2) .zero).toOption.map (fun fresh : Controller Duration Blink =>
      let c := (fresh.run env [Blink.begin, .frame ⟨1⟩]).2
      (c.queued?, (c.frame env ⟨2⟩).1)) =
        some (some ⟨2⟩, .faulted (.cpu ⟨.other, "out of steps"⟩)) := by decide +kernel
  rw [made] at known
  obtain ⟨waits, answer⟩ := Prod.mk.inj (Option.some.inj known)
  obtain ⟨stale, -⟩ := all [Blink.begin, .frame ⟨1⟩] ⟨1⟩
  obtain ⟨-, live⟩ := all [Blink.begin, .frame ⟨1⟩] ⟨2⟩
  obtain ⟨refused, none, -⟩ := stale fun queued => by
    have other := waits.symm.trans queued
    cases other
  refine ⟨fresh, made, refused, none, answer, ?_⟩
  rcases live waits with ⟨next, _, _, went, -⟩ | ⟨fault, _, went, requested, faulty, -⟩
  · cases answer.symm.trans went
  · cases answer.symm.trans went
    exact ⟨requested, faulty⟩

end Controller
end VirtualBoard
