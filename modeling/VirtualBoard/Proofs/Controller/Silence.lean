import VirtualBoard.Proofs.Controller.Runs

/-! Listeners of closed sessions.

A CPU model may keep every listener it was ever given and call it at any time. A
call of one that no live session holds does nothing: a run goes the same way, to
the last entry of its log, if all such calls are left out of it. This needs no
care of the model for what it is told, since a listener has a key of its own that
is never handed out again. -/
namespace VirtualBoard

variable {ω μ α : Type} {keys : List ListenerKey}

/-! Surroundings in which some listeners are never called. -/

def Event.calls (keys : List ListenerKey) : Event → Bool
  | called key _ => decide (key ∈ keys)
  | logged _ => false

def Act.without (keys : List ListenerKey) (act : Act ω α) : Act ω α := fun world =>
  ⟨(act world).value, (act world).world, (act world).events.filter fun event => !event.calls keys⟩

def Surroundings.without (keys : List ListenerKey) (env : Surroundings ω μ) :
    Surroundings ω μ where
  clock := Act.without keys env.clock
  cpu := {
    step := fun model => (env.cpu.step model).without keys
    tick := fun model => (env.cpu.tick model).without keys
    listen := fun model pin key => (env.cpu.listen model pin key).without keys
    unlisten := fun model id => (env.cpu.unlisten model id).without keys
    level := fun model pin => (env.cpu.level model pin).without keys
    discard := fun model => (env.cpu.discard model).without keys }
  construct image := (env.construct image).without keys
  host := ⟨fun token => (env.host.request token).without keys,
    fun token => (env.host.cancel token).without keys⟩

def Command.without (keys : List ListenerKey) : Command ω → Command ω
  | .startWith source compiler => .startWith source fun request => (compiler request).without keys
  | .outside act => .outside (act.without keys)
  | command => command

namespace Rig

structure Deaf (keys : List ListenerKey) (r : Rig ω) : Prop where
  unarmed : ∀ a ∈ r.armed, a.key ∉ keys
  given : ∀ key ∈ keys, key.raw < r.nextKey

variable {r s : Rig ω}

theorem Deaf.kept (deaf : Deaf keys r) (kept : Keeps r s) : Deaf keys s where
  unarmed := by rw [kept.armed]; exact deaf.unarmed
  given := by rw [kept.nextKey]; exact deaf.given

theorem Deaf.call (deaf : Deaf keys r) {key : ListenerKey} (member : key ∈ keys) (level : Level) :
    r.call key level = r := by
  have none : r.name? key = none := by
    cases found : r.name? key with
    | none => rfl
    | some name =>
      obtain ⟨a, armed, rfl, -⟩ := nameMember found
      exact absurd member (deaf.unarmed a armed)
  rw [Rig.call, none]

theorem Deaf.takeAll (deaf : Deaf keys r) (events : List Event) :
    (events.filter fun event => !event.calls keys).foldl take r = events.foldl take r := by
  induction events generalizing r with
  | nil => rfl
  | cons event rest ih =>
    have others := ih (deaf.kept (takeKeeps r event))
    cases event with
    | logged entry => exact others
    | called key level =>
      by_cases member : key ∈ keys
      · have same : r.take (.called key level) = r := deaf.call member level
        rw [same] at others
        rw [List.filter_cons_of_neg (by simp [Event.calls, member]), List.foldl_cons, same]
        exact others
      · rw [List.filter_cons_of_pos (by simp [Event.calls, member])]
        exact others

def Unheard (keys : List ListenerKey) (r s : Rig ω) : Prop := s = r ∧ Deaf keys r

theorem askUnheard (act : Act ω α) :
    Matched (Unheard keys) (ask act) (ask (act.without keys)) := by
  rintro _ r ⟨rfl, deaf⟩
  have moved : Deaf keys {r with world := (act r.world).world} := ⟨deaf.unarmed, deaf.given⟩
  exact ⟨rfl, moved.takeAll _, deaf.kept (keepsAsk act r)⟩

theorem unheardLikeness : StepLikeness (Unheard (ω := ω) keys) where
  record := by rintro _ _ _ r ⟨rfl, deaf⟩; exact ⟨rfl, rfl, deaf.unarmed, deaf.given⟩
  declare := by rintro _ _ r ⟨rfl, deaf⟩; exact ⟨rfl, rfl, deaf.unarmed, deaf.given⟩
  publish := by rintro _ _ _ r ⟨rfl, deaf⟩; exact ⟨rfl, rfl, deaf.unarmed, deaf.given⟩
  arm := by
    rintro name _ r ⟨rfl, deaf⟩
    refine ⟨rfl, rfl, fun a member => ?_, fun key old => Nat.lt_succ_of_lt (deaf.given key old)⟩
    rcases List.mem_cons.mp member with rfl | old
    · exact fun mine => Nat.lt_irrefl _ (deaf.given _ mine)
    · exact deaf.unarmed a old
  disarm := by
    rintro _ _ r ⟨rfl, deaf⟩
    exact ⟨rfl, rfl, fun a member => deaf.unarmed a (List.mem_filter.mp member).1, deaf.given⟩
  clear := by rintro _ r ⟨rfl, deaf⟩; exact ⟨rfl, rfl, deaf.unarmed, deaf.given⟩

end Rig
open Rig

theorem Surroundings.unheard (env : Surroundings ω μ) (keys : List ListenerKey) :
    env.Matched (Unheard keys) (env.without keys) where
  likeness := unheardLikeness.toLikeness
  clock := askUnheard _
  cpu := ⟨fun _ => askUnheard _, fun _ => askUnheard _,
    fun _ _ => Subscription.attachMatched unheardLikeness (askUnheard _) fun _ => askUnheard _,
    fun _ _ => askUnheard _, fun _ => askUnheard _⟩
  construct _ := askUnheard _
  request _ := askUnheard _
  cancel _ := askUnheard _

theorem Command.unheard (command : Command ω) (keys : List ListenerKey) :
    command.Matched (Unheard keys) (command.without keys) := by
  cases command with
  | start source => exact .start source
  | complete ticket outcome => exact .complete ticket outcome
  | startWith source compiler => exact .startWith source fun request => askUnheard _
  | stop => exact .stop
  | reset => exact .reset
  | frame token => exact .frame token
  | outside act => exact .outside (askUnheard act)

/-! The listeners handed out in a run: one key after the other. -/

def Call.listener? : Call μ → Option ListenerKey
  | listened _ _ key _ _ => some key
  | _ => none

def listeners (calls : List (Call μ)) : List ListenerKey := calls.filterMap Call.listener?

def keysFrom (given n : Nat) : List ListenerKey := (List.range' given n).map ListenerKey.mk

theorem keysFromAppend (given m n : Nat) :
    keysFrom given m ++ keysFrom (given + m) n = keysFrom given (m + n) := by
  have one : given + m = given + 1 * m := by omega
  rw [keysFrom, keysFrom, ← List.map_append, one, List.range'_append]
  rfl

theorem keysFromDistinct (given n : Nat) : (keysFrom given n).Nodup :=
  List.pairwise_map.mpr ((List.nodup_range' 1).imp fun apart same =>
    apart (ListenerKey.mk.inj same))

def HandsOut (r s : Rig (Noted ω μ)) : Prop :=
  ∃ n, s.nextKey = r.nextKey + n ∧
    listeners s.world.calls = listeners r.world.calls ++ keysFrom r.nextKey n

namespace HandsOut

variable {r s : Rig (Noted ω μ)}

theorem still (keys : s.nextKey = r.nextKey) (same : Alike (Noted.picked Call.listener?) r s) :
    HandsOut r s := ⟨0, keys, same.trans (List.append_nil _).symm⟩

theorem way : Way (HandsOut (ω := ω) (μ := μ)) where
  refl _ := still rfl rfl
  trans := by
    rintro r s t ⟨m, given, first⟩ ⟨n, more, second⟩
    refine ⟨m + n, by omega, ?_⟩
    rw [second, first, given, List.append_assoc, keysFromAppend]
  write _ _ := still rfl rfl

theorem ask (note : α → Call μ) (other : ∀ a, (note a).listener? = none) (act : Act ω α) :
    Along HandsOut (Rig.ask (act.noting note)) := fun r =>
  still (keepsAsk _ r).nextKey (Controller.notingAlike note other act r)

theorem attach (env : Surroundings ω μ) (model : μ) (watch : Watch) :
    Along HandsOut (Subscription.attach env.noted.cpu model watch) := by
  refine way.plain.bind (fun _ => still rfl rfl) fun _ => ?_
  refine way.plain.bind (ask (.read model watch.pin) (fun _ => rfl) _) fun level => ?_
  refine way.plain.bind (fun _ => still rfl rfl) fun _ r => ?_
  let listen := env.noted.cpu.listen model watch.pin ⟨r.nextKey⟩
  have handed : HandsOut r (Rig.ask listen (arm watch.name r).2).2 := by
    refine ⟨1, (keepsAsk listen _).nextKey, ?_⟩
    rw [askWorld]
    show (r.world.calls ++ [Call.listened _ _ _ _ _]).filterMap Call.listener? = _
    rw [List.filterMap_append]
    rfl
  exact way.trans handed (way.plain.bind (way.record _ _) (fun _ => way.plain.pure _) _)

end HandsOut

theorem Surroundings.handsOut (env : Surroundings ω μ) : env.noted.Along HandsOut where
  composes := HandsOut.way
  disarm _ _ := HandsOut.still rfl rfl
  clear _ := HandsOut.still rfl rfl
  clock := HandsOut.ask .clock (fun _ => rfl) _
  step m := HandsOut.ask (fun out : μ × Option CpuFault => .stepped m out.1 out.2) (fun _ => rfl) _
  tick m := HandsOut.ask (.ticked m) (fun _ => rfl) _
  attach := HandsOut.attach env
  unlisten m id :=
    HandsOut.ask (fun out : μ × Bool => .unlistened m id out.1 out.2) (fun _ => rfl) _
  discard m := HandsOut.ask (fun _ => .discarded m) (fun _ => rfl) _
  construct image := HandsOut.ask (.constructed image) (fun _ => rfl) _
  request token := HandsOut.ask (fun _ => .requested token) (fun _ => rfl) _
  cancel token := HandsOut.ask (fun _ => .cancelled token) (fun _ => rfl) _

theorem Command.handsOut (command : Command ω) :
    (command.noted (μ := μ)).Along HandsOut := by
  have plain : ∀ {α} (act : Act ω α), Rig.Along HandsOut (Rig.ask (act.unnoted (μ := μ))) :=
    fun act r => HandsOut.still (keepsAsk _ r).nextKey (alikeAsk act.unnoted (fun _ => rfl) r)
  cases command with
  | startWith source compiler => exact fun request => plain (compiler request)
  | outside act => exact plain act
  | _ => trivial

namespace Controller

theorem historyListeners (env : Surroundings ω μ) (c : Controller ω μ)
    (commands : List (Command ω)) :
    ∃ n, (c.run env commands).2.rig.nextKey = c.rig.nextKey + n ∧
      listeners (c.history env commands) = keysFrom c.rig.nextKey n := by
  have handedOut := runAlong env.handsOut c.withNotes (commands.map Command.noted)
    (by simp only [List.forall_mem_map]; exact fun command _ => command.handsOut)
  obtain ⟨n, keys, handed⟩ := handedOut
  rw [runNotes] at keys handed
  have after : (((c.run env commands).2.withNotes.onto
      (Noted.after (c.history env commands))).rig.world.calls) = c.history env commands :=
    List.append_nil _
  rw [after] at handed
  exact ⟨n, keys, handed⟩

def listening (c : Controller ω μ) : List ListenerKey :=
  (c.phase.session?.map fun session => session.subscriptions.map Subscription.key).getD []

def abandoned (env : Surroundings ω μ) (c : Controller ω μ) (commands : List (Command ω)) :
    List ListenerKey :=
  (listeners (c.history env commands)).filter (· ∉ (c.run env commands).2.listening)

theorem listeningOff {c : Controller ω μ} (ended : c.stage ≠ .running) : c.listening = [] := by
  obtain ⟨settings, phase, tokens, tickets, sessions, r⟩ := c
  cases phase with
  | running => exact absurd rfl ended
  | _ => rfl

theorem Orderly.armedListening {settings : Settings} {c : Controller ω μ}
    (orderly : Orderly settings c) {a : Armed} (armed : a ∈ c.rig.armed) :
    a.key ∈ c.listening := by
  have holds := orderly.holds
  unfold listening
  cases phase : c.phase with
  | running session snapshot =>
    rw [phase] at holds
    rw [holds.armed, List.mem_reverse] at armed
    obtain ⟨subscription, mine, rfl⟩ := List.mem_map.mp armed
    exact List.mem_map.mpr ⟨subscription, mine, rfl⟩
  | idle =>
    rw [phase] at holds
    rw [holds.1] at armed
    cases armed
  | _ =>
    rw [phase] at holds
    rw [show c.rig.armed = [] from holds] at armed
    cases armed

theorem abandonedDeaf {settings : Settings} {c : Controller ω μ} (orderly : Orderly settings c)
    (env : Surroundings ω μ) (commands : List (Command ω)) :
    Deaf (c.abandoned env commands) (c.run env commands).2.rig := by
  obtain ⟨n, next, handed⟩ := historyListeners env c commands
  refine ⟨fun a armed gone => ?_, fun key gone => ?_⟩
  · have held := (runOrderly orderly env commands).armedListening armed
    exact absurd held (by simpa using (List.mem_filter.mp gone).2)
  · have member := (List.mem_filter.mp gone).1
    rw [handed] at member
    obtain ⟨raw, inside, rfl⟩ := List.mem_map.mp member
    have upper := (List.mem_range'_1.mp inside).2
    show raw < _
    omega

theorem runUnheard {keys : List ListenerKey} {c : Controller ω μ} (deaf : Deaf keys c.rig)
    (env : Surroundings ω μ) (commands : List (Command ω)) :
    c.run env commands = c.run (env.without keys) (commands.map (Command.without keys)) ∧
      Deaf keys (c.run env commands).2.rig := by
  have start : Like (Unheard keys) c c := .atRig c.rig ⟨rfl, deaf⟩
  obtain ⟨answers, alike⟩ := runMatched (env.unheard keys) start commands (Command.without keys)
    (fun command _ => command.unheard keys)
  obtain ⟨same, still⟩ := alike.rigs
  exact ⟨Prod.ext answers.symm (alike.same same).symm, still⟩

/- A listener that no live session holds any more moves no signal, whoever calls it and when. Where
a session has been closed and none is live, these are all that were handed out. -/
theorem closedSilent (env : Surroundings ω μ) {settings : Settings}
    (usable : settings.problem? = none) (world : ω) :
    ∃ fresh : Controller ω μ, new settings world = .ok fresh ∧
      ∀ early late,
        let c := (fresh.run env early).2
        let gone := fresh.abandoned env early
        (listeners (fresh.history env early)).Nodup ∧
        (c.stage ≠ .running → gone = listeners (fresh.history env early)) ∧
        (∀ key ∈ gone, ∀ level, (c.run env late).2.rig.call key level = (c.run env late).2.rig) ∧
        c.run env late = c.run (env.without gone) (late.map (Command.without gone)) := by
  obtain ⟨fresh, made⟩ := newUsable (μ := μ) usable world
  refine ⟨fresh, made, fun early late => ?_⟩
  have deaf := abandonedDeaf (newOrderly made).1 env early
  obtain ⟨same, still⟩ := runUnheard deaf env late
  obtain ⟨n, -, handed⟩ := historyListeners env fresh early
  refine ⟨?_, fun ended => ?_, fun key gone level => still.call gone level, same⟩
  · rw [handed]
    exact keysFromDistinct _ n
  · exact List.filter_eq_self.mpr (by simp [listeningOff ended])

end Controller

/- A model that lets nothing go: it takes no listener back, and at every step and whenever it is
asked to take one back it calls all that it was ever given. -/
namespace Cling

def cpu : CpuModel (List ListenerKey) Unit where
  step _ := fun ears => ⟨((), none), ears, ears.map (.called · .high)⟩
  tick _ := pure ()
  listen _ _ key := fun ears => ⟨((), ⟨0⟩), key :: ears, []⟩
  unlisten _ _ := fun ears => ⟨((), false), ears, ears.map (.called · .low)⟩
  level _ _ := pure .low
  discard _ := pure ()

def surroundings : Surroundings (List ListenerKey) Unit where
  clock := fun ears => ⟨.zero, ears, []⟩
  cpu := cpu
  construct _ := pure (.ok ())
  host := ⟨fun _ => pure (), fun _ => pure ()⟩

def begin : Command (List ListenerKey) :=
  .startWith "" fun _ => pure (.ok ⟨some ":020000000102FB\n:00000001FF", none⟩)

/- A session that ends, and one after it. -/
def early : List (Command (List ListenerKey)) := [begin, .frame ⟨1⟩, .stop]
def late : List (Command (List ListenerKey)) := [begin, .frame ⟨3⟩]

end Cling

namespace Controller
open Cling

theorem clingSilent : ∃ fresh : Controller (List ListenerKey) Unit,
    new (Blink.settings 2) [] = .ok fresh ∧
      let c := (fresh.run surroundings early).2
      let d := (c.run surroundings late).2
      c.stage = .stopped ∧ d.stage = .running ∧ d.rig.world = [⟨1⟩, ⟨0⟩] ∧
      (∀ level, d.rig.call ⟨0⟩ level = d.rig) ∧
      c.run surroundings late =
        c.run (surroundings.without [⟨0⟩]) (late.map (Command.without [⟨0⟩])) := by
  obtain ⟨fresh, made, all⟩ := closedSilent surroundings
    (show (Blink.settings 2).problem? = none by decide) []
  have known : (new (Blink.settings 2) []).toOption.map
      (fun fresh : Controller (List ListenerKey) Unit =>
        let c := (fresh.run surroundings early).2
        let d := (c.run surroundings late).2
        (fresh.abandoned surroundings early, c.stage, d.stage, d.rig.world)) =
        some ([⟨0⟩], .stopped, .running, [⟨1⟩, ⟨0⟩]) := by decide +kernel
  simp only [made, Except.toOption, Option.map_some, Option.some.injEq, Prod.mk.injEq] at known
  obtain ⟨gone, ended, again, kept⟩ := known
  obtain ⟨-, -, silent, same⟩ := all early late
  rw [gone] at silent same
  exact ⟨fresh, made, ended, again, kept, silent ⟨0⟩ (by simp), same⟩

end Controller
end VirtualBoard
