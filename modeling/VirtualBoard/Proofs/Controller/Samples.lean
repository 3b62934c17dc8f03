import VirtualBoard.Proofs.Controller.Tickets

/-! The figures a controller takes, and the sessions it opens.

A sample is taken in a frame and nowhere else, at the reading of the clock that
ends the frame. A session is opened at a reading of the clock, under a number of
its own, and is the only one until another compile settles. -/
namespace VirtualBoard

variable {ω μ : Type}

def Call.reading? : Call μ → Option Duration
  | clock reading => some reading
  | _ => none

def readings (calls : List (Call μ)) : List Duration := calls.filterMap Call.reading?

structure Sample where
  session : SessionId
  time : Duration
  snapshot : Snapshot

theorem Session.dueSome {s : Session μ} {interval now : Duration} {figures : Snapshot}
    (due : s.due interval now = some figures) :
    interval ≤ now - s.counters.sampled ∧ figures.cycles = s.counters.cycles ∧
      figures.elapsed = now - s.counters.started := by
  unfold Session.due sample? at due
  split at due
  · cases due
  · rename_i passed
    cases due
    exact ⟨Nat.le_of_not_lt passed, rfl, rfl⟩

theorem Settings.intervalPositive {settings : Settings} (usable : settings.problem? = none) :
    0 < settings.sampleInterval.nanos :=
  Nat.pos_of_ne_zero fun none =>
    ((problemNone settings).mp usable).sampleInterval (Duration.ext none)

namespace Controller
open Rig

variable {settings : Settings} {env : Surroundings ω μ}

def sampling (env : Surroundings ω μ) (c : Controller ω μ) (command : Command ω) : List Sample :=
  match c.phase, (c.perform env command).2.phase with
  | .running before _, .running after (some shown) =>
    if after.counters.sampled = before.counters.sampled then []
    else [⟨after.id, after.counters.sampled, shown⟩]
  | _, _ => []

def samples (env : Surroundings ω μ) (c : Controller ω μ) : List (Command ω) → List Sample
  | [] => []
  | command :: rest => c.sampling env command ++ (c.perform env command).2.samples env rest

/- From one controller to a later one: what runs ran before, or it was opened under a new number
and at a reading of the clock. -/
structure Opening (c d : Controller (Noted ω μ) μ) : Prop where
  read : ∀ t ∈ readings c.rig.world.calls, t ∈ readings d.rig.world.calls
  sessions : c.sessions ≤ d.sessions
  live : ∀ s, d.phase.session? = some s →
    (d.sessions = c.sessions ∧ c.phase.session? = some s) ∨
    (c.sessions < d.sessions ∧ s.id = ⟨d.sessions⟩ ∧
      ∃ now ∈ readings d.rig.world.calls, s.counters = .startingAt now)

namespace Opening

variable {b c d : Controller (Noted ω μ) μ}

theorem rested (rests : Rests c d) (unread : Alike (Noted.picked Call.reading?) c.rig d.rig) :
    Opening c d where
  read t member := by
    have same : readings d.rig.world.calls = readings c.rig.world.calls := unread
    rw [same]
    exact member
  sessions := Nat.le_of_eq rests.sessions.symm
  live s live := .inl ⟨rests.sessions, rests.live s live⟩

theorem trans (early : Opening b c) (late : Opening c d) : Opening b d where
  read t member := late.read t (early.read t member)
  sessions := Nat.le_trans early.sessions late.sessions
  live s live := by
    rcases late.live s live with ⟨same, before⟩ | ⟨more, opened⟩
    · rw [same]
      refine (early.live s before).imp_right fun ⟨more, id, now, read, began⟩ => ?_
      exact ⟨more, id, now, late.read now read, began⟩
    · exact .inr ⟨Nat.lt_of_le_of_lt early.sessions more, opened⟩

end Opening

theorem closeUnread (env : Surroundings ω μ) (s : Session μ) :
    Along (Alike (Noted.picked Call.reading?)) (s.close env.noted.cpu env.noted.host) :=
  closeAlike _ (fun _ _ _ _ => rfl) (fun _ => rfl) (fun _ => rfl) env s

section
variable {c : Controller (Noted ω μ) μ}

theorem startOpening (source : String) : Opening c (c.start source).2 := by
  obtain ⟨settings, phase, tokens, tickets, sessions, r⟩ := c
  cases phase with
  | idle | stopped => exact ⟨fun _ read => read, Nat.le_refl _, fun s live => by cases live⟩
  | _ => exact .rested (.inRig _ _) rfl

theorem stopOpening (env : Surroundings ω μ) : Opening c (c.stop env.noted) := by
  refine .rested (stopRests env.noted c) ?_
  unfold stop
  cases c.phase with
  | running session snapshot =>
    simp only [closeRun]
    exact closeUnread env session c.rig
  | _ => rfl

theorem resetOpening (env : Surroundings ω μ) : Opening c (c.reset env.noted) := by
  refine .rested (resetRests env.noted c) ?_
  unfold reset
  cases c.phase with
  | running session snapshot =>
    simp only [closeRun]
    exact closeUnread env session c.rig
  | _ => rfl

theorem launchOpening (env : Surroundings ω μ) (image : Image) (model : μ) :
    Opening c (c.launch env.noted image model) := by
  let now := ask env.noted.clock c.rig
  let opened := Subscription.attachAll env.noted.cpu model c.settings.watch now.2
  have noted : readings now.2.world.calls = readings c.rig.world.calls ++ [now.1] := by
    rw [show now.2.world = _ from askWorld _ c.rig]
    exact List.filterMap_append
  have attached := attachAlike Call.reading? (fun _ _ _ => rfl) (fun _ _ _ _ _ => rfl) env model
    c.settings.watch now.2
  have asked : Alike (Noted.picked Call.reading?) opened.2 _ :=
    notingAlike (fun _ => .requested ⟨c.tokens.issued + 1⟩) (fun _ => rfl)
      (env.host.request ⟨c.tokens.issued + 1⟩) opened.2
  have after : readings (c.launch env.noted image model).rig.world.calls =
      readings c.rig.world.calls ++ [now.1] := by
    rw [launchRun, ← noted]
    exact asked.trans attached
  refine ⟨fun t read => ?_, Nat.le_succ _, fun s live => .inr ⟨Nat.lt_succ_self _, ?_, ?_⟩⟩
  · rw [after]
    exact List.mem_append_left _ read
  · rw [launchRun] at live ⊢
    cases live
    rfl
  · refine ⟨now.1, by rw [after]; simp, ?_⟩
    rw [launchRun] at live
    cases live
    rfl

theorem loadOpening (env : Surroundings ω μ) (outcome : Outcome) :
    Opening c (c.load env.noted outcome) := by
  have unread : ∀ image,
      Along (Alike (Noted.picked Call.reading?)) (ask (env.noted.construct image)) :=
    fun image => notingAlike (.constructed image) (fun _ => rfl) (env.construct image)
  rcases loadRun env.noted c outcome with
    ⟨failure, rig, loaded, along⟩ | ⟨text, image, model, rig, -, -, made, loaded⟩
  · have same : readings rig.world.calls = readings c.rig.world.calls := along (alikeWay _).plain unread
    rw [loaded]
    exact ⟨fun t read => by rw [same]; exact read, Nat.le_refl _, fun s live => by cases live⟩
  · have built := unread image (c.rig.write (.record .debug (loadedText image)))
    rw [made] at built
    rw [loaded]
    exact Opening.trans (c := c.inRig rig) (.rested (.inRig c rig) built)
      (launchOpening env image model)

theorem openingPassage (env : Surroundings ω μ) :
    Passage env.noted (Opening (ω := ω) (μ := μ)) where
  trans := Opening.trans
  record c _ _ := .rested (.inRig c _) rfl
  start _ source := startOpening source
  stop _ := stopOpening env
  reset _ := resetOpening env
  load _ outcome := loadOpening env outcome

theorem startWithOpening (env : Surroundings ω μ) (source : String) (compiler : Compiler ω) :
    Opening c (c.startWith env.noted source fun request => (compiler request).unnoted).2 :=
  (openingPassage env).startWith (fun {d _ _} _ request =>
    .rested (.inRig d _) (alikeAsk (compiler request).unnoted (fun _ => rfl) d.rig)) c source

theorem performOpening (env : Surroundings ω μ) {command : Command ω}
    (other : ∀ token, command ≠ .frame token) :
    Opening c (c.perform env.noted command.noted).2 := by
  cases command with
  | start source => exact startOpening source
  | complete ticket outcome => exact (openingPassage env).complete c ticket outcome
  | startWith source compiler => exact startWithOpening env source compiler
  | stop => exact stopOpening env
  | reset => exact resetOpening env
  | frame token => exact absurd rfl (other token)
  | outside act => exact .rested (.inRig c _) (alikeAsk act.unnoted (fun _ => rfl) c.rig)

end

theorem runningOn {c : Controller ω μ} {session : Session μ} {snapshot : Option Snapshot}
    (phase : c.phase = .running session snapshot) (env : Surroundings ω μ) {command : Command ω}
    (other : ∀ token, command ≠ .frame token) :
    (c.perform env command).2.phase = .running session snapshot ∨
    (c.perform env command).2.phase.session? = none := by
  obtain ⟨settings, _, tokens, tickets, sessions, r⟩ := c
  cases phase
  cases command with
  | frame token => exact absurd rfl (other token)
  | stop | reset => exact .inr rfl
  | _ => exact .inl rfl

theorem otherSampling (env : Surroundings ω μ) (c : Controller ω μ) {command : Command ω}
    (other : ∀ token, command ≠ .frame token) : c.sampling env command = [] := by
  unfold sampling
  cases phase : c.phase with
  | running session snapshot =>
    rcases runningOn phase env other with same | ended
    · rw [same]
      cases snapshot <;> simp
    · cases after : (c.perform env command).2.phase with
      | running => rw [after] at ended; cases ended
      | _ => rfl
  | _ => rfl

/- What a burst leaves of the session it is of. -/
structure Advances (s ran : Session μ) : Prop where
  id : ran.id = s.id
  started : ran.counters.started = s.counters.started
  sampled : ran.counters.sampled = s.counters.sampled
  cycles : s.counters.cycles ≤ ran.counters.cycles

theorem frameSampling {c : Controller ω μ} (positive : 0 < settings.sampleInterval.nanos)
    {s ran : Session μ} {shown : Option Snapshot} (phase : c.phase = .running s shown)
    (advances : Advances s ran) {now : Duration} {token next : BurstToken}
    (goes : (c.frame env token).2.phase = .running
      ((if (ran.due settings.sampleInterval now).isSome then ran.sampledAt now else ran).queued
        next) ((ran.due settings.sampleInterval now).or shown)) :
    c.sampling env (.frame token) =
      (ran.due settings.sampleInterval now).toList.map (⟨ran.id, now, ·⟩) := by
  unfold sampling
  rw [phase, show (c.perform env (.frame token)).2.phase = _ from goes]
  cases due : ran.due settings.sampleInterval now with
  | none =>
    have same : (ran.queued next).counters.sampled = s.counters.sampled := advances.sampled
    cases shown <;> simp [same]
  | some figures =>
    obtain ⟨passed, -, -⟩ := Session.dueSome due
    have moved : now ≠ s.counters.sampled := by
      rintro rfl
      rw [advances.sampled] at passed
      change settings.sampleInterval.nanos ≤ s.counters.sampled.nanos - s.counters.sampled.nanos
        at passed
      omega
    have id : ((ran.sampledAt now).queued next).id = ran.id := rfl
    have time : ((ran.sampledAt now).queued next).counters.sampled = now := rfl
    simp [id, time, moved]

/- What a frame makes of a session after its burst: a fault ends it, or it goes on, with a sample
if figures are due by the last reading of the clock. -/
inductive Framed (settings : Settings) (ran : Session μ) (shown : Option Snapshot)
    (read : List Duration) (after : Phase μ) : List Sample → Continuation → Prop where
  | faulted (fault : CpuFault)
    (ended : after = .failed (.cpu fault) ⟨ran.counters.cycles, shown⟩) :
    Framed settings ran shown read after [] (.faulted (.cpu fault))
  | next (now : Duration) (token : BurstToken) (last : read.getLast? = some now)
    (goes : after = .running
      ((if (ran.due settings.sampleInterval now).isSome then ran.sampledAt now else ran).queued
        token) ((ran.due settings.sampleInterval now).or shown)) :
    Framed settings ran shown read after
      ((ran.due settings.sampleInterval now).toList.map (⟨ran.id, now, ·⟩)) (.next token)

theorem readLast (env : Surroundings ω μ) (token : BurstToken) {r rig : Rig (Noted ω μ)}
    (left : rig = (ask env.noted.clock r).2 ∨
      ∃ text, rig = (ask env.noted.clock r).2.write (.record .trace text)) :
    (readings (ask (env.noted.host.request token) rig).2.world.calls).getLast? =
      some (ask env.noted.clock r).1 := by
  have world : rig.world = (ask env.noted.clock r).2.world := by
    rcases left with rfl | ⟨text, rfl⟩ <;> rfl
  have asked : readings (ask (env.noted.host.request token) rig).2.world.calls =
      readings rig.world.calls :=
    notingAlike (fun _ => .requested token) (fun _ => rfl) (env.host.request token) rig
  have read : readings rig.world.calls =
      readings r.world.calls ++ [(ask env.noted.clock r).1] := by
    rw [world, askWorld]
    exact List.filterMap_append
  rw [asked, read]
  exact List.getLast?_concat

theorem frameFramed {c : Controller ω μ} (positive : 0 < settings.sampleInterval.nanos)
    (orderly : Orderly settings c) (env : Surroundings ω μ)
    {token : BurstToken} {s : Session μ} {shown : Option Snapshot}
    (phase : c.phase = .running s shown) (pending : s.scheduler.pending = some token) :
    (c.frame env token).2.sessions = c.sessions ∧ ∃ ran, Advances s ran ∧
      Framed settings ran shown (readings (c.calls env (.frame token)))
        (c.frame env token).2.phase (c.sampling env (.frame token)) (c.frame env token).1 := by
  have holds := orderly.withNotes.lives phase
  let ran := s.spent.burst env.noted.clock env.noted.cpu c.withNotes.rig
  have advances : Advances s ran.1.1 := ⟨rfl, rfl, rfl, Nat.le_add_right _ _⟩
  have noted : c.calls env (.frame token) =
      (c.withNotes.frame env.noted token).2.rig.world.calls := rfl
  have same := notedFrame env c token
  rcases frameSteps env.noted c.withNotes phase holds.going pending with
    ⟨fault, -, after⟩ | ⟨rig, -, after, left⟩
  · rw [after] at same
    have none : c.sampling env (.frame token) = [] := by
      unfold sampling
      rw [phase, show (c.perform env (.frame token)).2.phase = _ from
        congrArg (fun out => out.2.phase) same]
      rfl
    rw [none, same]
    exact ⟨rfl, ran.1.1, advances, .faulted fault rfl⟩
  · have last : (readings (c.calls env (.frame token))).getLast? =
        some (ask env.noted.clock ran.2).1 := by
      rw [noted, after]
      exact readLast env _ left
    have goes : (c.frame env token).2.phase = .running
        ((if (ran.1.1.due settings.sampleInterval (ask env.noted.clock ran.2).1).isSome then
          ran.1.1.sampledAt (ask env.noted.clock ran.2).1 else ran.1.1).queued
            ⟨c.tokens.issued + 1⟩)
        ((ran.1.1.due settings.sampleInterval (ask env.noted.clock ran.2).1).or shown) := by
      rw [same, after, ← orderly.same]
      rfl
    rw [frameSampling positive phase advances goes, goes, same, after]
    exact ⟨rfl, ran.1.1, advances, .next _ _ last rfl⟩

theorem staleSampling (env : Surroundings ω μ) {c : Controller ω μ} {token : BurstToken}
    (stale : c.queued? ≠ some token) : c.sampling env (.frame token) = [] := by
  obtain ⟨severity, text, after⟩ := frameStale env c stale
  have same : (c.perform env (.frame token)).2.phase = c.phase :=
    congrArg (fun out => out.2.phase) after
  unfold sampling
  rw [same]
  cases c.phase with
  | running session shown => cases shown <;> simp
  | _ => rfl

end Controller
end VirtualBoard
