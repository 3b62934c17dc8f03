import VirtualBoard.Proofs.Controller.Signals
import VirtualBoard.Proofs.Page.Answers
import VirtualBoard.Proofs.Page.Tending

/-! Closures for as long as their session, in every run of a harness.

While a session is live its model keeps one closure for each watched pin, under the
number that the page gave out, and the signals have what came in through them. When
the session has ended, in whatever way, each of its listeners was removed once and
no closure is left. The page may number as it likes, as long as it gives no number
to two listeners at a time, and may answer what it likes when one is removed. -/
namespace VirtualBoard
open Page Rig

variable {π κ : Type}

def Command.Calm : Command (Tab (Diary π κ)) → Prop
  | .startWith _ compiler => ∀ request, Writes Idle (compiler request)
  | .outside act => Writes Idle act
  | _ => True

namespace Controller

/- A controller that tends the pins of its session, if it has one, and has left none of another. -/
structure Tends (settings : Settings) (c : Controller (Tab (Diary π κ)) (Model κ)) : Prop where
  orderly : Orderly settings c
  live : ∀ session, c.phase.session? = some session →
    Tended (settings.watch.map Watch.name) session.subscriptions session.model c.rig
  rest : c.phase.session? = none → Tallies [] [] (handled c.rig)

section
variable {settings : Settings} {page : Page π κ} {size : Nat}
  {c : Controller (Tab (Diary π κ)) (Model κ)} {session : Session (Model κ)}
  {snapshot : Option Snapshot}

namespace Tends

theorem on (orderly : Orderly settings c) (phase : c.phase = .running session snapshot)
    (tended : Tended (settings.watch.map Watch.name) session.subscriptions session.model c.rig) :
    Tends settings c where
  orderly := orderly
  live other there := by
    rw [phase] at there
    cases there
    exact tended
  rest there := by
    rw [phase] at there
    cases there

theorem off (orderly : Orderly settings c) (resting : c.phase.session? = none)
    (tallies : Tallies [] [] (handled c.rig)) : Tends settings c where
  orderly := orderly
  live other there := by
    rw [resting] at there
    cases there
  rest _ := tallies

theorem running (tends : Tends settings c) (phase : c.phase = .running session snapshot) :
    Tended (settings.watch.map Watch.name) session.subscriptions session.model c.rig :=
  tends.live session (by rw [phase]; rfl)

theorem inRig (tends : Tends settings c) {r : Rig (Tab (Diary π κ))} (kept : Keeps c.rig r)
    (stays : ∀ {names subs} {m : Model κ}, Tended names subs m c.rig → Tended names subs m r)
    (same : handled r = handled c.rig) : Tends settings (c.inRig r) where
  orderly := tends.orderly.kept kept
  live session there := stays (tends.live session there)
  rest there := by
    show Tallies [] [] (handled r)
    rw [same]
    exact tends.rest there

theorem record (tends : Tends settings c) (severity : Log.Severity) (text : String) :
    Tends settings (c.record severity text) :=
  tends.inRig (writeKeeps _ _) (·.write _) rfl

theorem outside {α : Type} (tends : Tends settings c) {act : Act (Tab (Diary π κ)) α}
    (writes : Writes Idle act) : Tends settings (c.work (ask act)).2 :=
  tends.inRig (keepsAsk act c.rig) (·.ask writes) (writes.unhandled c.rig)

theorem beside {d : Controller (Tab (Diary π κ)) (Model κ)} (tends : Tends settings c)
    (beside : Beside c d) : Tends settings d := by
  obtain ⟨_, log, rfl⟩ := beside
  have kept : Keeps c.rig {c.rig with log := log} := ⟨rfl, rfl, fun _ => rfl, fun _ => rfl⟩
  exact tends.inRig kept (·.still kept rfl rfl) rfl

end Tends

theorem startTends (tends : Tends settings c) (source : String) :
    Tends settings (c.start source).2 := by
  have orderly := startOrderly tends.orderly source
  unfold start at orderly ⊢
  cases phase : c.phase with
  | idle | stopped =>
    rw [phase] at orderly
    exact .off orderly rfl (tends.rest (by rw [phase]; rfl))
  | _ => exact tends.record _ _

theorem stopTends (tends : Tends settings c) :
    Tends settings (c.stop (page.noted.surroundings size)) := by
  refine .off (stopOrderly tends.orderly _) (stopOff _ c) ?_
  unfold stop
  cases phase : c.phase with
  | running session snapshot =>
    simp only [closeRun]
    exact session.closeTallies page (tends.running phase).tallies
  | _ => exact tends.rest (by rw [phase]; rfl)

theorem resetTends (tends : Tends settings c) :
    Tends settings (c.reset (page.noted.surroundings size)) := by
  refine .off (resetOrderly tends.orderly _) (resetOff _ c) ?_
  unfold reset
  cases phase : c.phase with
  | running session snapshot =>
    simp only [closeRun]
    exact session.closeTallies page (tends.running phase).tallies
  | _ => exact tends.rest (by rw [phase]; rfl)

theorem launchTends (orderly : Orderly settings c) (quiet : c.rig.armed = [])
    (distinct : (settings.watch.map Watch.name).Nodup) {model : Model κ}
    (tallies : Tallies [] model.closures (handled c.rig)) (image : Image) :
    Tends settings (c.launch (page.noted.surroundings size) image model) := by
  have begins := (Tended.start orderly.fits quiet tallies).ask (clockRecorded page).writes
  have known : ∀ w ∈ c.settings.watch, w.name ∈ settings.watch.map Watch.name := by
    rw [orderly.same]
    exact fun w member => List.mem_map.mpr ⟨w, member, rfl⟩
  have opened := Subscription.attachAllTended page begins known (by
    rw [orderly.same]
    exact distinct)
  have asked := opened.ask
    (frameCallRecorded page.codec "request" page.requestFrame ⟨c.tokens.issued + 1⟩).writes
  refine .on (launchOrderly orderly.same orderly.fits quiet _ image model) rfl ?_
  exact asked.write _

theorem loadTends (tends : Tends settings c) (resting : c.phase.session? = none)
    (distinct : (settings.watch.map Watch.name).Nodup) (outcome : Outcome) :
    Tends settings (c.load (page.noted.surroundings size) outcome) := by
  have quiet := tends.orderly.quiet resting
  have orderly := loadOrderly tends.orderly.same tends.orderly.fits quiet
    (page.noted.surroundings size) outcome
  rcases loadRun (page.noted.surroundings size) c outcome with
    ⟨failure, rig, loaded, along⟩ | ⟨text, image, model, rig, -, -, made, loaded⟩
  · have same : handled rig = handled c.rig := along (alikeWay told).plain
      fun image => (makeRecorded page size image).writes.unhandled
    rw [loaded] at orderly ⊢
    exact .off orderly rfl (same ▸ tends.rest resting)
  · let read := c.rig.write (.record .debug (loadedText image))
    have construct := (makeRecorded page size image).writes
    obtain ⟨more, same, bare, idle⟩ := construct.asked read
    have kept := keepsAsk (page.noted.make size image) read
    rw [show ask (page.noted.make size image) read = _ from made] at same bare kept
    have tallies : Tallies [] model.closures (handled rig) := by
      rw [bare model rfl, same, idle, List.append_nil]
      exact tends.rest resting
    rw [loaded]
    exact launchTends (c := c.inRig rig) (tends.orderly.kept ((writeKeeps _ _).trans kept))
      (kept.armed.trans quiet) distinct tallies image

theorem tendingPassage (page : Page π κ) (size : Nat) {settings : Settings}
    (distinct : (settings.watch.map Watch.name).Nodup) :
    Passage (page.noted.surroundings size) fun c d => Tends settings c → Tends settings d where
  trans early late tends := late (early tends)
  record _ severity text tends := tends.record severity text
  start _ source tends := startTends tends source
  stop _ tends := stopTends tends
  reset _ tends := resetTends tends
  load phase outcome tends := loadTends tends (by rw [phase]; rfl) distinct outcome

theorem tendedWay (names : List String) (subs : List Subscription) (m : Model κ) :
    PlainWay fun r s : Rig (Tab (Diary π κ)) => Tended names subs m r → Tended names subs m s :=
  ⟨fun _ tended => tended, fun early late tended => late (early tended),
    fun _ _ tended => tended.write _⟩

theorem frameTends (tends : Tends settings c) (token : BurstToken) :
    Tends settings (c.frame (page.noted.surroundings size) token).2 := by
  have orderly := frameOrderly tends.orderly (page.noted.surroundings size) token
  by_cases waited : c.queued? = some token
  · obtain ⟨session, snapshot, phase, pending⟩ := queuedRunning waited
    have holds := tends.orderly.lives phase
    have tended := tends.running phase
    have ran := (session.spent.burstTended page size tended).2
    have next := frameRun (page.noted.surroundings size) c phase holds.going pending
    dsimp only at ran next
    generalize session.spent.burst _ _ c.rig = out at ran next
    rcases next with ⟨fault, -, after⟩ | ⟨now, latest, rig, -, after, along⟩
    · rw [after] at orderly ⊢
      exact .off orderly rfl (out.1.1.closeTallies page ran.tallies)
    · have read := along (tendedWay _ _ _) (fun r tended => tended.ask (clockRecorded page).writes)
        ran
      rw [after] at orderly ⊢
      exact .on orderly rfl
        (read.ask (frameCallRecorded page.codec "request" page.requestFrame ⟨c.tokens.issued + 1⟩).writes)
  · obtain ⟨severity, text, after⟩ := frameStale (page.noted.surroundings size) c waited
    rw [after]
    exact tends.record severity text

theorem performTends (tends : Tends settings c) (distinct : (settings.watch.map Watch.name).Nodup)
    {command : Command (Tab (Diary π κ))} (calm : command.Calm) :
    Tends settings (c.perform (page.noted.surroundings size) command).2 := by
  have passage := tendingPassage page size distinct
  cases command with
  | start source => exact startTends tends source
  | complete ticket outcome => exact passage.complete c ticket outcome tends
  | startWith source compiler =>
    exact passage.startWith (fun _ request tends => tends.outside (calm request)) c source tends
  | stop => exact stopTends tends
  | reset => exact resetTends tends
  | frame token => exact frameTends tends token
  | outside act => exact tends.outside calm

theorem runTends (tends : Tends settings c) (distinct : (settings.watch.map Watch.name).Nodup)
    (commands : List (Command (Tab (Diary π κ)))) (calm : ∀ command ∈ commands, command.Calm) :
    Tends settings (c.run (page.noted.surroundings size) commands).2 := by
  induction commands generalizing c with
  | nil => exact tends
  | cons command rest ih =>
    rw [List.forall_mem_cons] at calm
    exact ih (performTends tends distinct calm.1) calm.2

end
end Controller
open Controller

namespace Page

structure Served (subs : List Subscription) (m : Model κ) (r : Rig (Tab (Diary π κ))) : Prop where
  closures : Apart [] (handled r) →
    Custody (handled r) (subs.map (.ofSubscription m.cpu)) m.closures
  levels : ∀ s ∈ subs, Hears m.cpu s r

theorem Tended.served {names : List String} {subs : List Subscription} {m : Model κ}
    {r : Rig (Tab (Diary π κ))} (tended : Tended names subs m r) : Served subs m r :=
  ⟨tended.tallies, tended.hears⟩

namespace Harness

variable {settings : Settings} {page : Page π κ} {h : Harness (Diary π κ) κ}

/- A session is served as long as it is live, at every step of its frames too, and has a subscription
for each watched pin. Without one, all listeners ever added were removed, and no closure is left. -/
structure Serves (settings : Settings) (page : Page π κ) (h : Harness (Diary π κ) κ) : Prop where
  live : ∀ session, h.controller.phase.session? = some session →
    session.subscriptions.map Subscription.watch = settings.watch ∧
    Served session.subscriptions session.model h.controller.rig ∧
    ∀ token, ∀ q ∈ h.controller.within (h.env page.noted) token,
      Served session.subscriptions q.1 q.2
  ended : h.controller.phase.session? = none → Apart [] (handled h.controller.rig) →
    Custody (handled h.controller.rig) [] []

theorem newTold {config : Script} {world : π}
    (made : new page.noted config ⟨world, []⟩ = .ok h) : handled h.controller.rig = [] := by
  unfold new at made
  split at made
  · cases made
  · split at made
    · cases made
    · rename_i fresh begun
      obtain ⟨board, rfl⟩ := newParts begun
      cases made
      exact (Recorded.overhear (page.print "harness ready")).writes.unhandled
        (Rig.new (⟨⟨world, []⟩, .zero⟩ : Tab (Diary π κ)) board)

theorem passedCalm (page : Page π κ) (h : Harness (Diary π κ) κ) (entries : List (Entry π)) :
    ∀ command ∈ h.passed page.noted (entries.map Entry.noted), command.Calm := by
  refine passedAll h (fun entry member command found => ?_) fun lines =>
    (printRecorded page lines).writes
  obtain ⟨plain, -, rfl⟩ := List.mem_map.mp member
  cases plain with
  | outside call => cases found; exact (Recorded.overhear call).writes
  | completeCompile ticket response =>
    obtain ⟨read, -, rfl⟩ := Option.map_eq_some_iff.mp found
    trivial
  | _ => cases found <;> trivial

theorem runServes (tends : Tends settings h.controller)
    (distinct : (settings.watch.map Watch.name).Nodup) (entries : List (Entry π)) :
    Serves settings page (h.run page.noted (entries.map Entry.noted)) := by
  have ran : Tends settings (h.controller.run (h.env page.noted)
      (h.passed page.noted (entries.map Entry.noted))).2 :=
    runTends tends distinct _ (passedCalm page h entries)
  have after := ran.beside (runPasses tends.orderly page.noted (entries.map Entry.noted))
  generalize h.run page.noted (entries.map Entry.noted) = g at after
  refine ⟨fun session live => ?_, after.rest⟩
  obtain ⟨snapshot, phase⟩ := sessionRunning live
  have tended := after.live session live
  refine ⟨(after.orderly.lives phase).bound, tended.served, fun token q member => ?_⟩
  unfold within at member
  rw [live] at member
  dsimp only at member
  split at member
  · exact ((session.burstTended page _ tended).1 q member).served
  · cases member

end Harness

/- While a session is live its closures are kept, afterwards none is, and each listener is removed
once; what a page passes to them is what the signals show. -/
theorem closuresServed {settings : Settings} (usable : settings.problem? = none) (page : Page π κ)
    {config : Script} (read : Harness.settings? page config = some settings) (world : π) :
    ∃ ready : Harness (Diary π κ) κ,
      Harness.new page.noted config ⟨world, []⟩ = .ok ready ∧
      Harness.new page config world = .ok ready.forget ∧ ∀ entries,
        let h := ready.run page.noted (entries.map Entry.noted)
        h.forget = ready.forget.run page entries ∧ h.Serves settings page := by
  obtain ⟨ready, made, idle, filed⟩ := Harness.newReady usable page.noted read ⟨world, []⟩
  have distinct := ((Settings.problemNone settings).mp usable).watch.names
  have tends : Tends settings ready.controller := by
    refine .off filed.orderly (by rw [idle]; rfl) ?_
    rw [Harness.newTold made]
    exact fun _ => Custody.none
  exact ⟨ready, made, Harness.newForget config world made, fun entries =>
    ⟨Harness.runForget ready entries, Harness.runServes tends distinct entries⟩⟩

def sly : Page Unit Unit :=
  {plain with
    pinLevel := fun _ _ page => ⟨9, page, []⟩
    addPinListener := fun _ _ _ page => ⟨7, page, []⟩
    removePinListener := fun _ _ page => ⟨false, page, []⟩}

def slyEntries : List (Entry Unit) :=
  let answer : Script := .object [("hex", .text ":020000000102FB\n:00000001FF")]
  [.start "", .completeCompile ⟨1⟩ answer, .stop, .start "", .completeCompile ⟨2⟩ answer,
    .outside fun page => ⟨(), page, [(⟨1⟩, 0), (⟨1⟩, 1), (⟨1⟩, 9)]⟩]

theorem slyServed : ∃ ready : Harness (Diary Unit Unit) Unit,
    Harness.new sly.noted .undefined ⟨(), []⟩ = .ok ready ∧
    let h := ready.run sly.noted (slyEntries.map Entry.noted)
    handled h.controller.rig = [.added ⟨(), .led, 7, ⟨0⟩⟩, .removed () 7, .dropped ⟨0⟩,
      .added ⟨(), .led, 7, ⟨1⟩⟩] ∧
    h.controller.phase.session?.map (·.model.closures) = some [(7, ⟨1⟩)] ∧
    (h.controller.rig.board.find? "led").map Signal.level = some .high ∧
    Apart [] (handled h.controller.rig) ∧ h.Serves .standard sly := by
  obtain ⟨ready, made, -, all⟩ := closuresServed (show Settings.standard.problem? = none by decide)
    sly (show Harness.settings? sly .undefined = some .standard from rfl) ()
  obtain ⟨-, serves⟩ := all slyEntries
  have known : (Harness.new sly.noted .undefined ⟨(), []⟩).toOption.map
      (fun ready : Harness (Diary Unit Unit) Unit =>
        let h := ready.run sly.noted (slyEntries.map Entry.noted)
        (handled h.controller.rig, h.controller.phase.session?.map (·.model.closures),
          (h.controller.rig.board.find? "led").map Signal.level)) =
      some ([.added ⟨(), .led, 7, ⟨0⟩⟩, .removed () 7, .dropped ⟨0⟩,
        .added ⟨(), .led, 7, ⟨1⟩⟩], some [(7, ⟨1⟩)], some .high) := by decide +kernel
  simp only [made, Except.toOption, Option.map_some, Option.some.injEq, Prod.mk.injEq] at known
  obtain ⟨told, closures, level⟩ := known
  refine ⟨ready, made, told, closures, level, ?_, serves⟩
  rw [told]
  decide

end Page
end VirtualBoard
