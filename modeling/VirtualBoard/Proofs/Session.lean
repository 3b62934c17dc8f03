import VirtualBoard.Proofs.Rig
import VirtualBoard.Session

/-! What opening, running and closing a session does to the rig.

Opening arms one listener for each watched pin, under keys never handed out
before; closing disarms exactly the session's listeners; a burst does neither.
CPU model, clock and host are arbitrary, and so is what they do meanwhile. -/
namespace VirtualBoard
namespace Rig

variable {ω : Type}

/- A rig whose board lists given names, with listeners for some of them. -/
structure Fits (names : List String) (r : Rig ω) : Prop where
  board : r.board.names = names
  armed : ∀ a ∈ r.armed, a.name ∈ names
  keys : ∀ a ∈ r.armed, a.key.raw < r.nextKey

theorem Keeps.fits {names : List String} {r s : Rig ω} (kept : Keeps r s) (fits : Fits names r) :
    Fits names s where
  board := by
    have known : ∀ a ∈ r.armed, a.name ∈ r.board.names := by
      rw [fits.board]
      exact fits.armed
    exact (kept.names known).trans fits.board
  armed := by rw [kept.armed]; exact fits.armed
  keys := by rw [kept.armed, kept.nextKey]; exact fits.keys

theorem publishFits {names : List String} {r : Rig ω} (fits : Fits names r) {name : String}
    (known : name ∈ names) (level : Level) : Fits names (publish name level r).2 where
  board := by
    have there : name ∈ r.board.names := by rw [fits.board]; exact known
    have same : r.board.declare name = r.board := if_pos there
    show (r.board.publish name level).2.names = names
    rw [Board.namesPublish, same, fits.board]
  armed := fits.armed
  keys := fits.keys

theorem armFits {names : List String} {r : Rig ω} (fits : Fits names r) {name : String}
    (known : name ∈ names) : Fits names (arm name r).2 where
  board := fits.board
  armed a member := by
    rcases List.mem_cons.mp member with rfl | old
    · exact known
    · exact fits.armed a old
  keys a member := by
    rcases List.mem_cons.mp member with rfl | old
    · exact Nat.lt_succ_self _
    · exact Nat.lt_succ_of_lt (fits.keys a old)

theorem disarmFits {names : List String} {r : Rig ω} (fits : Fits names r) (key : ListenerKey) :
    Fits names (disarm key r).2 where
  board := fits.board
  armed a member := fits.armed a ((List.mem_filter.mp member).1)
  keys a member := fits.keys a ((List.mem_filter.mp member).1)

theorem declareKnown {names : List String} {r : Rig ω} (fits : Fits names r) {name : String}
    (known : name ∈ names) : (declare name r).2 = r := by
  have there : name ∈ r.board.names := by rw [fits.board]; exact known
  have same : r.board.declare name = r.board := if_pos there
  show {r with board := r.board.declare name} = r
  rw [same]

end Rig

namespace Subscription
open Rig

variable {ω μ : Type}

def watch (s : Subscription) : Watch := ⟨s.name, s.pin⟩
def armed (s : Subscription) : Armed := ⟨s.key, s.name⟩

/- The effect of subscribing to a watched pin whose name is on the board. -/
structure Attached (names : List String) (watch : Watch) (r : Rig ω)
    (out : (μ × Subscription) × Rig ω) : Prop where
  fits : Fits names out.2
  bound : out.1.2.watch = watch
  key : out.1.2.key = ⟨r.nextKey⟩
  armed : out.2.armed = out.1.2.armed :: r.armed
  nextKey : out.2.nextKey = r.nextKey + 1

theorem attachRun {names : List String} (cpu : CpuModel ω μ) (model : μ) {watch : Watch}
    {r : Rig ω} (fits : Fits names r) (known : watch.name ∈ names) :
    attach cpu model watch r =
      let read := ask (cpu.level model watch.pin) r
      let shown := (publish watch.name read.1 read.2).2
      let listened := ask (cpu.listen model watch.pin ⟨shown.nextKey⟩) (arm watch.name shown).2
      ((listened.1.1, ⟨listened.1.2, watch.pin, watch.name, ⟨shown.nextKey⟩⟩),
        listened.2.write
          (.record .debug ("attached " ++ watch.name ++ " to " ++ watch.pin.text))) := by
  have declared := declareKnown fits known
  simp only [attach, bindRun, declared]
  rfl

theorem attached {names : List String} (cpu : CpuModel ω μ) (model : μ) {watch : Watch}
    {r : Rig ω} (fits : Fits names r) (known : watch.name ∈ names) :
    Attached names watch r (attach cpu model watch r) := by
  have read := keepsAsk (cpu.level model watch.pin) r
  rw [attachRun cpu model fits known]
  generalize ask (cpu.level model watch.pin) r = out at read
  obtain ⟨level, s⟩ := out
  have heard := keepsAsk (cpu.listen model watch.pin ⟨s.nextKey⟩)
    (arm watch.name (publish watch.name level s).2).2
  have all := heard.trans (writeKeeps
    (.record .debug ("attached " ++ watch.name ++ " to " ++ watch.pin.text)) _)
  refine ⟨all.fits (armFits (publishFits (read.fits fits) known level) known), rfl, ?_, ?_, ?_⟩
  · exact congrArg ListenerKey.mk read.nextKey
  · refine all.armed.trans ?_
    show _ :: s.armed = _ :: r.armed
    rw [read.armed]
    rfl
  · refine all.nextKey.trans ?_
    show s.nextKey + 1 = _
    rw [read.nextKey]

/- The effect of subscribing to all watched pins: the newest listener comes first. -/
structure AllAttached (names : List String) (watches : List Watch) (r : Rig ω)
    (out : (μ × List Subscription) × Rig ω) : Prop where
  fits : Fits names out.2
  bound : out.1.2.map watch = watches
  keyed : out.1.2.map key = (List.range' r.nextKey watches.length).map ListenerKey.mk
  armed : out.2.armed = (out.1.2.map armed).reverse ++ r.armed

theorem allAttached {names : List String} (cpu : CpuModel ω μ) (model : μ) {watches : List Watch}
    {r : Rig ω} (fits : Fits names r) (known : ∀ w ∈ watches, w.name ∈ names) :
    AllAttached names watches r (attachAll cpu model watches r) := by
  induction watches generalizing model r with
  | nil => exact ⟨fits, rfl, rfl, rfl⟩
  | cons w rest ih =>
    have first := attached cpu model fits (known w (by simp))
    have others := ih (attach cpu model w r).1.1 first.fits
      (fun v member => known v (List.mem_cons_of_mem _ member))
    have ends : attachAll cpu model (w :: rest) r =
        (((attachAll cpu (attach cpu model w r).1.1 rest (attach cpu model w r).2).1.1,
          (attach cpu model w r).1.2 ::
            (attachAll cpu (attach cpu model w r).1.1 rest (attach cpu model w r).2).1.2),
          (attachAll cpu (attach cpu model w r).1.1 rest (attach cpu model w r).2).2) := rfl
    rw [ends]
    refine ⟨others.fits, ?_, ?_, ?_⟩
    · simp only [List.map_cons, first.bound, others.bound]
    · simp only [List.map_cons, List.length_cons, List.range'_succ, first.key, others.keyed,
        first.nextKey]
    · simp only [others.armed, first.armed, List.map_cons, List.reverse_cons, List.append_assoc,
        List.singleton_append]

section
variable {way : Rig ω → Rig ω → Prop} {cpu : CpuModel ω μ}

theorem attachAlong (composes : PlainWay way) (declare : ∀ name, Along way (declare name))
    (publish : ∀ name level, Along way (publish name level))
    (arm : ∀ name, Along way (arm name))
    (level : ∀ model pin, Along way (ask (cpu.level model pin)))
    (listen : ∀ model pin key, Along way (ask (cpu.listen model pin key))) (model : μ)
    (watch : Watch) : Along way (attach cpu model watch) := by
  refine composes.bind (declare _) fun _ => composes.bind (level _ _) fun shown => ?_
  refine composes.bind (publish _ _) fun _ => composes.bind (arm _) fun key => ?_
  refine composes.bind (listen _ _ _) fun _ => composes.bind (composes.record ?_) fun _ =>
    composes.pure _
  exact Log.Entry.plainPin _ _ _

theorem attachAllAlong (composes : PlainWay way)
    (attach : ∀ model watch, Along way (attach cpu model watch)) (model : μ)
    (watches : List Watch) : Along way (attachAll cpu model watches) := by
  induction watches generalizing model with
  | nil => exact composes.pure _
  | cons w rest ih =>
    exact composes.bind (attach _ _) fun _ => composes.bind (ih _) fun _ => composes.pure _

end

theorem releaseAfter {way : Rig ω → Rig ω → Prop} (composes : PlainWay way) {cpu : CpuModel ω μ}
    (unlisten : ∀ model id, Along way (ask (cpu.unlisten model id))) (model : μ)
    (s : Subscription) (r : Rig ω) : way (disarm s.key r).2 (release cpu model s r).2 := by
  rw [release, bindRun]
  refine composes.bind (unlisten model s.listener) (fun answer => ?_) _
  obtain ⟨model, removed⟩ := answer
  have freed := composes.bind (composes.record (Log.Entry.plainPin .debug
    ("released " ++ s.name ++ " subscription on ") s.pin)) fun _ => composes.pure model
  cases removed with
  | true => exact freed
  | false =>
    refine composes.bind (composes.record ?_) fun _ => freed
    exact Log.Entry.plainEnd (by decide +kernel) _ _

theorem releaseAllAlong {way : Rig ω → Rig ω → Prop} (composes : PlainWay way) {cpu : CpuModel ω μ}
    (disarm : ∀ key, Along way (disarm key))
    (unlisten : ∀ model id, Along way (ask (cpu.unlisten model id))) (model : μ)
    (subscriptions : List Subscription) : Along way (releaseAll cpu model subscriptions) := by
  induction subscriptions generalizing model with
  | nil => exact composes.pure _
  | cons s rest ih =>
    have first : Along way (release cpu model s) := fun r =>
      composes.trans (disarm s.key r) (releaseAfter composes unlisten model s r)
    exact composes.bind first fun model => ih model

theorem released {names : List String} (cpu : CpuModel ω μ) (model : μ) (s : Subscription)
    {r : Rig ω} (fits : Fits names r) :
    Fits names (release cpu model s r).2 ∧
    (release cpu model s r).2.armed = r.armed.filter (·.key ≠ s.key) := by
  have kept := releaseAfter keepsWay.plain (fun model id => keepsAsk (cpu.unlisten model id)) model s r
  exact ⟨kept.fits (disarmFits fits s.key), kept.armed⟩

theorem allReleased {names : List String} (cpu : CpuModel ω μ) (model : μ)
    (subscriptions : List Subscription) {r : Rig ω} (fits : Fits names r) :
    Fits names (releaseAll cpu model subscriptions r).2 ∧
    (releaseAll cpu model subscriptions r).2.armed =
      r.armed.filter (fun a => a.key ∉ subscriptions.map key) := by
  induction subscriptions generalizing model r with
  | nil => exact ⟨fits, (List.filter_eq_self.mpr (by simp)).symm⟩
  | cons s rest ih =>
    obtain ⟨early, left⟩ := released cpu model s fits
    obtain ⟨late, gone⟩ := ih (release cpu model s r).1 early
    have ends : releaseAll cpu model (s :: rest) r =
        releaseAll cpu (release cpu model s r).1 rest (release cpu model s r).2 := rfl
    rw [ends]
    refine ⟨late, ?_⟩
    rw [gone, left, List.filter_filter]
    congr 1
    funext a
    simp only [List.map_cons, List.mem_cons, not_or, Bool.decide_and, ne_eq, Bool.and_comm]

end Subscription

namespace Burst
open Rig

variable {ω μ : Type} {way : Rig ω → Rig ω → Prop} {clock : Clock ω} {cpu : CpuModel ω μ}

theorem stretchRound (clock : Clock ω) (cpu : CpuModel ω μ) (started wall : Duration)
    (left done : Nat) (model : μ) (r : Rig ω) :
    stretch clock cpu started wall (left + 1) done model r =
      if wall ≤ (ask clock r).1 - started then
        ((model, done, .wallClockBudget), (ask clock r).2)
      else
        let stepped := ask (cpu.step model) (ask clock r).2
        match stepped.1.2 with
        | some fault => ((stepped.1.1, done, .faulted fault), stepped.2)
        | none =>
          let ticked := ask (cpu.tick stepped.1.1) stepped.2
          stretch clock cpu started wall left (done + 1) ticked.1 ticked.2 := by
  rw [stretch, bindRun]
  split
  · rfl
  · rw [bindRun]
    generalize ask (cpu.step model) (ask clock r).2 = stepped
    obtain ⟨⟨model, fault⟩, r⟩ := stepped
    cases fault <;> rfl

theorem stretchAlong (composes : PlainWay way) (time : Along way (ask clock))
    (step : ∀ model, Along way (ask (cpu.step model)))
    (tick : ∀ model, Along way (ask (cpu.tick model))) (started wall : Duration)
    (left done : Nat) (model : μ) : Along way (stretch clock cpu started wall left done model) := by
  induction left generalizing done model with
  | zero => exact composes.pure _
  | succ left ih =>
    refine composes.bind time fun now => ?_
    split
    · exact composes.pure _
    · refine composes.bind (step model) fun stepped => ?_
      obtain ⟨model, fault⟩ := stepped
      cases fault with
      | some fault => exact composes.pure _
      | none => exact composes.bind (tick model) fun model => ih _ _

theorem closeAlong (composes : PlainWay way) (time : Along way (ask clock)) (started : Duration)
    (steps : Nat) (exit : Exit) : Along way (close clock started steps exit) := by
  refine composes.bind time fun ended => ?_
  exact composes.bind (composes.record (Log.Entry.plainTrace _)) fun _ => composes.pure _

end Burst

namespace Session
open Rig

variable {ω μ : Type} {way : Rig ω → Rig ω → Prop} {clock : Clock ω} {cpu : CpuModel ω μ}

theorem burstRun (clock : Clock ω) (cpu : CpuModel ω μ) (s : Session μ) (r : Rig ω) :
    s.burst clock cpu r =
      let began := ask clock r
      let out := Burst.stretch clock cpu began.1 s.scheduler.budget.wallClock
        s.scheduler.budget.maxSteps.toNat 0 s.model began.2
      let ended := ask clock out.2
      (({s with
          model := out.1.1
          counters := {s.counters with cycles := s.counters.cycles + out.1.2.1}},
        ⟨out.1.2.1, ended.1 - began.1, out.1.2.2⟩),
        ended.2.write (.record .trace ("burst ran " ++ Text.decimal out.1.2.1 ++ " steps in "
          ++ (ended.1 - began.1).text ++ ": " ++ out.1.2.2.inspect))) := rfl

theorem burstAlong (composes : PlainWay way) (time : Along way (ask clock))
    (step : ∀ model, Along way (ask (cpu.step model)))
    (tick : ∀ model, Along way (ask (cpu.tick model))) (s : Session μ) :
    Along way (s.burst clock cpu) := by
  refine composes.bind ?_ fun ran => composes.pure _
  refine composes.bind time fun started => ?_
  refine composes.bind (Burst.stretchAlong composes time step tick _ _ _ _ _) fun ran => ?_
  exact composes.bind (Burst.closeAlong composes time _ _ _) fun _ => composes.pure _

theorem burstKeeps (clock : Clock ω) (cpu : CpuModel ω μ) (s : Session μ) :
    Along Keeps (s.burst clock cpu) :=
  burstAlong keepsWay.plain (keepsAsk _) (fun _ => keepsAsk _) (fun _ => keepsAsk _) s

def withdraw (host : FrameHost ω) (s : Session μ) : Work ω Unit :=
  match s.scheduler.pending with
  | some token => ask (host.cancel token)
  | none => pure ()

theorem withdrawAlong (composes : PlainWay way) {host : FrameHost ω}
    (cancel : ∀ token, Along way (ask (host.cancel token))) (s : Session μ) :
    Along way (s.withdraw host) := by
  unfold withdraw
  cases s.scheduler.pending with
  | none => exact composes.pure _
  | some token => exact cancel token

theorem closeSteps (cpu : CpuModel ω μ) (host : FrameHost ω) (s : Session μ) :
    s.close cpu host = (do
      s.withdraw host
      let model ← Subscription.releaseAll cpu s.model s.subscriptions
      record .debug (s.id.text ++ " closed after " ++ Text.decimal s.counters.cycles ++ " cycles")
      ask (cpu.discard model)
      return s.counters) := by
  unfold close withdraw Scheduler.cancel
  cases s.scheduler.pending <;> rfl

theorem closeRun (composes : PlainWay way) (cpu : CpuModel ω μ) (host : FrameHost ω)
    (discard : ∀ model, Along way (ask (cpu.discard model))) (s : Session μ) (r : Rig ω) :
    (s.close cpu host r).1 = s.counters ∧
    way (Subscription.releaseAll cpu s.model s.subscriptions (s.withdraw host r).2).2
      (s.close cpu host r).2 := by
  rw [closeSteps]
  refine ⟨rfl, composes.trans (composes.record ?_ _) (discard _ _)⟩
  exact Log.Entry.plainEnd (by decide +kernel) _ _

theorem closeAlong (composes : PlainWay way) {host : FrameHost ω}
    (disarm : ∀ key, Along way (disarm key))
    (unlisten : ∀ model id, Along way (ask (cpu.unlisten model id)))
    (cancel : ∀ token, Along way (ask (host.cancel token)))
    (discard : ∀ model, Along way (ask (cpu.discard model))) (s : Session μ) :
    Along way (s.close cpu host) := by
  intro r
  have early := withdrawAlong composes cancel s r
  have between := Subscription.releaseAllAlong composes disarm unlisten s.model s.subscriptions
    (s.withdraw host r).2
  have late := (closeRun composes cpu host discard s r).2
  exact composes.trans early (composes.trans between late)

theorem closeCounters (cpu : CpuModel ω μ) (host : FrameHost ω) (s : Session μ) (r : Rig ω) :
    (s.close cpu host r).1 = s.counters :=
  (closeRun keepsWay.plain cpu host (fun _ => keepsAsk _) s r).1

theorem closed {names : List String} (cpu : CpuModel ω μ) (host : FrameHost ω) (s : Session μ)
    {r : Rig ω} (fits : Fits names r) :
    Fits names (s.close cpu host r).2 ∧
    (s.close cpu host r).2.armed =
      r.armed.filter (fun a => a.key ∉ s.subscriptions.map Subscription.key) := by
  have early := withdrawAlong keepsWay.plain (fun token => keepsAsk (host.cancel token)) s r
  have late := (closeRun keepsWay.plain cpu host (fun model => keepsAsk (cpu.discard model)) s r).2
  obtain ⟨released, gone⟩ :=
    Subscription.allReleased cpu s.model s.subscriptions (early.fits fits)
  exact ⟨late.fits released, by rw [late.armed, gone, early.armed]⟩

end Session
end VirtualBoard
