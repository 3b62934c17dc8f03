import VirtualBoard.Proofs.Page.Custody
import VirtualBoard.Proofs.Signals.Sessions

/-! The levels that come in through closures, in the signals of a session.

A pin is read, its level is shown and then its listener is added, with nobody acting
in between. From then on the signal has the last known level that the closure was
called with, or what was read; a raw level that is none changes nothing. -/
namespace VirtualBoard
open Page Rig

variable {π κ : Type}

def Subscription.ears (subs : List Subscription) (key : ListenerKey) (pin : Pin) : Prop :=
  ∃ s ∈ subs, s.key = key ∧ s.pin = pin

namespace Page

/- A signal since its listener was added, which was done right after its pin had been read: it has
the last known level that the closure was called with after that, or else what was read. -/
structure Tuned (cpu : κ) (s : Subscription) (raw : UInt8) (after : List (Note κ))
    (r : Rig (Tab (Diary π κ))) : Prop where
  notes : ∃ earlier, r.world.page.notes = earlier ++ .read cpu s.pin raw :: after
  added : ∃ calls since,
    after = calledWith calls ++ .handled (.added (.ofSubscription cpu s)) :: since
  level : ∃ signal, r.board.find? s.name = some signal ∧ signal.level =
    ((raws s.key after).filterMap Level.ofByte?).getLastD ((Level.ofByte? raw).getD .low)

def Hears (cpu : κ) (s : Subscription) (r : Rig (Tab (Diary π κ))) : Prop :=
  ∃ raw after, Tuned cpu s raw after r

/- A rig in which some pins of a model are watched. -/
structure Tended (names : List String) (subs : List Subscription) (m : Model κ)
    (r : Rig (Tab (Diary π κ))) : Prop where
  hooked : Hooked (Subscription.ears subs) names subs r
  hears : ∀ s ∈ subs, Hears m.cpu s r
  tallies : Tallies (subs.map (.ofSubscription m.cpu)) m.closures (handled r)

variable {names : List String} {subs : List Subscription} {m : Model κ}
  {r : Rig (Tab (Diary π κ))}

section
variable {α : Type} {act : Act (Tab (Diary π κ)) α}

theorem heardFind {ears : ListenerKey → Pin → Prop} (hooked : Hooked ears names subs r)
    {s : Subscription} (member : s ∈ subs) {more : List (Note κ)}
    (heard : ∀ key, heardBy (· = key) (act r.world).events =
      (raws key more).filterMap Level.ofByte?) :
    (ask act r).2.board.find? s.name = (r.board.find? s.name).map fun signal =>
      signal.after ((raws s.key more).filterMap Level.ofByte?) := by
  rw [askFind hooked.fits act, hooked.heard member, heard]

theorem Hears.ask {tells : α → List (Note κ) → Prop} {ears : ListenerKey → Pin → Prop} {cpu : κ}
    {s : Subscription} (hears : Hears cpu s r) (writes : Writes tells act)
    (hooked : Hooked ears names subs r) (member : s ∈ subs) : Hears cpu s (ask act r).2 := by
  obtain ⟨raw, after, tuned⟩ := hears
  obtain ⟨earlier, notes⟩ := tuned.notes
  obtain ⟨calls, since, added⟩ := tuned.added
  obtain ⟨signal, found, level⟩ := tuned.level
  obtain ⟨more, wrote, -, heard⟩ := writes r.world
  refine ⟨raw, after ++ more, ⟨earlier, ?_⟩, ⟨calls, since ++ more, ?_⟩, ?_⟩
  · rw [askWorld, wrote, notes, List.append_assoc, List.cons_append]
  · rw [added, List.append_assoc, List.cons_append]
  · refine ⟨_, by rw [heardFind hooked member heard, found]; rfl, ?_⟩
    rw [rawsAppend, List.filterMap_append, getLastDAppend, ← level]
    rfl

theorem Tended.ask {holds : α → Prop} (tended : Tended names subs m r)
    (writes : Writes (Calm holds) act) : Tended names subs m (ask act r).2 where
  hooked := tended.hooked.kept (keepsAsk act r)
  hears s member := (tended.hears s member).ask writes tended.hooked member
  tallies := by
    rw [show handled (Rig.ask act r).2 = handled r from writes.unhandled r]
    exact tended.tallies

theorem Tended.still {after : Rig (Tab (Diary π κ))} (tended : Tended names subs m r)
    (kept : Keeps r after) (world : after.world = r.world) (board : after.board = r.board) :
    Tended names subs m after where
  hooked := tended.hooked.kept kept
  hears s member := by
    obtain ⟨raw, later, notes, added, level⟩ := tended.hears s member
    exact ⟨raw, later, by rw [world]; exact notes, added, by rw [board]; exact level⟩
  tallies := by
    rw [handled, world]
    exact tended.tallies

theorem Tended.write (tended : Tended names subs m r) (entry : Log.Entry) :
    Tended names subs m (r.write entry) := tended.still (writeKeeps entry r) rfl rfl

end

theorem Tended.start (fits : Rig.Fits names r) (quiet : r.armed = [])
    (tallies : Tallies [] m.closures (handled r)) : Tended names [] m r where
  hooked := ⟨fits, by simp [name?, quiet], List.nodup_nil, by simp [Subscription.ears]⟩
  hears := by simp
  tallies := tallies

theorem Hears.handing {cpu : κ} {s : Subscription} (hears : Hears cpu s r) (fits : Rig.Fits names r)
    {name : String} (known : name ∈ names) (apart : s.name ≠ name) (level : Level) :
    Hears cpu s (arm name (publish name level r).2).2 := by
  obtain ⟨raw, after, notes, added, signal, found, held⟩ := hears
  have there : name ∈ r.board.names := by
    rw [fits.board]
    exact known
  have same : (r.board.publish name level).2.find? s.name = r.board.find? s.name := by
    rw [Board.publishFind there, if_neg apart]
    exact Option.map_id'
  exact ⟨raw, after, notes, added, signal, same.trans found, held⟩

theorem Hears.begins {ears : ListenerKey → Pin → Prop} (hooked : Hooked ears names subs r)
    {s : Subscription} (member : s ∈ subs) {raw : UInt8}
    (read : ∃ earlier, r.world.page.notes = earlier ++ [.read m.cpu s.pin raw])
    (shown : ∃ signal, r.board.find? s.name = some signal ∧
      signal.level = (Level.ofByte? raw).getD .low)
    {act : Act (Tab (Diary π κ)) (Model κ × ListenerId)} (writes : Writes (Adding m s.pin s.key) act)
    (given : s.listener = (Rig.ask act r).1.2) : Hears m.cpu s (Rig.ask act r).2 := by
  obtain ⟨earlier, before⟩ := read
  obtain ⟨signal, found, level⟩ := shown
  obtain ⟨more, wrote, ⟨-, calls, rest, added, -⟩, heard⟩ := writes r.world
  have after := heardFind hooked member heard
  rw [found] at after
  refine ⟨raw, more, ⟨earlier, ?_⟩, ⟨calls, rest, ?_⟩, _, after, ?_⟩
  · rw [askWorld, wrote, before, List.append_assoc]
    rfl
  · rw [added, Listener.ofSubscription, given]
    rfl
  · rw [← level]
    rfl

theorem Tended.joined (tended : Tended names subs m r) {watch : Watch}
    (known : watch.name ∈ names) (apart : watch.name ∉ subs.map Subscription.name) {raw : UInt8}
    (read : ∃ earlier, r.world.page.notes = earlier ++ [.read m.cpu watch.pin raw])
    {act : Act (Tab (Diary π κ)) (Model κ × ListenerId)}
    (writes : Writes (Adding m watch.pin ⟨r.nextKey⟩) act) :
    let level := (Level.ofByte? raw).getD .low
    let out := Rig.ask act (arm watch.name (publish watch.name level r).2).2
    Tended names (subs ++ [⟨out.1.2, watch.pin, watch.name, ⟨r.nextKey⟩⟩]) out.1.1 out.2 := by
  intro level
  let handed := (arm watch.name (publish watch.name level r).2).2
  obtain ⟨more, handles, adding⟩ := writes.asked handed
  have cpu : (Rig.ask act handed).1.1.cpu = m.cpu := by
    rw [adding.1]
    rfl
  have hooked := (tended.hooked.published known level).arm known apart watch.pin
    (Rig.ask act handed).1.2
  have kept := hooked.kept (keepsAsk act handed)
  refine ⟨⟨kept.fits, kept.armed, kept.distinct, fun _ _ => Iff.rfl⟩, fun s member => ?_, ?_⟩
  · rw [cpu]
    rcases List.mem_append.mp member with old | new
    · have other : s.name ≠ watch.name := fun same =>
        apart (List.mem_map.mpr ⟨s, old, same⟩)
      exact ((tended.hears s old).handing tended.hooked.fits known other level).ask writes hooked
        member
    · obtain rfl := List.mem_singleton.mp new
      have there : watch.name ∈ r.board.names := by
        rw [tended.hooked.fits.board]
        exact known
      obtain ⟨first, found⟩ := Board.findKnown there
      have shown : handed.board.find? watch.name = some (first.after [level]) := by
        show (r.board.publish watch.name level).2.find? watch.name = _
        rw [Board.publishFind there, found, if_pos rfl]
        rfl
      exact .begins hooked member read ⟨_, shown, rfl⟩ writes rfl
  · rw [List.map_append, cpu, handles]
    exact tended.tallies.add adding

end Page

section
variable (p : Page π κ) {names : List String} {subs : List Subscription} {m : Model κ}
  {r : Rig (Tab (Diary π κ))}

theorem Subscription.attachTended {watch : Watch} (tended : Tended names subs m r)
    (known : watch.name ∈ names) (apart : watch.name ∉ subs.map Subscription.name) :
    Tended names (subs ++ [(attach p.noted.cpu m watch r).1.2])
      (attach p.noted.cpu m watch r).1.1 (attach p.noted.cpu m watch r).2 := by
  have reading := levelRecorded p m watch.pin
  have reads := tended.ask (reading.weaken fun _ _ => Reading.idle).writes
  obtain ⟨_, wrote, ⟨calls, raw, rfl, level⟩, -⟩ := reading.writes r.world
  have last : ∃ earlier, (ask (p.noted.cpu.level m watch.pin) r).2.world.page.notes =
      earlier ++ [.read m.cpu watch.pin raw] :=
    ⟨r.world.page.notes ++ calledWith calls, by rw [askWorld, wrote, List.append_assoc]⟩
  have joined := reads.joined known apart last (listenRecorded p m watch.pin _).writes
  rw [← level] at joined
  rw [attachRun p.noted.cpu m tended.hooked.fits known]
  exact joined.write _

theorem Subscription.attachAllTended {watches : List Watch} (tended : Tended names subs m r)
    (known : ∀ w ∈ watches, w.name ∈ names)
    (distinct : (subs.map Subscription.name ++ watches.map Watch.name).Nodup) :
    Tended names (subs ++ (attachAll p.noted.cpu m watches r).1.2)
      (attachAll p.noted.cpu m watches r).1.1 (attachAll p.noted.cpu m watches r).2 := by
  induction watches generalizing subs m r with
  | nil =>
    have ends : attachAll p.noted.cpu m [] r = ((m, []), r) := rfl
    rw [ends, List.append_nil]
    exact tended
  | cons w rest ih =>
    have apart : w.name ∉ subs.map Subscription.name := fun twice =>
      (List.nodup_append.mp distinct).2.2 _ twice _ (List.mem_cons_self ..) rfl
    have first := attachTended p tended (known w (List.mem_cons_self ..)) apart
    have bound := (attached p.noted.cpu m tended.hooked.fits
      (known w (List.mem_cons_self ..))).bound
    have ends : attachAll p.noted.cpu m (w :: rest) r =
        let out := attach p.noted.cpu m w r
        let others := attachAll p.noted.cpu out.1.1 rest out.2
        ((others.1.1, out.1.2 :: others.1.2), others.2) := rfl
    rw [ends]
    generalize attach p.noted.cpu m w r = out at first bound
    have named : (subs ++ [out.1.2]).map Subscription.name =
        subs.map Subscription.name ++ [w.name] := by
      rw [List.map_append, List.map_singleton, ← bound]
      rfl
    have others := ih first (fun v member => known v (List.mem_cons_of_mem _ member)) (by
      rw [named, List.append_assoc]
      exact distinct)
    rw [List.append_assoc] at others
    exact others

theorem Session.burstTended (s : Session (Model κ)) (size : Nat)
    (tended : Tended names s.subscriptions s.model r) :
    let env := p.noted.surroundings size
    (∀ q ∈ s.path env.clock env.cpu r, Tended names s.subscriptions q.1 q.2) ∧
    Tended names (s.burst env.clock env.cpu r).1.1.subscriptions
      (s.burst env.clock env.cpu r).1.1.model (s.burst env.clock env.cpu r).2 := by
  intro env
  let subs := s.subscriptions
  have time : ∀ {m r}, Tended names subs m r →
      Tended names subs m (ask p.noted.clock r).2 :=
    fun tended => tended.ask (clockRecorded p).writes
  have step : ∀ {m r}, Tended names subs m r →
      Tended names subs (ask (p.noted.cpu.step m) r).1.1 (ask (p.noted.cpu.step m) r).2 := by
    intro m r tended
    have stepped := (stepRecorded p m).writes
    obtain ⟨-, -, same, -⟩ := stepped.asked r
    rw [same]
    exact tended.ask stepped
  have tick : ∀ {m r}, Tended names subs m r →
      Tended names subs (ask (p.noted.cpu.tick m) r).1 (ask (p.noted.cpu.tick m) r).2 := by
    intro m r tended
    have ticked := (tickRecorded p m).writes
    obtain ⟨-, -, same, -⟩ := ticked.asked r
    rw [same]
    exact tended.ask ticked
  obtain ⟨inside, ends⟩ := Burst.stretchHolds time step tick (ask p.noted.clock r).1
    s.scheduler.budget.wallClock s.scheduler.budget.maxSteps.toNat 0 (time tended)
  rw [burstRun]
  exact ⟨inside, (time ends).write _⟩

end
end VirtualBoard
