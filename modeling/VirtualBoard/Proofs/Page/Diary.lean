import VirtualBoard.Proofs.Page.Runs
import VirtualBoard.Proofs.Signals.Follow

/-! What a page is asked about its pins, written down.

A page may keep a diary in its world: which pins were read and how, which listeners
were added and removed and under which number, which closures were dropped, and
every raw level that a closure was called with, all in order. Nobody reads the
diary, so forgetting it gives back the run of the page without one. -/
namespace VirtualBoard
namespace Page

/- A listener as its page has it: the CPU and the pin it is at, its number and its closure. -/
structure Listener (κ : Type) where
  cpu : κ
  pin : Pin
  id : UInt32
  key : ListenerKey
  deriving DecidableEq, Repr

/- What happens to listeners and their closures. -/
inductive Handling (κ : Type) where
  | added (listener : Listener κ)
  | removed (cpu : κ) (id : UInt32)
  | dropped (key : ListenerKey)
  deriving DecidableEq, Repr

inductive Note (κ : Type) where
  | read (cpu : κ) (pin : Pin) (raw : UInt8)
  | heard (key : ListenerKey) (raw : UInt8)
  | handled (handling : Handling κ)
  deriving DecidableEq, Repr

structure Diary (π κ : Type) where
  page : π
  notes : List (Note κ)

variable {π κ α β : Type}

def Note.handling? : Note κ → Option (Handling κ)
  | handled handling => some handling
  | _ => none

def Note.raw? (key : ListenerKey) : Note κ → Option UInt8
  | heard other raw => if other = key then some raw else none
  | _ => none

def handlings (notes : List (Note κ)) : List (Handling κ) := notes.filterMap Note.handling?

def raws (key : ListenerKey) (notes : List (Note κ)) : List UInt8 := notes.filterMap (Note.raw? key)

def calledWith (calls : List (ListenerKey × UInt8)) : List (Note κ) :=
  calls.map fun call => .heard call.1 call.2

def jot (note : α → List (Note κ)) (call : Call π α) : Call (Diary π κ) α := fun diary =>
  let ⟨value, page, calls⟩ := call diary.page
  ⟨value, ⟨page, diary.notes ++ (calledWith calls ++ note value)⟩, calls⟩

def overhear (call : Call π α) : Call (Diary π κ) α := jot (fun _ => []) call

def noted (p : Page π κ) : Page (Diary π κ) κ where
  codec := p.codec
  step cpu := overhear (p.step cpu)
  tick cpu := overhear (p.tick cpu)
  pinLevel cpu pin := jot (fun raw => [.read cpu pin raw]) (p.pinLevel cpu pin)
  addPinListener cpu pin key :=
    jot (fun id => [.handled (.added ⟨cpu, pin, id, key⟩)]) (p.addPinListener cpu pin key)
  removePinListener cpu id :=
    jot (fun _ => [.handled (.removed cpu id)]) (p.removePinListener cpu id)
  dropClosure key := jot (fun _ => [.handled (.dropped key)]) (p.dropClosure key)
  construct flash := overhear (p.construct flash)
  requestFrame token := overhear (p.requestFrame token)
  cancelFrame token := overhear (p.cancelFrame token)
  performance := p.performance.map overhear
  date := overhear p.date
  print line := overhear (p.print line)

def Entry.noted : Entry π → Entry (Diary π κ)
  | .start source => .start source
  | .completeCompile ticket response => .completeCompile ticket response
  | .failCompile ticket reason => .failCompile ticket reason
  | .stop => .stop
  | .reset => .reset
  | .frame token => .frame token
  | .setLogLevel level => .setLogLevel level
  | .outside call => .outside (overhear call)

end Page
open Page

variable {π κ α β : Type}

def Tab.forget (tab : Tab (Diary π κ)) : Tab π := ⟨tab.page.page, tab.latest⟩

namespace Page

theorem handlingsAppend (early late : List (Note κ)) :
    handlings (early ++ late) = handlings early ++ handlings late := List.filterMap_append

theorem rawsAppend (key : ListenerKey) (early late : List (Note κ)) :
    raws key (early ++ late) = raws key early ++ raws key late := List.filterMap_append

theorem handlingsCalled (calls : List (ListenerKey × UInt8)) :
    handlings (calledWith (κ := κ) calls) = [] := by
  induction calls with
  | nil => rfl
  | cons call rest ih => exact ih

theorem rawsCalled (key : ListenerKey) (calls : List (ListenerKey × UInt8)) :
    heardBy (· = key) (calls.filterMap heard) =
      (raws key (calledWith (κ := κ) calls)).filterMap Level.ofByte? := by
  induction calls with
  | nil => rfl
  | cons call rest ih =>
    obtain ⟨other, raw⟩ := call
    have step : raws key (calledWith (κ := κ) ((other, raw) :: rest)) =
        (if other = key then [raw] else []) ++ raws key (calledWith (κ := κ) rest) := by
      by_cases same : other = key <;> simp [raws, calledWith, Note.raw?, same]
    have called : heardBy (· = key) (((other, raw) :: rest).filterMap heard) =
        (if other = key then (Level.ofByte? raw).toList else []) ++
          heardBy (· = key) (rest.filterMap heard) := by
      cases level : Level.ofByte? raw with
      | none => simp [heard, level]
      | some level' =>
        have parts := heardAppend (· = key) [.called other level'] (rest.filterMap heard)
        simpa [heard, level, heardCalled] using parts
    rw [step, called, ih, List.filterMap_append]
    congr 1
    by_cases same : other = key
    · cases level : Level.ofByte? raw <;> simp [same, level]
    · simp [same]

def Writes (told : α → List (Note κ) → Prop) (act : Act (Tab (Diary π κ)) α) : Prop :=
  ∀ tab, ∃ more, (act tab).world.page.notes = tab.page.notes ++ more ∧ told (act tab).value more ∧
    ∀ key, heardBy (· = key) (act tab).events = (raws key more).filterMap Level.ofByte?

/- An act of a page with a diary beside that of the page alone. -/
structure Recorded (told : α → List (Note κ) → Prop) (above : Act (Tab (Diary π κ)) α)
    (below : Act (Tab π) α) : Prop where
  forgets : Act.Over Tab.forget above below
  writes : Writes told above

def Calm (holds : α → Prop) (value : α) (more : List (Note κ)) : Prop :=
  holds value ∧ handlings more = []

def Idle : α → List (Note κ) → Prop := Calm fun _ => True

namespace Recorded

variable {told : α → List (Note κ) → Prop} {above : Act (Tab (Diary π κ)) α}
  {below : Act (Tab π) α}

theorem weaken {wider : α → List (Note κ) → Prop} (recorded : Recorded told above below)
    (wide : ∀ value more, told value more → wider value more) : Recorded wider above below where
  forgets := recorded.forgets
  writes tab := by
    obtain ⟨more, notes, tells, heard⟩ := recorded.writes tab
    exact ⟨more, notes, wide _ _ tells, heard⟩

theorem jot (note : α → List (Note κ)) (silent : ∀ value key, raws key (note value) = [])
    (call : Call π α) :
    Recorded (fun value more => ∃ calls, more = calledWith calls ++ note value)
      (Page.act (Page.jot note call)) (Page.act call) where
  forgets _ := rfl
  writes tab := by
    refine ⟨_, rfl, ⟨(call tab.page.page).calls, rfl⟩, fun key => ?_⟩
    rw [rawsAppend, silent, List.append_nil]
    exact rawsCalled key _

theorem overhear (call : Call π α) :
    Recorded Idle (Page.act (Page.overhear (κ := κ) call)) (Page.act call) := by
  refine (jot (fun _ => []) (fun _ _ => rfl) call).weaken ?_
  rintro value _ ⟨calls, rfl⟩
  rw [List.append_nil]
  exact ⟨trivial, handlingsCalled calls⟩

theorem pure {value : α} (tells : told value []) :
    Recorded told (Pure.pure value) (Pure.pure value : Act (Tab π) α) where
  forgets _ := rfl
  writes _ := ⟨[], (List.append_nil _).symm, tells, fun _ => rfl⟩

theorem bind {after : α → β → List (Note κ) → Prop} {all : β → List (Note κ) → Prop}
    {next : α → Act (Tab (Diary π κ)) β} {next' : α → Act (Tab π) β}
    (first : Recorded told above below) (second : ∀ a, Recorded (after a) (next a) (next' a))
    (joined : ∀ a b early late, told a early → after a b late → all b (early ++ late)) :
    Recorded all (above >>= next) (below >>= next') where
  forgets tab := by
    have late := (second (above tab).value).forgets (above tab).world
    have run : (below >>= next') tab.forget =
        let early := below tab.forget
        let late := next' early.value early.world
        ⟨late.value, late.world, early.events ++ late.events⟩ := rfl
    rw [run, first.forgets tab]
    dsimp only
    rw [late]
    rfl
  writes tab := by
    obtain ⟨early, notes, tells, heard⟩ := first.writes tab
    obtain ⟨late, further, tells', heard'⟩ := (second (above tab).value).writes (above tab).world
    refine ⟨early ++ late, ?_, joined _ _ early late tells tells', fun key => ?_⟩
    · show (next (above tab).value (above tab).world).world.page.notes = _
      rw [further, notes, List.append_assoc]
    · show heardBy _ ((above tab).events ++ _) = _
      rw [heardAppend, heard, heard', rawsAppend, List.filterMap_append]

theorem calm {holds : β → Prop} {next : α → Act (Tab (Diary π κ)) β}
    {next' : α → Act (Tab π) β} (first : Recorded Idle above below)
    (second : ∀ a, Recorded (Calm holds) (next a) (next' a)) :
    Recorded (Calm holds) (above >>= next) (below >>= next') := by
  refine first.bind second ?_
  rintro _ _ early late ⟨-, idle⟩ ⟨known, calm⟩
  exact ⟨known, by rw [handlingsAppend, idle, calm]; rfl⟩

theorem returns {all : β → List (Note κ) → Prop} (first : Recorded told above below) {value : α → β}
    (tells : ∀ a more, told a more → all (value a) more) :
    Recorded all (above >>= fun a => Pure.pure (value a)) (below >>= fun a => Pure.pure (value a)) := by
  have last : ∀ a, Recorded (fun b more => b = value a ∧ more = [])
      (Pure.pure (value a) : Act (Tab (Diary π κ)) β) (Pure.pure (value a)) := fun a => .pure ⟨rfl, rfl⟩
  refine first.bind last ?_
  rintro a _ early _ told ⟨rfl, rfl⟩
  rw [List.append_nil]
  exact tells a early told

end Recorded

def Reading (cpu : κ) (pin : Pin) (level : Level) (more : List (Note κ)) : Prop :=
  ∃ calls raw, more = calledWith calls ++ [.read cpu pin raw] ∧
    level = (Level.ofByte? raw).getD .low

theorem Reading.idle {cpu : κ} {pin : Pin} {level : Level} {more : List (Note κ)}
    (reading : Reading cpu pin level more) : Idle level more := by
  obtain ⟨calls, raw, rfl, -⟩ := reading
  exact ⟨trivial, by rw [handlingsAppend, handlingsCalled]; rfl⟩

def Adding (m : Model κ) (pin : Pin) (key : ListenerKey) (out : Model κ × ListenerId)
    (more : List (Note κ)) : Prop :=
  out.1 = m.keep out.2.raw key ∧ ∃ calls rest,
    more = calledWith calls ++ .handled (.added ⟨m.cpu, pin, out.2.raw, key⟩) :: rest ∧
    handlings rest = ((m.closure? out.2.raw).map Handling.dropped).toList

def Removing (m : Model κ) (id : ListenerId) (out : Model κ × Bool) (more : List (Note κ)) : Prop :=
  out.1 = m.forget id.raw ∧
    handlings more = .removed m.cpu id.raw :: ((m.closure? id.raw).map Handling.dropped).toList

section
variable (p : Page π κ)

theorem dropRecorded (closure : Option ListenerKey) :
    Recorded (fun _ more => handlings more = (closure.map Handling.dropped).toList)
      (p.noted.dropClosure? closure) (p.dropClosure? closure) := by
  cases closure with
  | none => exact .pure rfl
  | some key =>
    refine (Recorded.jot (fun _ => [.handled (.dropped key)]) (fun _ _ => rfl)
      (p.dropClosure key)).weaken ?_
    rintro _ _ ⟨calls, rfl⟩
    rw [handlingsAppend, handlingsCalled]
    rfl

theorem dropAllRecorded (closures : List (UInt32 × ListenerKey)) :
    Recorded (fun _ more => handlings more = closures.map fun c => .dropped c.2)
      (p.noted.dropAll closures) (p.dropAll closures) := by
  induction closures with
  | nil => exact .pure rfl
  | cons closure rest ih =>
    refine (dropRecorded p (some closure.2)).bind (fun _ => ih) fun _ _ early late first others => ?_
    rw [handlingsAppend, first, others]
    rfl

theorem stepRecorded (m : Model κ) :
    Recorded (Calm fun out => out.1 = m) (p.noted.cpu.step m) (p.cpu.step m) := by
  refine (Recorded.overhear (p.step m.cpu)).calm fun out => ?_
  cases out <;> exact .pure ⟨rfl, rfl⟩

theorem tickRecorded (m : Model κ) :
    Recorded (Calm fun out => out = m) (p.noted.cpu.tick m) (p.cpu.tick m) :=
  (Recorded.overhear (p.tick m.cpu)).calm fun _ => .pure ⟨rfl, rfl⟩

theorem levelRecorded (m : Model κ) (pin : Pin) :
    Recorded (Reading m.cpu pin) (p.noted.cpu.level m pin) (p.cpu.level m pin) := by
  refine (Recorded.jot (fun raw => [.read m.cpu pin raw]) (fun _ _ => rfl)
    (p.pinLevel m.cpu pin)).returns ?_
  exact fun raw more ⟨calls, notes⟩ => ⟨calls, raw, notes, rfl⟩

theorem listenRecorded (m : Model κ) (pin : Pin) (key : ListenerKey) :
    Recorded (Adding m pin key) (p.noted.cpu.listen m pin key) (p.cpu.listen m pin key) := by
  have drops : ∀ id, Recorded
      (fun out rest => out = (m.keep id key, (⟨id⟩ : ListenerId)) ∧
        handlings rest = ((m.closure? id).map Handling.dropped).toList)
      (p.noted.dropClosure? (m.closure? id) >>= fun _ => pure (m.keep id key, ⟨id⟩))
      (p.dropClosure? (m.closure? id) >>= fun _ => pure (m.keep id key, ⟨id⟩)) :=
    fun id => (dropRecorded p (m.closure? id)).returns fun _ _ dropped => ⟨rfl, dropped⟩
  refine (Recorded.jot (fun id => [.handled (.added ⟨m.cpu, pin, id, key⟩)]) (fun _ _ => rfl)
    (p.addPinListener m.cpu pin key)).bind drops ?_
  rintro id _ _ rest ⟨calls, rfl⟩ ⟨rfl, dropped⟩
  exact ⟨rfl, calls, rest, by simp, dropped⟩

theorem unlistenRecorded (m : Model κ) (id : ListenerId) :
    Recorded (Removing m id) (p.noted.cpu.unlisten m id) (p.cpu.unlisten m id) := by
  have drops : ∀ removed : Bool, Recorded
      (fun out more => out.1 = m.forget id.raw ∧
        handlings more = ((m.closure? id.raw).map Handling.dropped).toList)
      (p.noted.dropClosure? (m.closure? id.raw) >>= fun _ =>
        pure (m.forget id.raw, (m.closure? id.raw).isSome || removed))
      (p.dropClosure? (m.closure? id.raw) >>= fun _ =>
        pure (m.forget id.raw, (m.closure? id.raw).isSome || removed)) :=
    fun removed => (dropRecorded p (m.closure? id.raw)).returns fun _ _ dropped => ⟨rfl, dropped⟩
  refine (Recorded.jot (fun _ => [.handled (.removed m.cpu id.raw)]) (fun _ _ => rfl)
    (p.removePinListener m.cpu id.raw)).bind drops ?_
  rintro _ _ _ late ⟨calls, rfl⟩ ⟨same, dropped⟩
  refine ⟨same, ?_⟩
  rw [handlingsAppend, handlingsAppend, handlingsCalled, dropped]
  rfl

theorem makeRecorded (size : Nat) (image : Image) :
    Recorded (Calm fun made => ∀ m, made = .ok m → m.closures = [])
      (p.noted.make size image) (p.make size image) := by
  unfold make
  cases image.flash? size with
  | none => exact .pure ⟨nofun, rfl⟩
  | some flash =>
    refine (Recorded.overhear (p.construct flash)).calm fun made => ?_
    rcases made with thrown | _ | cpu
    · exact .pure ⟨nofun, rfl⟩
    · exact .pure ⟨nofun, rfl⟩
    · refine .pure ⟨?_, rfl⟩
      rintro _ ⟨⟩
      rfl

theorem frameCallRecorded (codec : Script.Codec) (kind : String)
    (call : BurstToken → Call π (Except Script Unit)) (token : BurstToken) :
    Recorded (κ := κ) Idle (frameCall codec kind (fun token => overhear (call token)) token)
      (frameCall codec kind call token) := by
  refine (Recorded.overhear (call token)).calm fun answer => ?_
  cases answer with
  | ok => exact .pure ⟨trivial, rfl⟩
  | error thrown =>
    exact ⟨fun _ => rfl, fun tab => ⟨[], (List.append_nil _).symm, ⟨trivial, rfl⟩, fun _ => rfl⟩⟩

theorem printRecorded (lines : List String) :
    Recorded Idle (Harness.printAll p.noted lines) (Harness.printAll p lines) := by
  induction lines with
  | nil => exact .pure ⟨trivial, rfl⟩
  | cons line rest ih => exact (Recorded.overhear (p.print line)).calm fun _ => ih

theorem clockRecorded : Recorded Idle p.noted.clock p.clock := by
  have reads : p.noted.performance.getD p.noted.date =
      overhear (p.performance.getD p.date) := by
    show (p.performance.map overhear).getD (overhear p.date) = _
    cases p.performance <;> rfl
  constructor
  · intro tab
    unfold clock
    rw [reads]
    rfl
  · intro tab
    unfold clock
    rw [reads]
    exact (Recorded.overhear (p.performance.getD p.date)).writes tab

theorem notedForget (size : Nat) :
    (p.noted.surroundings size).Over Tab.forget (p.surroundings size) where
  clock := (clockRecorded p).forgets
  cpu := {
    step := fun m => (stepRecorded p m).forgets
    tick := fun m => (tickRecorded p m).forgets
    listen := fun m pin key => (listenRecorded p m pin key).forgets
    unlisten := fun m id => (unlistenRecorded p m id).forgets
    level := fun m pin => (levelRecorded p m pin).forgets
    discard := fun m => (dropAllRecorded p m.closures).forgets }
  construct image := (makeRecorded p size image).forgets
  request token := (frameCallRecorded _ _ p.requestFrame token).forgets
  cancel token := (frameCallRecorded _ _ p.cancelFrame token).forgets

end

namespace Harness
open Rig Controller

variable {page : Page π κ}

def forget (h : Harness (Diary π κ) κ) : Harness π κ := ⟨h.controller.onto Tab.forget, h.threshold⟩

theorem envForget (page : Page π κ) (h : Harness (Diary π κ) κ) :
    (h.env page.noted).Over Tab.forget (h.forget.env page) := notedForget page _

theorem flushForget (h : Harness (Diary π κ) κ) :
    (h.flush page.noted).forget = h.forget.flush page := by
  let lines := h.controller.takeLog.1.filterMap (Log.Entry.line? h.threshold)
  have printed := overAsk (printRecorded page lines).forgets h.controller.takeLog.2.rig
  show (⟨_, h.threshold⟩ : Harness π κ) = ⟨h.forget.controller.takeLog.2.inRig
    (ask (printAll page lines) (h.controller.takeLog.2.rig.onto Tab.forget)).2, h.threshold⟩
  rw [printed]
  rfl

def Forgets (command : Command (Tab (Diary π κ))) (command' : Command (Tab π)) : Prop :=
  command.Matched (Onto Tab.forget) command'

theorem commandedForget (h : Harness (Diary π κ) κ) {command : Command (Tab (Diary π κ))}
    {command' : Command (Tab π)} (same : Forgets command command') :
    (h.commanded page.noted command).forget = h.forget.commanded page command' := by
  have after := (performMatched (h.envForget page).matched (ontoLike _ h.controller) same).2.onto
  exact congrArg (Harness.mk · h.threshold) after.symm

theorem commandForgets {codec : Script.Codec} {entry : Entry π} {command' : Command (Tab π)}
    (asked : entry.command? codec = some command') :
    ∃ command, (entry.noted (κ := κ)).command? codec = some command ∧
      Forgets command command' := by
  cases entry with
  | completeCompile ticket response =>
    obtain ⟨read, decoded, rfl⟩ := Option.map_eq_some_iff.mp asked
    exact ⟨_, Option.map_eq_some_iff.mpr ⟨read, decoded, rfl⟩, .complete ticket _⟩
  | start source => cases asked; exact ⟨_, rfl, .start source⟩
  | failCompile ticket reason => cases asked; exact ⟨_, rfl, .complete ticket _⟩
  | stop => cases asked; exact ⟨_, rfl, .stop⟩
  | reset => cases asked; exact ⟨_, rfl, .reset⟩
  | frame token => cases asked; exact ⟨_, rfl, .frame token⟩
  | setLogLevel level => cases asked
  | outside call =>
    cases asked
    exact ⟨_, rfl, .outside (overAsk (Recorded.overhear call).forgets).matched⟩

theorem enterForget (h : Harness (Diary π κ) κ) (entry : Entry π) :
    (h.enter page.noted entry.noted).forget = h.forget.enter page entry := by
  have above := enterCommand page.noted h entry.noted
  have below := enterCommand page h.forget entry
  cases asked : entry.command? page.codec with
  | some command' =>
    obtain ⟨command, noted, same⟩ := commandForgets (κ := κ) asked
    have asking : entry.noted.command? page.noted.codec = some command := noted
    rw [asking] at above
    rw [asked] at below
    dsimp only at above below
    rw [above, below, flushForget, commandedForget h same]
  | none =>
    cases entry with
    | completeCompile ticket response =>
      have unread : page.codec.decode? Build.Response response = none :=
        Option.map_eq_none_iff.mp asked
      have unheard : page.noted.codec.decode? Build.Response response = none := unread
      simp only [Entry.noted, enter, completeCompile, unread, unheard]
    | setLogLevel level =>
      simp only [Entry.noted, enter, setLogLevel]
      cases threshold? level <;> rfl
    | _ => cases asked

theorem runForget (h : Harness (Diary π κ) κ) (entries : List (Entry π)) :
    (h.run page.noted (entries.map Entry.noted)).forget = h.forget.run page entries := by
  induction entries generalizing h with
  | nil => rfl
  | cons entry rest ih =>
    have later := ih (h.enter page.noted entry.noted)
    rw [enterForget] at later
    exact later

theorem newForget (config : Script) (world : π) {ready : Harness (Diary π κ) κ}
    (made : new page.noted config ⟨world, []⟩ = .ok ready) :
    new page config world = .ok ready.forget := by
  unfold new at made ⊢
  cases read : settings? page config with
  | none =>
    have unread : settings? page.noted config = none := read
    rw [unread] at made
    cases made
  | some settings =>
    have given : settings? page.noted config = some settings := read
    rw [given] at made
    dsimp only at made ⊢
    unfold Controller.new at made ⊢
    cases problem : settings.problem? with
    | some problem => rw [problem] at made; cases made
    | none =>
      rw [problem] at made
      cases made
      let board := settings.watch.foldl (fun b w => b.declare w.name) Board.empty
      let ready (out : Unit × Rig (Tab π)) : Except Thrown (Harness π κ) :=
        .ok ⟨⟨settings, .idle, ⟨0⟩, 0, 0, out.2⟩, .upTo .info⟩
      exact congrArg ready (overAsk (Recorded.overhear (page.print "harness ready")).forgets
        (Rig.new (⟨⟨world, []⟩, .zero⟩ : Tab (Diary π κ)) board))

end Harness
end Page
end VirtualBoard
