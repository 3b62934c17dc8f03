import VirtualBoard.Proofs.Signals.Gauge
import VirtualBoard.Settings

/-! A CPU model with a table of listeners.

Its pins keep the level they were last set to. What a step and a tick set is given
by a program; after each setting every listener in the table at that pin is called.
Such a model heeds its listeners whatever the program is. -/
namespace VirtualBoard

/- The table of listeners, and all that has been set. -/
structure Bench where
  table : List (ListenerKey × Pin)
  done : List Drive

namespace Bench

variable {α : Type}

def level (w : Bench) (pin : Pin) : Level := (Drive.on pin w.done).getLastD .low

def calls (table : List (ListenerKey × Pin)) (drive : Drive) : List Event :=
  (table.filter (·.2 = drive.pin)).map fun ear => .called ear.1 drive.level

def drive (drives : List Drive) (value : α) : Act Bench α := fun w =>
  ⟨value, {w with done := w.done ++ drives}, drives.flatMap (calls w.table)⟩

def cpu (program between : Nat → List Drive) : CpuModel Bench Nat where
  step n := drive (program n) (n + 1, none)
  tick n := drive (between n) n
  listen n pin key := fun w => ⟨(n, ⟨0⟩), {w with table := (key, pin) :: w.table}, []⟩
  unlisten n _ := pure (n, true)
  level _ pin := fun w => ⟨w.level pin, w, []⟩
  discard _ := pure ()

def surroundings (program between : Nat → List Drive) : Surroundings Bench Nat where
  clock := fun w => ⟨.zero, w, []⟩
  cpu := cpu program between
  construct _ := fun w => ⟨.ok 0, {w with table := []}, []⟩
  host := ⟨fun _ => pure (), fun _ => pure ()⟩

def gauge : Gauge Bench Nat where
  level _ w pin := w.level pin
  Listens _ w key pin := (key, pin) ∈ w.table
  Sound _ w := (w.table.map Prod.fst).Nodup
  drives act w := (act w).world.done.drop w.done.length

def toggle (n : Nat) : List Drive :=
  [⟨.led, if n % 2 = 0 then .high else .low⟩, ⟨⟨'B', 1⟩, .high⟩]

def settings : Settings :=
  {Settings.standard with
    budget := ⟨.ofMillis 16, 3⟩
    watch := [⟨"led", .led⟩, ⟨"lamp", .led⟩, ⟨"buzzer", ⟨'B', 1⟩⟩]}

def begin : Command Bench :=
  .startWith "" fun _ => pure (.ok ⟨some ":020000000102FB\n:00000001FF", none⟩)

theorem callsOthers {table : List (ListenerKey × Pin)} {key : ListenerKey}
    (apart : key ∉ table.map Prod.fst) (drive : Drive) :
    heardBy (· = key) (calls table drive) = [] := by
  refine List.filterMap_eq_nil_iff.mpr fun event called => ?_
  obtain ⟨ear, inside, rfl⟩ := List.mem_map.mp called
  refine if_neg fun same => apart ?_
  rw [← of_decide_eq_true same]
  exact List.mem_map_of_mem (List.mem_filter.mp inside).1

theorem callsOwn {table : List (ListenerKey × Pin)} (distinct : (table.map Prod.fst).Nodup)
    {key : ListenerKey} {pin : Pin} (listens : (key, pin) ∈ table) (drive : Drive) :
    heardBy (· = key) (calls table drive) = Drive.on pin [drive] := by
  induction table with
  | nil => cases listens
  | cons ear rest ih =>
    obtain ⟨apart, others⟩ := List.nodup_cons.mp distinct
    have parts : calls (ear :: rest) drive = calls [ear] drive ++ calls rest drive := by
      simp only [calls, ← List.map_append, ← List.filter_append, List.singleton_append]
    rw [parts, heardAppend]
    rcases List.mem_cons.mp listens with rfl | later
    · rw [callsOthers apart, List.append_nil]
      by_cases same : drive.pin = pin
      · simp [calls, Drive.on, same, heardCalled]
      · simp [calls, Drive.on, same, Ne.symm same, heardBy]
    · have unheard : key ∉ [ear].map Prod.fst := fun same => by
        rw [List.map_singleton, List.mem_singleton] at same
        exact apart (List.mem_map.mpr ⟨_, later, same⟩)
      rw [callsOthers unheard, List.nil_append, ih others later]

theorem driveHeeds {w : Bench} {n : Nat} (sound : gauge.Sound n w) (drives : List Drive)
    (value : α) (after : Nat) :
    gauge.Heeds (gauge.Listens n w) (drive drives value) w n after := by
  have made : gauge.drives (drive drives value) w = drives := List.drop_left
  refine ⟨sound, fun pin => ?_, fun key pin listens => ?_, fun _ _ => Iff.rfl⟩
  · rw [made]
    show (Drive.on pin (w.done ++ drives)).getLastD .low = _
    rw [Drive.onAppend, getLastDAppend]
    rfl
  · rw [made]
    show heardBy _ (drives.flatMap (calls w.table)) = _
    clear made
    induction drives with
    | nil => rfl
    | cons first rest ih =>
      have parts := Drive.onAppend pin [first] rest
      rw [List.singleton_append] at parts
      rw [List.flatMap_cons, heardAppend, callsOwn sound listens, ih, parts]

theorem stillHeeds {act : Act Bench α} {w : Bench} {n : Nat} (sound : gauge.Sound n w)
    (still : (act w).world = w) (silent : (act w).events = []) :
    gauge.Heeds (gauge.Listens n w) act w n n := by
  have made : gauge.drives act w = [] := by
    show (act w).world.done.drop w.done.length = []
    rw [still]
    exact List.drop_length
  refine ⟨?_, fun pin => ?_, fun key pin _ => ?_, fun key pin => ?_⟩
  · rw [still]
    exact sound
  · rw [made, still]
    rfl
  · rw [made, silent]
    rfl
  · rw [still]

theorem faithful (program between : Nat → List Drive) :
    gauge.Faithful (surroundings program between) where
  construct _ _ _ _ := ⟨List.nodup_nil, fun _ _ => List.not_mem_nil⟩
  step n _ sound := driveHeeds sound (program n) (n + 1, none) (n + 1)
  tick n _ sound := driveHeeds sound (between n) n n
  level _ _ _ sound := ⟨stillHeeds sound rfl rfl, rfl⟩
  listen n pin key w sound unheard := by
    have made : gauge.drives ((cpu program between).listen n pin key) w = [] := List.drop_length
    refine ⟨List.nodup_cons.mpr ⟨fun known => ?_, sound⟩, fun place => ?_, fun ear place _ => ?_,
      fun ear place => ?_⟩
    · obtain ⟨⟨_, place⟩, there, rfl⟩ := List.mem_map.mp known
      exact unheard place there
    · show _ = (Drive.on place (gauge.drives ((cpu program between).listen n pin key) w)).getLastD _
      rw [made]
      rfl
    · show _ = Drive.on place (gauge.drives ((cpu program between).listen n pin key) w)
      rw [made]
      rfl
    · show (ear, place) ∈ (key, pin) :: w.table ↔ _
      rw [List.mem_cons, Prod.mk.injEq, or_comm]
      rfl
  clock _ _ sound := stillHeeds sound rfl rfl
  request _ _ _ sound := stillHeeds sound rfl rfl

end Bench
end VirtualBoard
