import VirtualBoard.Proofs.Session

/-! How a signal follows the levels it is given, and a board its listeners.

The level of a signal is the last one it was given, and its count grows with each
level that differs from the one before. What happens while an outside party is at
work changes a signal only through the listener armed under its name, so only the
levels that listener was called with matter. -/
namespace VirtualBoard

def Level.turns (level : Level) : List Level → Nat
  | [] => 0
  | next :: rest => (if next = level then 0 else 1) + next.turns rest

theorem getLastDAppend {α : Type} (early late : List α) (first : α) :
    (early ++ late).getLastD first = late.getLastD (early.getLastD first) := by
  induction early generalizing first with
  | nil => rfl
  | cons next rest ih => simp only [List.cons_append, List.getLastD_cons, ih]

theorem Level.turnsAppend (level : Level) (early late : List Level) :
    level.turns (early ++ late) = level.turns early + (early.getLastD level).turns late := by
  induction early generalizing level with
  | nil => simp [turns]
  | cons next rest ih => simp only [List.cons_append, turns, List.getLastD_cons, ih, Nat.add_assoc]

namespace Signal

def after (s : Signal) (levels : List Level) : Signal :=
  ⟨s.name, levels.getLastD s.level, s.changes + s.level.turns levels⟩

theorem afterNone (s : Signal) : s.after [] = s := rfl

theorem afterAppend (s : Signal) (early late : List Level) :
    s.after (early ++ late) = (s.after early).after late := by
  simp only [after, getLastDAppend, Level.turnsAppend, Nat.add_assoc]

theorem takeOwn (s : Signal) (level : Level) : s.take s.name level = s.after [level] := by
  by_cases same : level = s.level
  · simp [take, Differs, after, Level.turns, same]
  · simp [take, Differs, after, Level.turns, same, Ne.symm same]

theorem takeApart {name : String} {s : Signal} (apart : s.name ≠ name) (level : Level) :
    s.take name level = s := if_neg fun differs => apart differs.1

theorem takeName (name : String) (level : Level) (s : Signal) : (s.take name level).name = s.name := by
  unfold take
  split <;> rfl

end Signal

namespace Board

theorem findNamed {b : Board} {name : String} {s : Signal} (found : b.find? name = some s) :
    s.name = name := by simpa using List.find?_some found

theorem findKnown {b : Board} {name : String} (known : name ∈ b.names) :
    ∃ s, b.find? name = some s := by
  obtain ⟨s, member, rfl⟩ := List.mem_map.mp known
  exact Option.isSome_iff_exists.mp (List.find?_isSome.mpr ⟨s, member, by simp⟩)

theorem publishFind {b : Board} {name : String} (known : name ∈ b.names) (level : Level)
    (other : String) : (b.publish name level).2.find? other =
      (b.find? other).map fun s => s.after (if other = name then [level] else []) := by
  have declared : b.declare name = b := if_pos known
  have named : (fun s : Signal => decide (s.name = other)) ∘ Signal.take name level =
      fun s => decide (s.name = other) := by
    funext s
    simp only [Function.comp_apply, Signal.takeName]
  have mapped : (b.publish name level).2.find? other =
      (b.find? other).map (Signal.take name level) := by
    simp only [publish, declared, find?, List.find?_map, named]
  rw [mapped]
  refine Option.map_congr fun s found => ?_
  obtain rfl := findNamed found
  split
  · rename_i same
    rw [← same, Signal.takeOwn]
  · rename_i apart
    rw [Signal.takeApart apart, Signal.afterNone]

end Board

def Event.heard? (mine : ListenerKey → Bool) : Event → Option Level
  | .called key level => if mine key then some level else none
  | .logged _ => none

def heardBy (mine : ListenerKey → Bool) (events : List Event) : List Level :=
  events.filterMap (Event.heard? mine)

theorem heardAppend (mine : ListenerKey → Bool) (early late : List Event) :
    heardBy mine (early ++ late) = heardBy mine early ++ heardBy mine late :=
  List.filterMap_append

theorem heardLogged (mine : ListenerKey → Bool) (entry : Log.Entry) :
    heardBy mine [.logged entry] = [] := rfl

theorem heardCalled (mine : ListenerKey → Bool) (key : ListenerKey) (level : Level) :
    heardBy mine [.called key level] = if mine key then [level] else [] := by
  cases own : mine key <;> simp [heardBy, Event.heard?, own]

namespace Rig

variable {ω : Type} {names : List String} {r : Rig ω}

theorem Keeps.name? {s : Rig ω} (kept : Keeps r s) : s.name? = r.name? := by
  funext key
  simp only [Rig.name?, kept.armed]

theorem takeFind (fits : Fits names r) (event : Event) (name : String) :
    (r.take event).board.find? name = (r.board.find? name).map fun s =>
      s.after (heardBy (fun key => r.name? key = some name) [event]) := by
  cases event with
  | logged entry => simp [take, write, heardLogged, Signal.afterNone]
  | called key level =>
    rw [heardCalled]
    cases found : r.name? key with
    | none => simp [take, call, found, Signal.afterNone]
    | some other =>
      obtain ⟨a, armed, -, rfl⟩ := nameMember found
      have known : a.name ∈ r.board.names := by
        rw [fits.board]
        exact fits.armed a armed
      have board : (r.take (.called key level)).board = (r.board.publish a.name level).2 := by
        simp only [take, call, found]
        split <;> rfl
      simp only [board, Board.publishFind known, Option.some.injEq, decide_eq_true_eq,
        @eq_comm _ name]

theorem takeAllFind (fits : Fits names r) (events : List Event) (name : String) :
    (events.foldl take r).board.find? name = (r.board.find? name).map fun s =>
      s.after (heardBy (fun key => r.name? key = some name) events) := by
  induction events generalizing r with
  | nil => simp [heardBy, Signal.afterNone]
  | cons event rest ih =>
    have kept := takeKeeps r event
    have parts := heardAppend (fun key => r.name? key = some name) [event] rest
    rw [List.singleton_append] at parts
    rw [List.foldl_cons, ih (kept.fits fits), kept.name?, takeFind fits, Option.map_map, parts]
    simp only [Function.comp_def, Signal.afterAppend]

theorem askFind {α : Type} (fits : Fits names r) (act : Act ω α) (name : String) :
    (ask act r).2.board.find? name = (r.board.find? name).map fun s =>
      s.after (heardBy (fun key => r.name? key = some name) (act r.world).events) :=
  takeAllFind (r := {r with world := (act r.world).world}) ⟨fits.board, fits.armed, fits.keys⟩
    (act r.world).events name

theorem askApart {α : Type} (fits : Fits names r) {name : String}
    (unarmed : ∀ a ∈ r.armed, a.name ≠ name) (act : Act ω α) :
    (ask act r).2.board.find? name = r.board.find? name := by
  have deaf : (fun key => decide (r.name? key = some name)) = fun _ => false := by
    funext key
    refine decide_eq_false fun heard => ?_
    obtain ⟨a, armed, -, same⟩ := nameMember heard
    exact unarmed a armed same
  have none : ∀ events, heardBy (fun _ => false) events = [] := by
    intro events
    induction events with
    | nil => rfl
    | cons event rest ih => cases event <;> exact ih
  have all := askFind fits act name
  simp only [deaf, none, Signal.afterNone] at all
  exact all.trans Option.map_id'

end Rig
end VirtualBoard
