import Mathlib.Data.List.Induction
import VirtualBoard.Proofs.Signals.Logged

/-! A board is what was written to it.

Names stand in the order in which they were mentioned first. A signal has the level that was
published last under its name since the board was cleared, and has changed as often as a level
published since then was not the one before it; at first and after a clearing it is low. -/
namespace VirtualBoard.Board

inductive Write where
  | declare (name : String)
  | publish (name : String) (level : Level)
  | clear
  deriving DecidableEq, Repr

namespace Write

def name? : Write → Option String
  | declare name | publish name _ => some name
  | clear => none

def level? (name : String) : Write → Option Level
  | publish other level => if other = name then some level else none
  | declare _ | clear => none

end Write

def write (b : Board) : Write → Board
  | .declare name => b.declare name
  | .publish name level => (b.publish name level).2
  | .clear => b.clear

/- The board after some writes, the oldest first. -/
def after (writes : List Write) : Board := writes.foldl write empty

def mentions (writes : List Write) : List String := (writes.filterMap Write.name?).eraseDups

def recent (writes : List Write) : List Write :=
  (writes.reverse.takeWhile fun w => w ≠ .clear).reverse

def levels (name : String) (writes : List Write) : List Level :=
  (recent writes).filterMap (Write.level? name)

def changes (b : Board) (name : String) : Nat := ((b.find? name).map Signal.changes).getD 0

def entry (writes : List Write) (name : String) : Signal :=
  (Signal.fresh name).after (levels name writes)

/-! One write more. -/
section Newest
variable (writes : List Write) (name : String)

theorem afterSnoc (w : Write) : after (writes ++ [w]) = (after writes).write w :=
  List.foldl_concat ..

theorem mentionsClear : mentions (writes ++ [.clear]) = mentions writes := by
  rw [mentions, List.filterMap_append]
  exact congrArg List.eraseDups (List.append_nil _)

theorem mentionsSnoc {w : Write} (named : w.name? = some name) : mentions (writes ++ [w]) =
    if name ∈ mentions writes then mentions writes else mentions writes ++ [name] := by
  have more : (writes ++ [w]).filterMap Write.name? = writes.filterMap Write.name? ++ [name] := by
    simp [named]
  have one : [name].eraseDups = [name] := rfl
  simp only [mentions, more, List.eraseDups_append, List.mem_eraseDups]
  generalize writes.filterMap Write.name? = early
  split
  · rename_i old
    simp [List.removeAll, old]
  · rename_i new
    simp [List.removeAll, new, one]

theorem levelsClear : levels name (writes ++ [.clear]) = [] := by
  simp [levels, recent]

theorem levelsSnoc {w : Write} (same : w ≠ .clear) :
    levels name (writes ++ [w]) = levels name writes ++ (w.level? name).toList := by
  have later : recent (writes ++ [w]) = recent writes ++ [w] := by simp [recent, same]
  rw [levels, later, List.filterMap_append, ← levels]
  cases level : w.level? name <;> simp [level]

theorem levelsUnmentioned {writes : List Write} {name : String} (new : name ∉ mentions writes) :
    levels name writes = [] := by
  refine List.filterMap_eq_nil_iff.mpr fun w member => ?_
  have written : w ∈ writes := by
    have part := (List.takeWhile_sublist fun w => decide (w ≠ Write.clear)).subset
      (List.mem_reverse.mp member)
    exact List.mem_reverse.mp part
  cases w with
  | publish other level =>
    refine if_neg fun own => new (List.mem_eraseDups.mpr ?_)
    exact List.mem_filterMap.mpr ⟨_, written, congrArg some own⟩
  | _ => rfl

theorem entryUnmentioned {writes : List Write} {name : String} (new : name ∉ mentions writes) :
    entry writes name = .fresh name := by
  rw [entry, levelsUnmentioned new, Signal.afterNone]

theorem entryClear : entry (writes ++ [.clear]) name = .fresh name := by
  rw [entry, levelsClear, Signal.afterNone]

theorem entryDeclare (other : String) :
    entry (writes ++ [.declare other]) name = entry writes name := by
  have same : Write.declare other ≠ .clear := nofun
  rw [entry, levelsSnoc writes name same]
  exact congrArg (Signal.fresh name).after (List.append_nil _)

theorem entryPublish (other : String) (level : Level) :
    entry (writes ++ [.publish other level]) name = (entry writes name).take other level := by
  have same : Write.publish other level ≠ .clear := nofun
  rw [entry, levelsSnoc writes name same, Signal.afterAppend, ← entry, Write.level?]
  split
  · rename_i own
    subst own
    exact (Signal.takeOwn (entry writes other) level).symm
  · rename_i apart
    exact (Signal.takeApart (Ne.symm apart) level).symm

end Newest

/-! The board, name by name. -/

def fold (writes : List Write) : Board := ⟨(mentions writes).map (entry writes)⟩

theorem foldNames (writes : List Write) : (fold writes).names = mentions writes := by
  simp [fold, names, entry, Signal.after, Signal.fresh, Function.comp_def]

theorem foldDeclare (writes : List Write) {w : Write} {name : String}
    (named : w.name? = some name) :
    (fold writes).declare name = ⟨(mentions (writes ++ [w])).map (entry writes)⟩ := by
  rw [declare, foldNames, mentionsSnoc writes name named]
  split
  · rfl
  · rename_i new
    rw [List.map_append, List.map_singleton, entryUnmentioned new, fold]

theorem foldWrite (writes : List Write) (w : Write) :
    (fold writes).write w = fold (writes ++ [w]) := by
  cases w with
  | declare name =>
    rw [write, foldDeclare writes (w := .declare name) rfl]
    exact congrArg Board.mk (List.map_congr_left fun n _ => (entryDeclare writes n name).symm)
  | publish name level =>
    simp only [write, publish, foldDeclare writes (w := .publish name level) rfl, List.map_map]
    exact congrArg Board.mk (List.map_congr_left fun n _ => (entryPublish writes n name level).symm)
  | clear =>
    rw [write, clear, foldNames, fold, mentionsClear]
    exact congrArg Board.mk (List.map_congr_left fun n _ => (entryClear writes n).symm)

theorem afterFold (writes : List Write) : after writes = fold writes := by
  induction writes using List.reverseRecOn with
  | nil => rfl
  | append_singleton writes w ih => rw [afterSnoc, ih, foldWrite]

/-! What is read off the board. -/

theorem afterNames (writes : List Write) : (after writes).names = mentions writes := by
  rw [afterFold, foldNames]

theorem afterDistinct (writes : List Write) : (after writes).names.Nodup := by
  induction writes using List.reverseRecOn with
  | nil => exact .nil
  | append_singleton writes w ih =>
    rw [afterSnoc]
    cases w with
    | declare name => exact declareDistinct ih name
    | publish name level => exact publishDistinct ih name level
    | clear => rwa [write, namesClear]

theorem afterFind {writes : List Write} {name : String} (known : name ∈ mentions writes) :
    (after writes).find? name = some (entry writes name) := by
  rw [← afterNames] at known
  obtain ⟨s, found⟩ := findKnown known
  have member := List.mem_of_find?_eq_some found
  rw [afterFold] at member
  obtain ⟨other, -, same⟩ := List.mem_map.mp member
  have own : other = name := by
    rw [← findNamed found, ← same]
    rfl
  rw [found, ← same, own]

theorem afterChanges (writes : List Write) (name : String) :
    (after writes).changes name = Level.low.turns (levels name writes) := by
  by_cases known : name ∈ mentions writes
  · rw [changes, afterFind known]
    exact Nat.zero_add _
  · have absent : (after writes).find? name = none := by
      cases found : (after writes).find? name with
      | none => rfl
      | some s =>
        have member := List.mem_map_of_mem (f := Signal.name) (List.mem_of_find?_eq_some found)
        rw [findNamed found] at member
        exact absurd (afterNames writes ▸ member) known
    rw [changes, absent, levelsUnmentioned known]
    rfl

theorem afterPublish (writes : List Write) (name : String) (level : Level) :
    ((after writes).publish name level).1 =
      decide (level ≠ (levels name writes).getLastD .low) := by
  -- the name is declared first, which gives it no level
  have member := declareMember (after writes) name
  have twice : ((after writes).declare name).declare name = (after writes).declare name :=
    if_pos member
  have again : (after writes).publish name level =
      (after (writes ++ [.declare name])).publish name level := by
    rw [afterSnoc, write]
    simp only [publish, twice]
  have known : name ∈ mentions (writes ++ [.declare name]) := by
    rw [← afterNames, afterSnoc]
    exact member
  rw [again, publishChanges (afterDistinct _) (afterFind known) level, entryDeclare]
  rfl

theorem writeApart (b : Board) {w : Write} {name : String} (named : w.name? = some name) :
    (b.write w).signals.filter (·.name ≠ name) = b.signals.filter (·.name ≠ name) := by
  have declared : (b.declare name).signals.filter (·.name ≠ name) =
      b.signals.filter (·.name ≠ name) := by
    unfold declare
    split
    · rfl
    · simp [Signal.fresh]
  cases w with
  | declare other =>
    cases named
    exact declared
  | publish other level =>
    cases named
    have kept : ∀ signals : List Signal, (signals.map (Signal.take name level)).filter
        (·.name ≠ name) = signals.filter (·.name ≠ name) := by
      intro signals
      induction signals with
      | nil => rfl
      | cons s rest ih =>
        by_cases own : s.name = name
        · simp_all [Signal.takeName]
        · simp_all [Signal.takeApart own]
    exact (kept _).trans declared
  | clear => cases named

/- What holds of a board after some writes. -/
structure Shows (writes : List Write) (b : Board) : Prop where
  names : b.names = mentions writes
  distinct : b.names.Nodup
  level : ∀ s ∈ b.signals, s.level = (levels s.name writes).getLastD .low
  changes : ∀ s ∈ b.signals, s.changes = Level.low.turns (levels s.name writes)
  told : ∀ name level, (b.publish name level).1 =
    decide (level ≠ (levels name writes).getLastD .low)
  counted : ∀ name level, (b.publish name level).2.changes name =
    b.changes name + if (b.publish name level).1 then 1 else 0
  apart : ∀ w name, w.name? = some name →
    (b.write w).signals.filter (·.name ≠ name) = b.signals.filter (·.name ≠ name)

/- Whatever is written to an empty board, the board is what this history makes of each name. -/
theorem historyShown (writes : List Write) : Shows writes (after writes) := by
  have signals : ∀ s ∈ (after writes).signals, s = entry writes s.name := by
    rw [afterFold]
    intro s member
    obtain ⟨name, -, rfl⟩ := List.mem_map.mp member
    rfl
  refine ⟨afterNames writes, afterDistinct writes, fun s member => ?_, fun s member => ?_,
    afterPublish writes, fun name level => ?_, fun w name => writeApart (after writes)⟩
  · exact congrArg Signal.level (signals s member)
  · exact (congrArg Signal.changes (signals s member)).trans (Nat.zero_add _)
  · have same : Write.publish name level ≠ .clear := nofun
    have own : (Write.publish name level).level? name = some level := if_pos rfl
    have next : ((after writes).publish name level).2 = after (writes ++ [.publish name level]) :=
      (afterSnoc writes (.publish name level)).symm
    rw [next, afterChanges, afterChanges, levelsSnoc writes name same, own, Level.turnsAppend,
      afterPublish]
    simp [Level.turns]

end VirtualBoard.Board
