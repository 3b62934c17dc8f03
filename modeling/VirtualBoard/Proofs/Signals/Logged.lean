import Mathlib.Data.List.Nodup
import VirtualBoard.Proofs.Signals.Follow

/-! What the log tells of a signal.

A listener that turns a signal has the turn logged, and nothing else that a session
does writes a record of this kind. But the level that a session shows when it begins
to watch a pin is not logged: where it differs from the one on the board, the signal
is turned and the log does not tell. -/
namespace VirtualBoard

/- A signal whose turns are all told but for so many; with none left out the last one told is the
level that it shows. -/
structure Signal.Logged (log : List Log.Entry) (hidden : Nat) (s : Signal) : Prop where
  changes : s.changes = (Log.turns s.name log).length + hidden
  last : hidden = 0 → (Log.turns s.name log).getLastD false = s.level.isHigh

namespace Signal

variable {log : List Log.Entry} {hidden : Nat} {s : Signal}

theorem Logged.plain (logged : s.Logged log hidden) {entry : Log.Entry} (plain : entry.Plain) :
    s.Logged (entry :: log) hidden where
  changes := by rw [Log.turnsPlain plain]; exact logged.changes
  last := by rw [Log.turnsPlain plain]; exact logged.last

theorem Logged.other (logged : s.Logged log hidden) {name : String} (apart : name ≠ s.name)
    (on : Bool) : s.Logged (Log.turned name on :: log) hidden where
  changes := by rw [Log.turnsOther apart]; exact logged.changes
  last := by rw [Log.turnsOther apart]; exact logged.last

theorem Logged.turned (logged : s.Logged log hidden) {level : Level} (turns : level ≠ s.level) :
    (s.after [level]).Logged (Log.turned s.name level.isHigh :: log) hidden where
  changes := by
    have counted := logged.changes
    simp only [after, Level.turns, turns, Log.turnsOwn, List.length_append, List.length_singleton,
      if_false]
    omega
  last _ := by simp [after, Log.turnsOwn]

theorem Logged.shown (logged : s.Logged log hidden) (level : Level) :
    (s.after [level]).Logged log (hidden + if level = s.level then 0 else 1) := by
  by_cases same : level = s.level
  · subst same
    have unchanged : s.after [s.level] = s := by simp [after, Level.turns]
    simpa [unchanged] using logged
  · refine ⟨?_, by simp [same]⟩
    have counted := logged.changes
    simp only [after, Level.turns, same, if_false]
    omega

theorem freshLogged (name : String) (log : List Log.Entry) :
    (fresh name).Logged (Log.cleared :: log) 0 where
  changes := by simp [fresh, Log.turnsCleared]
  last _ := by simp [fresh, Log.turnsCleared, Level.isHigh]

end Signal

namespace Board

variable {b : Board} {name other : String} {s : Signal}

theorem declareDistinct (distinct : b.names.Nodup) (name : String) :
    (b.declare name).names.Nodup := by
  unfold declare
  split
  · exact distinct
  · rename_i fresh
    have added := List.Nodup.concat fresh distinct
    rw [List.concat_eq_append] at added
    simpa [names, Signal.fresh] using added

theorem declareFind (found : b.find? name = some s) (other : String) :
    (b.declare other).find? name = some s := by
  unfold declare
  split
  · exact found
  · simp only [find?] at found ⊢
    rw [List.find?_append, found]
    rfl

theorem publishDistinct (distinct : b.names.Nodup) (name : String) (level : Level) :
    (b.publish name level).2.names.Nodup := by
  rw [namesPublish]
  exact declareDistinct distinct name

theorem declareMember (b : Board) (name : String) : name ∈ (b.declare name).names := by
  unfold declare
  split
  · assumption
  · simp [names, Signal.fresh]

theorem publishKnown (found : b.find? name = some s) (other : String) (level : Level) :
    (b.publish other level).2.find? name =
      some (s.after (if name = other then [level] else [])) := by
  have known := declareMember b other
  have twice : (b.declare other).declare other = b.declare other := if_pos known
  have again : b.publish other level = (b.declare other).publish other level := by
    simp only [publish, twice]
  rw [again, publishFind known, declareFind found, Option.map_some]

theorem publishChanges (distinct : b.names.Nodup) (found : b.find? name = some s) (level : Level) :
    (b.publish name level).1 = decide (level ≠ s.level) := by
  have declared : b.declare name = b := by
    refine if_pos ?_
    rw [← findNamed found]
    exact List.mem_map_of_mem (List.mem_of_find?_eq_some found)
  have member := List.mem_of_find?_eq_some found
  have only : ∀ t ∈ b.signals, t.name = name → t = s := fun t there same =>
    List.inj_on_of_nodup_map distinct there member (same.trans (findNamed found).symm)
  simp only [publish, declared]
  rw [Bool.eq_iff_iff, List.any_eq_true]
  simp only [decide_eq_true_eq]
  constructor
  · rintro ⟨t, there, same, differs⟩
    rw [only t there same] at differs
    exact differs.symm
  · exact fun differs => ⟨s, member, findNamed found, differs.symm⟩

theorem clearFind (found : b.find? name = some s) : b.clear.find? name = some (.fresh name) := by
  have known : name ∈ b.clear.names := by
    rw [namesClear, ← findNamed found]
    exact List.mem_map_of_mem (List.mem_of_find?_eq_some found)
  obtain ⟨t, again⟩ := findKnown known
  obtain ⟨other, -, rfl⟩ := List.mem_map.mp (List.mem_of_find?_eq_some again)
  rw [again]
  exact congrArg (fun n => some (Signal.fresh n)) (findNamed again)

end Board

namespace Rig

variable {ω : Type} {name : String} {hidden : Nat} {r : Rig ω}

def Logs (name : String) (hidden : Nat) (r : Rig ω) : Prop :=
  r.board.names.Nodup ∧ ∃ s, r.board.find? name = some s ∧ s.Logged r.log hidden

theorem Logs.found (logs : Logs name hidden r) : ∃ s, r.board.find? name = some s :=
  logs.2.imp fun _ both => both.1

theorem Logs.write (logs : Logs name hidden r) {entry : Log.Entry} (plain : entry.Plain) :
    Logs name hidden (r.write entry) := by
  obtain ⟨distinct, s, found, logged⟩ := logs
  exact ⟨distinct, s, found, logged.plain plain⟩

theorem Logs.call (logs : Logs name hidden r) (key : ListenerKey) (level : Level) :
    Logs name hidden (r.call key level) := by
  obtain ⟨distinct, s, found, logged⟩ := logs
  cases heard : r.name? key with
  | none =>
    have same : r.call key level = r := by rw [Rig.call, heard]
    rw [same]
    exact ⟨distinct, s, found, logged⟩
  | some other =>
    have published := Board.publishKnown found other level
    have names := Board.publishDistinct distinct other level
    simp only [Rig.call, heard]
    by_cases own : name = other
    · subst own
      rw [if_pos rfl] at published
      rw [Board.publishChanges distinct found level]
      by_cases turns : level = s.level
      · subst turns
        have unchanged : s.after [s.level] = s := by simp [Signal.after, Level.turns]
        rw [unchanged] at published
        rw [if_neg (by simp)]
        exact ⟨names, s, published, logged⟩
      · rw [if_pos (by simpa using turns)]
        refine ⟨names, _, published, ?_⟩
        have told := logged.turned turns
        rw [Board.findNamed found] at told
        exact told
    · rw [if_neg own, Signal.afterNone] at published
      split
      · refine ⟨names, s, published, ?_⟩
        exact logged.other (by rw [Board.findNamed found]; exact Ne.symm own) level.isHigh
      · exact ⟨names, s, published, logged⟩

theorem Logs.published (logs : Logs name hidden r) (other : String) (level : Level) :
    ∃ s, r.board.find? name = some s ∧ Logs name
      (hidden + if name = other ∧ level ≠ s.level then 1 else 0) (publish other level r).2 := by
  obtain ⟨distinct, s, found, logged⟩ := logs
  have published := Board.publishKnown found other level
  have names := Board.publishDistinct distinct other level
  refine ⟨s, found, names, _, published, ?_⟩
  by_cases own : name = other
  · have shown := logged.shown level
    rw [if_pos own]
    show Signal.Logged r.log _ _
    simpa [own, ite_not] using shown
  · rw [if_neg own, Signal.afterNone]
    show Signal.Logged r.log _ _
    simpa [own] using logged

theorem Logs.cleared (logs : Logs name hidden r) : Logs name 0 ((clear r).2.write Log.cleared) := by
  obtain ⟨distinct, s, found, -⟩ := logs
  have names : r.board.clear.names.Nodup := by rwa [Board.namesClear]
  exact ⟨names, _, Board.clearFind found, Signal.freshLogged name r.log⟩

end Rig

def Event.Plain : Event → Prop
  | called .. => True
  | logged entry => entry.Plain

def Act.Tacit {ω α : Type} (act : Act ω α) : Prop := ∀ w, ∀ event ∈ (act w).events, event.Plain

namespace Rig

variable {ω α : Type} {name : String} {hidden : Nat}

theorem Logs.take {r : Rig ω} (logs : Logs name hidden r) {event : Event} (plain : event.Plain) :
    Logs name hidden (r.take event) := by
  cases event with
  | called key level => exact logs.call key level
  | logged entry => exact logs.write plain

theorem Logs.takeAll {r : Rig ω} (logs : Logs name hidden r) {events : List Event}
    (plain : ∀ event ∈ events, event.Plain) : Logs name hidden (events.foldl Rig.take r) := by
  induction events generalizing r with
  | nil => exact logs
  | cons event rest ih =>
    rw [List.forall_mem_cons] at plain
    exact ih (logs.take plain.1) plain.2

theorem Logs.ask {r : Rig ω} (logs : Logs name hidden r) {act : Act ω α} (tacit : act.Tacit) :
    Logs name hidden (ask act r).2 :=
  Logs.takeAll (r := {r with world := (act r.world).world}) logs (tacit r.world)

end Rig
end VirtualBoard
