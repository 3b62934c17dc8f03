import VirtualBoard.Proofs.Turns
import VirtualBoard.Subscription

/-! What acts and records leave of a rig, and what subscriptions add to it.

While an outside party is at work only armed listeners reach the board, and only
under the names they were armed with. So a rig without armed listeners keeps its
board through any act, and the names on a board that has all armed names stay as
they are. Nothing is said here of the levels. -/
namespace VirtualBoard
namespace Rig

variable {ω α β : Type}

theorem bindRun (first : Work ω α) (next : α → Work ω β) (r : Rig ω) :
    (first >>= next) r = next (first r).1 (first r).2 := rfl

theorem pureRun (value : α) (r : Rig ω) : (pure value : Work ω α) r = (value, r) := rfl

theorem askRun (act : Act ω α) (r : Rig ω) :
    ask act r = ((act r.world).value,
      (act r.world).events.foldl take {r with world := (act r.world).world}) := rfl

/- The relation between a rig before and after something that neither hands out
nor takes back a listener. -/
structure Keeps (r s : Rig ω) : Prop where
  armed : s.armed = r.armed
  nextKey : s.nextKey = r.nextKey
  names : (∀ a ∈ r.armed, a.name ∈ r.board.names) → s.board.names = r.board.names
  board : r.armed = [] → s.board = r.board

namespace Keeps

theorem refl (r : Rig ω) : Keeps r r := ⟨rfl, rfl, fun _ => rfl, fun _ => rfl⟩

theorem trans {r s t : Rig ω} (first : Keeps r s) (second : Keeps s t) : Keeps r t where
  armed := second.armed.trans first.armed
  nextKey := second.nextKey.trans first.nextKey
  names known := by
    have early := first.names known
    refine (second.names ?_).trans early
    rw [first.armed, early]
    exact known
  board empty := by
    have early := first.board empty
    exact (second.board (first.armed.trans empty)).trans early

end Keeps

theorem nameMember {r : Rig ω} {key : ListenerKey} {name : String}
    (found : r.name? key = some name) : ∃ a ∈ r.armed, a.key = key ∧ a.name = name := by
  obtain ⟨a, ha, same⟩ := Option.map_eq_some_iff.mp found
  exact ⟨a, List.mem_of_find?_eq_some ha, by simpa using List.find?_some ha, same⟩

theorem writeKeeps (entry : Log.Entry) (r : Rig ω) : Keeps r (r.write entry) :=
  ⟨rfl, rfl, fun _ => rfl, fun _ => rfl⟩

theorem callKeeps (key : ListenerKey) (level : Level) (r : Rig ω) : Keeps r (r.call key level) := by
  cases found : r.name? key with
  | none =>
    have same : r.call key level = r := by simp [call, found]
    rw [same]
    exact .refl r
  | some name =>
    obtain ⟨a, member, -, rfl⟩ := nameMember found
    have published : Keeps r {r with board := (r.board.publish a.name level).2} := by
      refine ⟨rfl, rfl, fun known => ?_, fun empty => ?_⟩
      · have there := known a member
        simp [Board.namesPublish, Board.declare, there]
      · simp [empty] at member
    simp only [call, found]
    split
    · exact published.trans (writeKeeps _ _)
    · exact published

theorem takeKeeps (r : Rig ω) (event : Event) : Keeps r (r.take event) := by
  cases event with
  | called key level => exact callKeeps key level r
  | logged entry => exact writeKeeps entry r

theorem takeAllKeeps (events : List Event) (r : Rig ω) : Keeps r (events.foldl take r) := by
  induction events generalizing r with
  | nil => exact .refl r
  | cons event rest ih => exact (takeKeeps r event).trans (ih _)

theorem takeWorld (r : Rig ω) (event : Event) : (r.take event).world = r.world := by
  cases event with
  | logged entry => rfl
  | called key level =>
    simp only [take, call]
    split
    · rfl
    · split <;> rfl

theorem takeAllWorld (events : List Event) (r : Rig ω) :
    (events.foldl take r).world = r.world := by
  induction events generalizing r with
  | nil => rfl
  | cons event rest ih => exact (ih _).trans (takeWorld r event)

theorem askWorld (act : Act ω α) (r : Rig ω) : (ask act r).2.world = (act r.world).world := by
  rw [askRun]
  exact takeAllWorld _ _

def Along (way : Rig ω → Rig ω → Prop) (w : Work ω α) : Prop := ∀ r, way r (w r).2

structure Way (way : Rig ω → Rig ω → Prop) : Prop where
  refl : ∀ r, way r r
  trans : ∀ {r s t}, way r s → way s t → way r t
  write : ∀ entry r, way r (r.write entry)

structure PlainWay (way : Rig ω → Rig ω → Prop) : Prop where
  refl : ∀ r, way r r
  trans : ∀ {r s t}, way r s → way s t → way r t
  write : ∀ {entry : Log.Entry}, entry.Plain → ∀ r, way r (r.write entry)

namespace PlainWay

variable {way : Rig ω → Rig ω → Prop}

theorem pure (composes : PlainWay way) (value : α) : Along way (Pure.pure value : Work ω α) :=
  fun r => composes.refl r

theorem bind (composes : PlainWay way) {first : Work ω α} {next : α → Work ω β}
    (early : Along way first) (late : ∀ a, Along way (next a)) : Along way (first >>= next) :=
  fun r => composes.trans (early r) (late _ _)

theorem record (composes : PlainWay way) {severity : Log.Severity} {text : String}
    (plain : Log.Entry.Plain (.record severity text)) :
    Along way (record severity text : Work ω Unit) := fun r => composes.write plain r

end PlainWay

namespace Way

variable {way : Rig ω → Rig ω → Prop}

theorem plain (composes : Way way) : PlainWay way :=
  ⟨composes.refl, composes.trans, fun _ => composes.write _⟩

theorem record (composes : Way way) (severity : Log.Severity) (text : String) :
    Along way (record severity text : Work ω Unit) := fun r => composes.write _ r

end Way

theorem keepsWay : Way (Keeps (ω := ω)) := ⟨.refl, .trans, writeKeeps⟩

theorem keepsAsk (act : Act ω α) : Along Keeps (ask act) := by
  intro r
  have moved : Keeps r {r with world := (act r.world).world} :=
    ⟨rfl, rfl, fun _ => rfl, fun _ => rfl⟩
  exact moved.trans (takeAllKeeps _ _)

def Alike (see : ω → β) (r s : Rig ω) : Prop := see s.world = see r.world

theorem alikeWay (see : ω → β) : Way (Alike see) :=
  ⟨fun _ => rfl, fun early late => late.trans early, fun _ _ => rfl⟩

theorem alikeAsk {see : ω → β} (act : Act ω α) (same : ∀ w, see (act w).world = see w) :
    Along (Alike see) (ask act) := by
  intro r
  show see (ask act r).2.world = see r.world
  rw [askWorld]
  exact same r.world

end Rig
end VirtualBoard
