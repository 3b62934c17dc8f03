import VirtualBoard.Proofs.Pacing.Chip
import VirtualBoard.Proofs.Signals.Follow

/-! Listeners wired to the board, each to the signal at its place.

While the armed listeners are those of one model, in the order of the watch list,
the levels on the board follow the calls of that model and nothing else. -/
namespace VirtualBoard

namespace Signal

theorem takeOther {signals : List Signal} {name : String} {level : Level}
    (absent : name ∉ signals.map Signal.name) : signals.map (take name level) = signals := by
  induction signals with
  | nil => rfl
  | cons s rest ih =>
    simp only [List.map_cons, List.mem_cons, not_or] at absent
    rw [List.map_cons, takeApart (Ne.symm absent.1), ih absent.2]

theorem takePlace {signals : List Signal} {place : Nat} {name : String} (level : Level)
    (distinct : (signals.map Signal.name).Nodup)
    (found : (signals.map Signal.name)[place]? = some name) :
    (signals.map (take name level)).map Signal.level =
      (signals.map Signal.level).set place level := by
  induction signals generalizing place with
  | nil => cases found
  | cons s rest ih =>
    rw [List.map_cons, List.nodup_cons] at distinct
    cases place with
    | zero =>
      cases found
      rw [List.map_cons, takeOther distinct.1, takeOwn]
      rfl
    | succ place =>
      have later : (rest.map Signal.name)[place]? = some name := found
      have other : s.name ≠ name := fun same =>
        distinct.1 (same ▸ List.mem_of_getElem? later)
      rw [List.map_cons, takeApart other]
      exact congrArg (s.level :: ·) (ih distinct.2 later)

end Signal

namespace Rig

variable {ω α : Type} {names : List String} {keys : List ListenerKey}

def levels (r : Rig ω) : List Level := r.board.signals.map Signal.level

/- The armed listeners have given keys, and publish under the names at their places. -/
structure Wired (names : List String) (keys : List ListenerKey) (r : Rig ω) : Prop where
  fits : Fits names r
  distinct : names.Nodup
  room : keys.length ≤ names.length
  fresh : ∀ key ∈ keys, key.raw < r.nextKey
  name : ∀ key, r.name? key = (keys.idxOf? key).bind (names[·]?)

theorem Wired.kept {r s : Rig ω} (wired : Wired names keys r) (kept : Keeps r s) :
    Wired names keys s where
  fits := kept.fits wired.fits
  distinct := wired.distinct
  room := wired.room
  fresh key member := by rw [kept.nextKey]; exact wired.fresh key member
  name key := by rw [name?, kept.armed]; exact wired.name key

theorem Wired.unheard {r : Rig ω} (wired : Wired names keys r) :
    (⟨r.nextKey⟩ : ListenerKey) ∉ keys := fun old => Nat.lt_irrefl _ (wired.fresh _ old)

theorem wiredNone {r : Rig ω} (fits : Fits names r) (distinct : names.Nodup)
    (quiet : r.armed = []) : Wired names [] r where
  fits := fits
  distinct := distinct
  room := Nat.zero_le _
  fresh := by simp
  name key := by simp [name?, quiet]

theorem publishLevels {r : Rig ω} (fits : Fits names r) (distinct : names.Nodup) {place : Nat}
    {name : String} (level : Level) (found : names[place]? = some name) :
    ((r.board.publish name level).2.signals).map Signal.level = r.levels.set place level := by
  have board : r.board.signals.map Signal.name = names := fits.board
  have there : name ∈ r.board.names := by
    rw [fits.board]
    exact List.mem_of_getElem? found
  have same : r.board.declare name = r.board := if_pos there
  show ((r.board.declare name).signals.map (Signal.take name level)).map Signal.level = _
  rw [same]
  exact Signal.takePlace level (by rw [board]; exact distinct) (by rw [board]; exact found)

theorem takeLevels {r : Rig ω} (wired : Wired names keys r) (event : Event) :
    (r.take event).levels = hear r.levels (heard keys [event]) := by
  cases event with
  | logged entry => rfl
  | called key level =>
    have name := wired.name key
    show (r.call key level).levels = _
    cases place : keys.idxOf? key with
    | none =>
      rw [place] at name
      simp only [call, name, heard, List.filterMap_cons, place]
      rfl
    | some i =>
      rw [place] at name
      have inside : i < names.length := by
        obtain ⟨short, -⟩ := List.findIdx?_eq_some_iff_getElem.mp place
        exact Nat.lt_of_lt_of_le short wired.room
      have there : names[i]? = some names[i] := List.getElem?_eq_getElem inside
      rw [Option.bind_some, there] at name
      have shown := publishLevels wired.fits wired.distinct level there
      simp only [call, name, heard, List.filterMap_cons, place]
      split <;> exact shown

theorem takeAllLevels {r : Rig ω} (wired : Wired names keys r) (events : List Event) :
    (events.foldl take r).levels = hear r.levels (heard keys events) := by
  induction events generalizing r with
  | nil => rfl
  | cons event rest ih =>
    have split : heard keys (event :: rest) = heard keys [event] ++ heard keys rest :=
      List.filterMap_append (l := [event])
    rw [List.foldl_cons, ih (wired.kept (takeKeeps r event)), takeLevels wired, split, hearAppend]

theorem askLevels {r : Rig ω} (wired : Wired names keys r) (act : Act ω α) :
    (ask act r).2.levels = hear r.levels (heard keys (act r.world).events) := by
  have moved : Keeps r {r with world := (act r.world).world} :=
    ⟨rfl, rfl, fun _ => rfl, fun _ => rfl⟩
  exact takeAllLevels (wired.kept moved) _

theorem publishWired {r : Rig ω} (wired : Wired names keys r) {name : String}
    (known : name ∈ names) (level : Level) : Wired names keys (publish name level r).2 :=
  ⟨publishFits wired.fits known level, wired.distinct, wired.room, wired.fresh, wired.name⟩

theorem armWired {r : Rig ω} (wired : Wired names keys r) {name : String}
    (next : names[keys.length]? = some name) :
    Wired names (keys ++ [⟨r.nextKey⟩]) (arm name r).2 where
  fits := armFits wired.fits (List.mem_of_getElem? next)
  distinct := wired.distinct
  room := by
    obtain ⟨inside, -⟩ := List.getElem?_eq_some_iff.mp next
    rw [List.length_append]
    exact inside
  fresh key member := by
    rcases List.mem_append.mp member with old | new
    · exact Nat.lt_succ_of_lt (wired.fresh key old)
    · rw [List.mem_singleton.mp new]
      exact Nat.lt_succ_self _
  name key := by
    have place : (keys ++ [(⟨r.nextKey⟩ : ListenerKey)]).idxOf? key = (keys.idxOf? key).or
        (if (⟨r.nextKey⟩ : ListenerKey) = key then some keys.length else none) := by
      show List.findIdx? (· == key) (_ ++ _) = (List.findIdx? (· == key) keys).or _
      rw [List.findIdx?_append]
      congr 1
      by_cases new : (⟨r.nextKey⟩ : ListenerKey) = key <;> simp [new, List.findIdx?_cons]
    rw [place]
    by_cases new : (⟨r.nextKey⟩ : ListenerKey) = key
    · have unheard : keys.idxOf? key = none := by
        rw [List.idxOf?_eq_none_iff, ← new]
        exact wired.unheard
      rw [unheard, if_pos new]
      simp [name?, arm, new, next]
    · have old := wired.name key
      rw [if_neg new, Option.or_none, ← old]
      simp [name?, arm, new]

end Rig
end VirtualBoard
