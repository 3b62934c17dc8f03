import Mathlib.Data.List.Nodup
import VirtualBoard.Proofs.Signals.Gauge

/-! Subscriptions to a model that heeds its listeners, step by step.

The listeners that are armed are those of the subscriptions, each under a name of
its own, and each listens at the pin it is for. Then whatever an act sets changes
the signals of the pins it sets and no others. So each signal has its pin's level
from the moment its listener joined. -/
namespace VirtualBoard
open Rig

variable {ω μ α : Type} {g : Gauge ω μ} {names : List String} {subs : List Subscription}

/- A rig whose armed listeners are those of some subscriptions, each with an ear at its pin, and
no others have one. -/
structure Rig.Hooked (ears : ListenerKey → Pin → Prop) (names : List String)
    (subs : List Subscription) (r : Rig ω) : Prop where
  fits : Fits names r
  armed : ∀ key name, r.name? key = some name ↔ ∃ s ∈ subs, s.key = key ∧ s.name = name
  distinct : (subs.map Subscription.name).Nodup
  ears : ∀ key pin, ears key pin ↔ ∃ s ∈ subs, s.key = key ∧ s.pin = pin

theorem memberSnoc {β : Type} {first : List β} {last : β} {holds : β → Prop} :
    (∃ b ∈ first ++ [last], holds b) ↔ (∃ b ∈ first, holds b) ∨ holds last := by
  simp [or_and_right, exists_or]

theorem Rig.Fits.unarmed {r : Rig ω} (fits : Fits names r) : r.name? ⟨r.nextKey⟩ = none := by
  cases found : r.name? ⟨r.nextKey⟩ with
  | none => rfl
  | some name =>
    obtain ⟨a, armed, same, -⟩ := nameMember found
    have bound := fits.keys a armed
    rw [same] at bound
    exact absurd bound (Nat.lt_irrefl _)

theorem Rig.armName (name : String) (r : Rig ω) (key : ListenerKey) :
    (arm name r).2.name? key = if key = ⟨r.nextKey⟩ then some name else r.name? key := by
  unfold name?
  show (List.find? _ (⟨⟨r.nextKey⟩, name⟩ :: r.armed)).map Armed.name = _
  rw [List.find?_cons]
  by_cases same : key = ⟨r.nextKey⟩
  · simp [same]
  · simp [same, Ne.symm same]

namespace Rig.Hooked

variable {ears : ListenerKey → Pin → Prop} {r : Rig ω}

theorem keys (hooked : Hooked ears names subs r) {s : Subscription} (member : s ∈ subs) :
    s.key.raw < r.nextKey := by
  obtain ⟨a, armed, key, -⟩ := nameMember ((hooked.armed s.key s.name).mpr ⟨s, member, rfl, rfl⟩)
  rw [← key]
  exact hooked.fits.keys a armed

theorem ear (hooked : Hooked ears names subs r) {s : Subscription} (member : s ∈ subs) :
    ears s.key s.pin := (hooked.ears s.key s.pin).mpr ⟨s, member, rfl, rfl⟩

theorem fresh (hooked : Hooked ears names subs r) (pin : Pin) : ¬ ears ⟨r.nextKey⟩ pin := by
  intro listens
  obtain ⟨s, member, key, -⟩ := (hooked.ears _ pin).mp listens
  have bound := hooked.keys member
  rw [key] at bound
  exact Nat.lt_irrefl _ bound

theorem heard (hooked : Hooked ears names subs r) {s : Subscription} (member : s ∈ subs)
    (events : List Event) : heardBy (fun key => r.name? key = some s.name) events =
      heardBy (· = s.key) events := by
  congr 1
  funext key
  refine decide_eq_decide.mpr ⟨fun found => ?_, ?_⟩
  · obtain ⟨t, other, rfl, name⟩ := (hooked.armed key s.name).mp found
    rw [List.inj_on_of_nodup_map hooked.distinct other member name]
  · rintro rfl
    exact (hooked.armed s.key s.name).mpr ⟨s, member, rfl, rfl⟩

theorem unheard (hooked : Hooked ears names subs r) {name : String}
    (apart : name ∉ subs.map Subscription.name) (events : List Event) :
    heardBy (fun key => r.name? key = some name) events = [] := by
  refine List.filterMap_eq_nil_iff.mpr fun event _ => ?_
  cases event with
  | logged entry => rfl
  | called key level =>
    refine if_neg fun found => apart ?_
    obtain ⟨s, member, -, named⟩ := (hooked.armed key name).mp (of_decide_eq_true found)
    exact List.mem_map.mpr ⟨s, member, named⟩

theorem kept {s : Rig ω} (hooked : Hooked ears names subs r) (kept : Keeps r s) :
    Hooked ears names subs s where
  fits := kept.fits hooked.fits
  armed := by
    rw [kept.name?]
    exact hooked.armed
  distinct := hooked.distinct
  ears := hooked.ears

theorem published (hooked : Hooked ears names subs r) {name : String} (known : name ∈ names)
    (level : Level) : Hooked ears names subs (publish name level r).2 :=
  ⟨publishFits hooked.fits known level, hooked.armed, hooked.distinct, hooked.ears⟩

theorem arm (hooked : Hooked ears names subs r) {name : String} (known : name ∈ names)
    (apart : name ∉ subs.map Subscription.name) (pin : Pin) (id : ListenerId) :
    Hooked (fun ear place => ears ear place ∨ ear = ⟨r.nextKey⟩ ∧ place = pin) names
      (subs ++ [⟨id, pin, name, ⟨r.nextKey⟩⟩]) (Rig.arm name r).2 where
  fits := armFits hooked.fits known
  armed key other := by
    rw [armName, memberSnoc, ← hooked.armed]
    by_cases newest : key = ⟨r.nextKey⟩
    · simp [newest, hooked.fits.unarmed]
    · simp [newest, Ne.symm newest]
  distinct := by
    rw [List.map_append, List.map_singleton]
    exact List.nodup_append_comm.mp (List.nodup_cons.mpr ⟨apart, hooked.distinct⟩)
  ears key place := by
    rw [memberSnoc, ← hooked.ears]
    exact or_congr_right (and_congr eq_comm eq_comm)

end Rig.Hooked

namespace Gauge

/- What some settings of pins change: the levels of their pins and the signals subscribed to
them, no other signal. -/
structure Moved (g : Gauge ω μ) (subs : List Subscription) (model : μ) (r : Rig (Driven ω))
    (after : μ) (s : Rig (Driven ω)) (more : List Drive) : Prop where
  marks : s.world.marks = r.world.marks ++ more.map .drove
  level : ∀ pin, g.level after s.world.world pin =
    (Drive.on pin more).getLastD (g.level model r.world.world pin)
  own : ∀ x ∈ subs, s.board.find? x.name =
    (r.board.find? x.name).map fun signal => signal.after (Drive.on x.pin more)
  rest : ∀ name ∉ subs.map Subscription.name, s.board.find? name = r.board.find? name

theorem Moved.refl (model : μ) (r : Rig (Driven ω)) : g.Moved subs model r model r [] where
  marks := (List.append_nil _).symm
  level _ := rfl
  own _ _ := Option.map_id'.symm
  rest _ _ := rfl

theorem Moved.trans {first second third : μ} {r s t : Rig (Driven ω)} {early late : List Drive}
    (before : g.Moved subs first r second s early) (after : g.Moved subs second s third t late) :
    g.Moved subs first r third t (early ++ late) where
  marks := by rw [after.marks, before.marks, List.map_append, List.append_assoc]
  level pin := by rw [after.level, before.level, Drive.onAppend, getLastDAppend]
  own x member := by
    rw [after.own x member, before.own x member, Option.map_map]
    simp only [Function.comp_def, Drive.onAppend, Signal.afterAppend]
  rest name apart := (after.rest name apart).trans (before.rest name apart)

theorem Heeds.moves {ears : ListenerKey → Pin → Prop} {act : Act ω α} {r : Rig (Driven ω)}
    {model after : μ} (heeds : g.Heeds ears act r.world.world model after)
    (hooked : Hooked ears names subs r) :
    Hooked (g.Listens after (act r.world.world).world) names subs (ask (act.driven g) r).2 ∧
    g.Moved subs model r after (ask (act.driven g) r).2 (g.drives act r.world.world) := by
  have kept := hooked.kept (keepsAsk (act.driven g) r)
  have world : (ask (act.driven g) r).2.world = ⟨(act r.world.world).world, _⟩ := askWorld _ _
  have found : ∀ name, (ask (act.driven g) r).2.board.find? name = (r.board.find? name).map
      fun s => s.after (heardBy (fun key => r.name? key = some name)
        (act r.world.world).events) := askFind hooked.fits (act.driven g)
  have ears := fun key pin => (heeds.stays key pin).trans (hooked.ears key pin)
  refine ⟨{kept with ears := ears}, ?_⟩
  refine ⟨by rw [world], fun pin => by rw [world]; exact heeds.level pin, fun x member => ?_,
    fun name apart => ?_⟩
  · rw [found, hooked.heard member, heeds.heard _ _ (hooked.ear member)]
  · rw [found, hooked.unheard apart]
    exact Option.map_id'

structure Coupled (g : Gauge ω μ) (names : List String) (subs : List Subscription) (model : μ)
    (r : Rig (Driven ω)) : Prop where
  sound : g.Sound model r.world.world
  hooked : Hooked (g.Listens model r.world.world) names subs r

structure Reached (g : Gauge ω μ) (names : List String) (subs : List Subscription) (model : μ)
    (r : Rig (Driven ω)) (after : μ) (s : Rig (Driven ω)) : Prop where
  coupled : g.Coupled names subs after s
  moved : ∃ more, g.Moved subs model r after s more

namespace Reached

variable {model after : μ} {r s : Rig (Driven ω)}

theorem refl (coupled : g.Coupled names subs model r) : g.Reached names subs model r model r :=
  ⟨coupled, [], .refl model r⟩

theorem ask (reached : g.Reached names subs model r after s) {act : Act ω α} {next : μ}
    (heeds : g.Heeds (g.Listens after s.world.world) act s.world.world after next) :
    g.Reached names subs model r next (ask (act.driven g) s).2 := by
  obtain ⟨more, moved⟩ := reached.moved
  obtain ⟨hooked, further⟩ := heeds.moves reached.coupled.hooked
  have world : (Rig.ask (act.driven g) s).2.world = ⟨(act s.world.world).world, _⟩ := askWorld _ _
  refine ⟨⟨?_, ?_⟩, _, moved.trans further⟩
  · rw [world]
    exact heeds.sound
  · rw [world]
    exact hooked

theorem write (reached : g.Reached names subs model r after s) (entry : Log.Entry) :
    g.Reached names subs model r after (s.write entry) := by
  obtain ⟨more, moved⟩ := reached.moved
  exact ⟨⟨reached.coupled.sound, reached.coupled.hooked.kept (writeKeeps entry s)⟩,
    more, ⟨moved.marks, moved.level, moved.own, moved.rest⟩⟩

theorem way : Way fun q s : Rig (Driven ω) =>
    g.Reached names subs model r after q → g.Reached names subs model r after s :=
  ⟨fun _ => id, fun early late => late ∘ early, fun entry _ reached => reached.write entry⟩

end Reached

/- The account of a signal: what it was before, the level its pin had when its listener joined,
and what has been put on record since. -/
structure Account (g : Gauge ω μ) (before : Board) (s : Subscription) (model : μ)
    (r : Rig (Driven ω)) (old now : Signal) (joined : Level) (since : List Mark) : Prop where
  found : before.find? s.name = some old
  shown : r.board.find? s.name = some now
  marks : ∃ earlier, r.world.marks = earlier ++ .joined s.key s.pin joined :: since
  once : ∀ mark ∈ since, mark.key? ≠ some s.key
  level : now.level = g.level model r.world.world s.pin
  last : now.level = (Mark.on s.pin since).getLastD joined
  changes : now.changes = old.changes + (if joined = old.level then 0 else 1) +
    joined.turns (Mark.on s.pin since)

def Follows (g : Gauge ω μ) (before : Board) (s : Subscription) (model : μ)
    (r : Rig (Driven ω)) : Prop := ∃ old now joined since, g.Account before s model r old now joined since

theorem Follows.moved {before : Board} {x : Subscription} {model after : μ} {r s : Rig (Driven ω)}
    {more : List Drive} (follows : g.Follows before x model r) (member : x ∈ subs)
    (moved : g.Moved subs model r after s more) : g.Follows before x after s := by
  obtain ⟨old, now, joined, since, account⟩ := follows
  obtain ⟨earlier, marks⟩ := account.marks
  refine ⟨old, now.after (Drive.on x.pin more), joined, since ++ more.map .drove, account.found,
    ?_, ⟨earlier, ?_⟩, ?_, ?_, ?_, ?_⟩
  · rw [moved.own x member, account.shown]
    rfl
  · rw [moved.marks, marks, List.append_assoc, List.cons_append]
  · intro mark there
    rcases List.mem_append.mp there with late | new
    · exact account.once mark late
    · obtain ⟨drive, -, rfl⟩ := List.mem_map.mp new
      exact nofun
  · rw [moved.level, ← account.level]
    rfl
  · rw [Mark.onDriven, getLastDAppend, ← account.last]
    rfl
  · rw [Mark.onDriven, Level.turnsAppend, ← account.last, ← Nat.add_assoc, ← account.changes]
    rfl

end Gauge
end VirtualBoard
