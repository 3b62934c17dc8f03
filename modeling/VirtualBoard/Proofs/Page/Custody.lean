import Mathlib.Data.List.Nodup
import VirtualBoard.Proofs.Page.Diary

/-! The closures a model keeps, beside what its page was asked.

A page numbers its listeners as it likes. As long as it gives no number to two
listeners at a time, the closures kept are those of the listeners registered; all
the others were removed and dropped, each once and in the order they were added.
What the page answers when it is asked to remove one makes no difference. -/
namespace VirtualBoard
namespace Page
open Rig

variable {π κ : Type}

namespace Handling

def added? : Handling κ → Option (Listener κ)
  | added listener => some listener
  | _ => none

def removed? : Handling κ → Option (κ × UInt32)
  | removed cpu id => some (cpu, id)
  | _ => none

def dropped? : Handling κ → Option ListenerKey
  | dropped key => some key
  | _ => none

def register (ids : List UInt32) : Handling κ → List UInt32
  | added listener => ids ++ [listener.id]
  | removed _ id => ids.filter (· ≠ id)
  | dropped _ => ids

def Fresh (ids : List UInt32) : Handling κ → Prop
  | added listener => listener.id ∉ ids
  | _ => True

instance (ids : List UInt32) (handling : Handling κ) : Decidable (handling.Fresh ids) :=
  match handling with
  | added listener => inferInstanceAs (Decidable (listener.id ∉ ids))
  | removed .. | dropped _ => inferInstanceAs (Decidable True)

end Handling

def added (hs : List (Handling κ)) : List (Listener κ) := hs.filterMap Handling.added?
def removed (hs : List (Handling κ)) : List (κ × UInt32) := hs.filterMap Handling.removed?
def dropped (hs : List (Handling κ)) : List ListenerKey := hs.filterMap Handling.dropped?

def registered (ids : List UInt32) (hs : List (Handling κ)) : List UInt32 :=
  hs.foldl Handling.register ids

def Apart (ids : List UInt32) : List (Handling κ) → Prop
  | [] => True
  | handling :: rest => handling.Fresh ids ∧ Apart (handling.register ids) rest

instance decidableApart : (ids : List UInt32) → (hs : List (Handling κ)) → Decidable (Apart ids hs)
  | _, [] => inferInstanceAs (Decidable True)
  | ids, handling :: rest =>
    have := decidableApart (handling.register ids) rest
    inferInstanceAs (Decidable (_ ∧ _))

theorem apartAppend (ids : List UInt32) (early late : List (Handling κ)) :
    Apart ids (early ++ late) ↔ Apart ids early ∧ Apart (registered ids early) late := by
  induction early generalizing ids with
  | nil => simp [Apart, registered]
  | cons handling rest ih => simp only [List.cons_append, Apart, ih, and_assoc, registered, List.foldl]

namespace Listener

def place (l : Listener κ) : κ × UInt32 := (l.cpu, l.id)
def closure (l : Listener κ) : UInt32 × ListenerKey := (l.id, l.key)

def ofSubscription (cpu : κ) (s : Subscription) : Listener κ := ⟨cpu, s.pin, s.listener.raw, s.key⟩

end Listener

/- The listeners that live after some handlings, and the closures kept. Of the listeners added those
that are gone were removed and dropped, each once, and nothing else ever was. -/
structure Custody (hs : List (Handling κ)) (live : List (Listener κ))
    (closures : List (UInt32 × ListenerKey)) : Prop where
  accounts : ∃ gone, added hs = gone ++ live ∧ removed hs = gone.map Listener.place ∧
    dropped hs = gone.map Listener.key
  registered : registered [] hs = live.map Listener.id
  distinct : (live.map Listener.id).Nodup
  kept : closures = (live.map Listener.closure).reverse

theorem closuresOther {live : List (Listener κ)} {id : UInt32}
    (fresh : id ∉ live.map Listener.id) :
    ((live.map Listener.closure).reverse.find? (·.1 = id)) = none ∧
      (live.map Listener.closure).reverse.filter (·.1 ≠ id) =
        (live.map Listener.closure).reverse := by
  have other : ∀ c ∈ (live.map Listener.closure).reverse, c.1 ≠ id := by
    intro c member same
    obtain ⟨l, mine, rfl⟩ := List.mem_map.mp (List.mem_reverse.mp member)
    exact fresh (List.mem_map.mpr ⟨l, mine, same⟩)
  exact ⟨List.find?_eq_none.mpr (by simpa using other),
    List.filter_eq_self.mpr (by simpa using other)⟩

namespace Custody

variable {hs : List (Handling κ)} {live : List (Listener κ)} {m : Model κ} {l : Listener κ}

theorem none : Custody ([] : List (Handling κ)) [] [] :=
  ⟨⟨[], rfl, rfl, rfl⟩, rfl, List.nodup_nil, rfl⟩

theorem add (custody : Custody hs live m.closures) (fresh : l.id ∉ Page.registered [] hs) :
    m.closure? l.id = Option.none ∧
      Custody (hs ++ [.added l]) (live ++ [l]) (m.keep l.id l.key).closures := by
  obtain ⟨gone, adds, removes, drops⟩ := custody.accounts
  have registers : Page.registered [] (hs ++ [.added l]) = Page.registered [] hs ++ [l.id] :=
    List.foldl_append
  rw [custody.registered] at fresh registers
  obtain ⟨absent, others⟩ := closuresOther fresh
  rw [← custody.kept] at absent others
  refine ⟨by rw [Model.closure?, absent]; rfl, ⟨gone, ?_, ?_, ?_⟩, ?_, ?_, ?_⟩
  · rw [added, List.filterMap_append, ← List.append_assoc, ← adds]
    rfl
  · rw [← removes, removed, List.filterMap_append]
    exact List.append_nil _
  · rw [← drops, dropped, List.filterMap_append]
    exact List.append_nil _
  · rw [registers, List.map_append]
    rfl
  · rw [List.map_append]
    exact List.nodup_append_comm.mp (List.nodup_cons.mpr ⟨fresh, custody.distinct⟩)
  · show (l.id, l.key) :: m.closures.filter (·.1 ≠ l.id) = _
    rw [others, custody.kept, List.map_append, List.reverse_append]
    rfl

theorem remove (custody : Custody hs (l :: live) m.closures) :
    m.closure? l.id = some l.key ∧
      Custody (hs ++ [.removed l.cpu l.id, .dropped l.key]) live (m.forget l.id).closures := by
  obtain ⟨gone, adds, removes, drops⟩ := custody.accounts
  obtain ⟨apart, distinct⟩ := List.nodup_cons.mp custody.distinct
  have registers : Page.registered [] (hs ++ [.removed l.cpu l.id, .dropped l.key]) =
      (Page.registered [] hs).filter (· ≠ l.id) := List.foldl_append
  have kept : m.closures = (live.map Listener.closure).reverse ++ [l.closure] := by
    rw [custody.kept, List.map_cons, List.reverse_cons]
  obtain ⟨absent, others⟩ := closuresOther apart
  refine ⟨?_, ⟨gone ++ [l], ?_, ?_, ?_⟩, ?_, distinct, ?_⟩
  · rw [Model.closure?, kept, List.find?_append, absent]
    simp [Listener.closure]
  · rw [added, List.filterMap_append, List.append_assoc]
    exact (List.append_nil _).trans adds
  · rw [removed, List.filterMap_append, List.map_append]
    exact congrArg (· ++ [l.place]) removes
  · rw [dropped, List.filterMap_append, List.map_append]
    exact congrArg (· ++ [l.key]) drops
  · rw [registers, custody.registered, List.map_cons, List.filter_cons_of_neg (by simp)]
    exact List.filter_eq_self.mpr fun id member => by
      simpa using fun same : id = l.id => apart (same ▸ member)
  · show m.closures.filter (·.1 ≠ l.id) = _
    rw [kept, List.filter_append, others]
    simp [Listener.closure]

end Custody

def Tallies (live : List (Listener κ)) (closures : List (UInt32 × ListenerKey))
    (hs : List (Handling κ)) : Prop := Apart [] hs → Custody hs live closures

namespace Tallies

variable {live : List (Listener κ)} {hs : List (Handling κ)} {more : List (Note κ)} {m : Model κ}
  {l : Listener κ}

theorem add (tallies : Tallies live m.closures hs) {pin : Pin} {key : ListenerKey}
    {out : Model κ × ListenerId} (adding : Adding m pin key out more) :
    Tallies (live ++ [⟨m.cpu, pin, out.2.raw, key⟩]) out.1.closures (hs ++ handlings more) := by
  obtain ⟨same, calls, rest, rfl, drops⟩ := adding
  let l : Listener κ := ⟨m.cpu, pin, out.2.raw, key⟩
  have handled : handlings (calledWith calls ++ .handled (.added l) :: rest) =
      .added l :: ((m.closure? l.id).map Handling.dropped).toList := by
    rw [handlingsAppend, handlingsCalled, ← drops]
    rfl
  intro apart
  rw [handled, apartAppend] at apart
  obtain ⟨absent, custody⟩ := (tallies apart.1).add (l := l) apart.2.1
  rw [handled, absent, same]
  exact custody

theorem remove (tallies : Tallies (l :: live) m.closures hs) (mine : l.cpu = m.cpu)
    {out : Model κ × Bool} (removing : Removing m ⟨l.id⟩ out more) :
    Tallies live out.1.closures (hs ++ handlings more) := by
  obtain ⟨same, handled⟩ := removing
  intro apart
  rw [apartAppend] at apart
  obtain ⟨found, custody⟩ := (tallies apart.1).remove
  rw [handled, found, same, ← mine]
  exact custody

theorem discard {closures : List (UInt32 × ListenerKey)} (tallies : Tallies [] closures hs)
    (drops : handlings more = closures.map fun c => .dropped c.2) :
    Tallies [] [] (hs ++ handlings more) := by
  intro apart
  rw [apartAppend] at apart
  have custody := tallies apart.1
  have none : closures = [] := custody.kept
  rw [none] at drops custody
  rw [drops, List.map_nil, List.append_nil]
  exact custody

end Tallies

def told (tab : Tab (Diary π κ)) : List (Handling κ) := handlings tab.page.notes
def handled (r : Rig (Tab (Diary π κ))) : List (Handling κ) := told r.world

section
variable {α : Type} {tells : α → List (Note κ) → Prop} {act : Act (Tab (Diary π κ)) α}

theorem Writes.asked (writes : Writes tells act) (r : Rig (Tab (Diary π κ))) :
    ∃ more, handled (ask act r).2 = handled r ++ handlings more ∧ tells (ask act r).1 more := by
  obtain ⟨more, notes, tells, -⟩ := writes r.world
  refine ⟨more, ?_, tells⟩
  rw [handled, askWorld, told, notes, handlingsAppend]
  rfl

theorem Writes.unhandled {holds : α → Prop} (writes : Writes (Calm holds) act) :
    Along (Alike (told (π := π) (κ := κ))) (ask act) := by
  refine alikeAsk act fun tab => ?_
  obtain ⟨more, notes, ⟨-, idle⟩, -⟩ := writes tab
  rw [told, notes, handlingsAppend, idle, List.append_nil]
  rfl

end
end Page
open Page Rig

variable {π κ : Type}

theorem Subscription.releaseAsks {ω μ : Type} (cpu : CpuModel ω μ) (model : μ) (s : Subscription)
    (r : Rig ω) :
    let asked := ask (cpu.unlisten model s.listener) (disarm s.key r).2
    (release cpu model s r).1 = asked.1.1 ∧ (release cpu model s r).2.world = asked.2.world := by
  rw [release, bindRun, bindRun]
  generalize ask (cpu.unlisten model s.listener) (disarm s.key r).2 = asked
  obtain ⟨⟨after, removed⟩, r⟩ := asked
  cases removed <;> exact ⟨rfl, rfl⟩

section
variable (p : Page π κ) {m : Model κ} {r : Rig (Tab (Diary π κ))}

theorem Subscription.releaseTallies {live : List (Listener κ)} {s : Subscription}
    (tallies : Tallies (.ofSubscription m.cpu s :: live) m.closures (handled r)) :
    let out := release p.noted.cpu m s r
    out.1.cpu = m.cpu ∧ Tallies live out.1.closures (handled out.2) := by
  obtain ⟨value, world⟩ := releaseAsks p.noted.cpu m s r
  obtain ⟨more, notes, removing⟩ := (unlistenRecorded p m s.listener).writes.asked
    (disarm s.key r).2
  have left := tallies.remove rfl removing
  intro out
  have after : handled out.2 = handled r ++ handlings more := (congrArg told world).trans notes
  rw [show out.1 = _ from value, after]
  exact ⟨by rw [removing.1]; rfl, left⟩

theorem Subscription.releaseAllTallies {subscriptions : List Subscription}
    (tallies : Tallies (subscriptions.map (.ofSubscription m.cpu)) m.closures (handled r)) :
    let out := releaseAll p.noted.cpu m subscriptions r
    Tallies [] out.1.closures (handled out.2) := by
  induction subscriptions generalizing m r with
  | nil => exact tallies
  | cons s rest ih =>
    obtain ⟨cpu, left⟩ := releaseTallies p tallies
    rw [← cpu] at left
    exact ih left

theorem Session.closeTallies {s : Session (Model κ)}
    (tallies : Tallies (s.subscriptions.map (.ofSubscription s.model.cpu)) s.model.closures
      (handled r)) :
    Tallies [] [] (handled (s.close p.noted.cpu p.noted.host r).2) := by
  have withdrawn : handled (s.withdraw p.noted.host r).2 = handled r :=
    withdrawAlong (alikeWay told).plain
      (fun token => (frameCallRecorded _ _ p.cancelFrame token).writes.unhandled) s r
  rw [← withdrawn] at tallies
  have released := Subscription.releaseAllTallies p tallies
  rw [closeSteps]
  let out := Subscription.releaseAll p.noted.cpu s.model s.subscriptions
    (s.withdraw p.noted.host r).2
  obtain ⟨more, notes, drops⟩ := (dropAllRecorded p out.1.closures).writes.asked
    (out.2.write (.record .debug
      (s.id.text ++ " closed after " ++ Text.decimal s.counters.cycles ++ " cycles")))
  have ended := released.discard drops
  rw [show handled out.2 ++ handlings more = _ from notes.symm] at ended
  exact ended

end
end VirtualBoard
