import VirtualBoard.Proofs.Controller.Timing
import VirtualBoard.Proofs.Page.Answers

/-! The clock of a page.

What a page gives for the time may go back, or be no time at all. The clock shows
the greatest reading so far, which is kept in the tab and changed by nothing else.
So it never goes back in a run of a harness, and samples are taken as they are by
any clock of that kind. -/
namespace VirtualBoard.Page
open Rig Controller

variable {π κ α β : Type}

def Keeping (act : Act (Tab π) α) : Prop := ∀ tab, (act tab).world.latest = tab.latest

namespace Keeping

theorem call (call : Call π α) : Keeping (Page.act call) := fun _ => rfl

theorem pure (value : α) : Keeping (Pure.pure value : Act (Tab π) α) := fun _ => rfl

theorem bind {first : Act (Tab π) α} {next : α → Act (Tab π) β} (early : Keeping first)
    (late : ∀ a, Keeping (next a)) : Keeping (first >>= next) :=
  fun tab => (late _ _).trans (early tab)

end Keeping

section
variable (p : Page π κ)

theorem dropClosureKeeping (closure : Option ListenerKey) : Keeping (p.dropClosure? closure) := by
  cases closure with
  | none => exact .pure _
  | some key => exact .call _

theorem listenKeeping (m : Model κ) (pin : Pin) (key : ListenerKey) :
    Keeping (p.cpu.listen m pin key) :=
  .bind (.call _) fun _ => .bind (dropClosureKeeping p _) fun _ => .pure _

end

/- The readings so far never went back, and none is beyond the latest one. -/
structure Rising {μ : Type} (r : Rig (Noted (Tab π) μ)) : Prop where
  ordered : (readings r.world.calls).Pairwise (· ≤ ·)
  latest : ∀ t ∈ readings r.world.calls, t ≤ r.world.world.latest

def Rises {μ : Type} (r s : Rig (Noted (Tab π) μ)) : Prop := Rising r → Rising s

namespace Rises

variable {μ : Type}

theorem way : Way (Rises (π := π) (μ := μ)) :=
  ⟨fun _ rising => rising, fun early late rising => late (early rising),
    fun _ _ rising => ⟨rising.ordered, rising.latest⟩⟩

theorem unread {r s : Rig (Noted (Tab π) μ)} (same : Alike (Noted.picked Call.reading?) r s)
    (latest : s.world.world.latest = r.world.world.latest) : Rises r s := by
  intro rising
  have readings : readings s.world.calls = readings r.world.calls := same
  exact ⟨by rw [readings]; exact rising.ordered, by rw [readings, latest]; exact rising.latest⟩

theorem ask {act : Act (Tab π) α} (keeping : Keeping act) (note : α → VirtualBoard.Call μ)
    (other : ∀ a, (note a).reading? = none) : Along Rises (Rig.ask (act.noting note)) := by
  intro r
  refine unread (notingAlike note other act r) ?_
  rw [askWorld]
  exact keeping _

theorem unnoted {act : Act (Tab π) α} (keeping : Keeping act) :
    Along Rises (Rig.ask (act.unnoted (μ := μ))) := by
  intro r
  refine unread (alikeAsk act.unnoted (fun _ => rfl) r) ?_
  rw [askWorld]
  exact keeping _

theorem clock (p : Page π κ) : Along Rises (Rig.ask (Act.noting (.clock (μ := μ)) p.clock)) := by
  rintro ⟨⟨⟨page, latest⟩, calls⟩, board, armed, nextKey, log⟩ ⟨ordered, bound⟩
  let now := (p.clock ⟨page, latest⟩).value
  have later : latest ≤ now := Duration.leMaxLeft _ _
  have noted : readings (calls ++ [.clock now]) = readings calls ++ [now] := List.filterMap_append
  have all : ∀ t ∈ readings calls, t ≤ now := fun t member => Nat.le_trans (bound t member) later
  constructor
  · rw [askWorld]
    show (readings (calls ++ [.clock now])).Pairwise _
    rw [noted, List.pairwise_append]
    refine ⟨ordered, List.pairwise_singleton _ _, fun t member s new => ?_⟩
    rw [List.mem_singleton.mp new]
    exact all t member
  · rw [askWorld]
    show ∀ t ∈ readings (calls ++ [.clock now]), t ≤ now
    rw [noted]
    intro t member
    rcases List.mem_append.mp member with old | new
    · exact all t old
    · rw [List.mem_singleton.mp new]
      exact Nat.le_refl _

theorem attach (p : Page π κ) (size : Nat) : ∀ m watch,
    Along Rises (Subscription.attach (p.surroundings size).noted.cpu m watch) :=
  Subscription.attachAlong way.plain (fun _ _ => unread rfl rfl) (fun _ _ _ => unread rfl rfl)
    (fun _ _ => unread rfl rfl)
    (fun m pin => ask (.bind (.call _) fun _ => .pure _) (.read m pin) fun _ => rfl)
    fun m pin key => ask (listenKeeping p m pin key)
      (fun out : Model κ × ListenerId => .listened m pin key out.1 out.2) fun _ => rfl

end Rises

namespace Harness

end Harness

end VirtualBoard.Page
