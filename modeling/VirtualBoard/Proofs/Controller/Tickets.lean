import VirtualBoard.Proofs.Controller.Holding

/-! What passes between a controller and whoever compiles for it.

A request goes out under a new ticket, and an answer is taken under the ticket
that is pending or not at all. So requests and answers take turns, and what runs
is what the latest answer brought. Nothing is said of an answer that never comes. -/
namespace VirtualBoard

variable {ω μ : Type}

inductive Post where
  | sent (ticket : Ticket)
  | taken (ticket : Ticket) (outcome : Outcome)

namespace Post

def sent? : Post → Option Ticket
  | sent ticket => some ticket
  | taken .. => none

def taken? : Post → Option Ticket
  | sent _ => none
  | taken ticket _ => some ticket

end Post

def sents (posts : List Post) : List Ticket := posts.filterMap Post.sent?
def takens (posts : List Post) : List Ticket := posts.filterMap Post.taken?

section
variable (posts : List Post) (ticket : Ticket) (outcome : Outcome)

@[simp] theorem sentsSent : sents (posts ++ [.sent ticket]) = sents posts ++ [ticket] :=
  List.filterMap_append

@[simp] theorem sentsTaken : sents (posts ++ [.taken ticket outcome]) = sents posts :=
  List.filterMap_append.trans (List.append_nil _)

theorem takensSent : takens (posts ++ [.sent ticket]) = takens posts :=
  List.filterMap_append.trans (List.append_nil _)

theorem takensTaken : takens (posts ++ [.taken ticket outcome]) = takens posts ++ [ticket] :=
  List.filterMap_append

end

/- A correspondence in turns: under each new number a request, and then its answer before the
next request. It ends with so many tickets given out, and with one of them open or none. -/
inductive Turns : List Post → Nat → Option Ticket → Prop where
  | none : Turns [] 0 none
  | sent {posts : List Post} {n : Nat} (before : Turns posts n none) :
    Turns (posts ++ [.sent ⟨n + 1⟩]) (n + 1) (some ⟨n + 1⟩)
  | taken {posts : List Post} {n : Nat} {ticket : Ticket} (outcome : Outcome)
    (before : Turns posts n (some ticket)) : Turns (posts ++ [.taken ticket outcome]) n none

structure Once (posts : List Post) (pending : Option Ticket) : Prop where
  rising : (sents posts).Pairwise fun early late => early.raw < late.raw
  answered : sents posts = takens posts ++ pending.toList
  single : (takens posts).Nodup

namespace Turns

variable {posts : List Post} {n : Nat} {pending : Option Ticket}

theorem sentBound (turns : Turns posts n pending) : ∀ t ∈ sents posts, t.raw ≤ n := by
  induction turns with
  | none => simp [sents]
  | sent before ih =>
    rw [sentsSent]
    intro t member
    rcases List.mem_append.mp member with old | new
    · exact Nat.le_succ_of_le (ih t old)
    · cases List.mem_singleton.mp new
      exact Nat.le_refl _
  | taken outcome before ih => simpa using ih

theorem rising (turns : Turns posts n pending) :
    (sents posts).Pairwise fun early late => early.raw < late.raw := by
  induction turns with
  | none => exact .nil
  | sent before ih =>
    rw [sentsSent]
    refine List.pairwise_append.mpr ⟨ih, List.pairwise_singleton _ _, fun t old s new => ?_⟩
    rw [List.mem_singleton.mp new]
    exact Nat.lt_succ_of_le (before.sentBound t old)
  | taken outcome before ih => simpa using ih

theorem answered (turns : Turns posts n pending) :
    sents posts = takens posts ++ pending.toList := by
  induction turns with
  | none => rfl
  | sent before ih => simpa [takensSent] using ih
  | taken outcome before ih => simpa [takensTaken] using ih

theorem once (turns : Turns posts n pending) : Once posts pending where
  rising := turns.rising
  answered := turns.answered
  single := by
    have rising := turns.rising
    rw [turns.answered, List.pairwise_append] at rising
    exact rising.1.imp fun less same => Nat.ne_of_lt less (congrArg Ticket.raw same)

theorem newest {ticket : Ticket} (turns : Turns posts n (some ticket)) :
    ticket = ⟨n⟩ ∧ 0 < n := by
  cases turns with
  | sent before => exact ⟨rfl, Nat.succ_pos _⟩

theorem newestSent (turns : Turns posts n pending) (some : 0 < n) :
    (sents posts).getLast? = .some ⟨n⟩ := by
  induction turns with
  | none => cases some
  | sent before ih => simp
  | taken outcome before ih => simpa using ih some

end Turns

namespace Controller
open Rig

variable {settings : Settings} {env : Surroundings ω μ} {c : Controller ω μ}

def takes (env : Surroundings ω μ) (c : Controller ω μ) (ticket : Ticket) (outcome : Outcome) :
    List Post :=
  if (c.complete env ticket outcome).1.isOk then [.taken ticket outcome] else []

def posts (env : Surroundings ω μ) (c : Controller ω μ) : Command ω → List Post
  | .start source => (c.start source).1.toList.map fun request => .sent request.ticket
  | .complete ticket outcome => c.takes env ticket outcome
  | .startWith source compiler =>
    match c.start source with
    | (none, _) => []
    | (some request, c) =>
      let (answer, c) := c.work (Rig.ask (compiler request.body))
      .sent request.ticket :: c.takes env request.ticket (Compiler.outcome answer)
  | .stop | .reset | .frame _ | .outside _ => []

def postings (env : Surroundings ω μ) (c : Controller ω μ) : List (Command ω) → List Post
  | [] => []
  | command :: rest => c.posts env command ++ (c.perform env command).2.postings env rest

theorem completePending (env : Surroundings ω μ) {ticket : Ticket}
    (pending : c.phase.ticket? = some ticket) (outcome : Outcome) :
    ∃ held, c.phase = .compiling ticket held ∧
      c.complete env ticket outcome = (.ok (), (c.load env outcome).replay env held) := by
  cases phase : c.phase with
  | compiling other held =>
    rw [phase] at pending
    cases pending
    exact ⟨held, rfl, completeHeld phase outcome⟩
  | _ => rw [phase] at pending; cases pending

theorem completeStale (env : Surroundings ω μ) {ticket : Ticket}
    (stale : c.phase.ticket? ≠ some ticket) (outcome : Outcome) :
    c.complete env ticket outcome = (.error ⟨ticket⟩,
      c.record .warn ("compile " ++ ticket.text ++ " settled but is not pending")) := by
  unfold complete
  cases phase : c.phase with
  | compiling pending held =>
    refine if_neg fun same => stale ?_
    rw [phase, same]
    rfl
  | _ => rfl

structure Still (c d : Controller ω μ) : Prop where
  tickets : d.tickets = c.tickets
  pending : d.phase.ticket? = c.phase.ticket?
  image : ∀ s, d.phase.session? = some s → c.phase.session?.map Session.image = some s.image

namespace Still

variable {b c d : Controller ω μ}

theorem same (tickets : d.tickets = c.tickets) (phase : d.phase = c.phase) : Still c d where
  tickets := tickets
  pending := congrArg Phase.ticket? phase
  image s live := by rw [← phase, live]; rfl

theorem ended (tickets : d.tickets = c.tickets) (settled : c.phase.ticket? = none)
    (pending : d.phase.ticket? = none) (dead : d.phase.session? = none) : Still c d where
  tickets := tickets
  pending := pending.trans settled.symm
  image s live := by rw [dead] at live; cases live

theorem rested (rests : Rests c d) : Still c d where
  tickets := rests.tickets
  pending := rests.pending
  image s live := by rw [rests.live s live]; rfl

end Still

theorem replayRests (env : Surroundings ω μ) (c : Controller ω μ) (held : Option Held) :
    Rests c (c.replay env held) := by
  cases held with
  | none => exact .refl c
  | some command =>
    cases command with
    | stop => exact stopRests env c
    | reset => exact resetRests env c

theorem frameStill (orderly : Orderly settings c) (env : Surroundings ω μ) (token : BurstToken) :
    Still c (c.frame env token).2 := by
  by_cases waited : c.queued? = some token
  · obtain ⟨session, snapshot, phase, pending⟩ := queuedRunning waited
    have holds := orderly.lives phase
    rcases frameRun env c phase holds.going pending with
      ⟨fault, -, after⟩ | ⟨now, latest, rig, -, after, -⟩
    · rw [after]
      exact .ended rfl (by rw [phase]; rfl) rfl rfl
    · rw [after]
      refine ⟨rfl, by rw [phase]; rfl, fun s live => ?_⟩
      cases live
      rw [phase]
      rfl
  · obtain ⟨severity, text, after⟩ := frameStale env c waited
    rw [after]
    exact .same rfl rfl

/- The correspondence so far, and the run that came of it. -/
structure Filed (settings : Settings) (posts : List Post) (c : Controller ω μ) : Prop where
  orderly : Orderly settings c
  turns : Turns posts c.tickets c.phase.ticket?
  image : ∀ s, c.phase.session? = some s → ∃ ticket text,
    (sents posts).getLast? = some ticket ∧ posts.getLast? = some (.taken ticket (.ok text)) ∧
    Image.read settings.imageLimit.toNat text = .ok s.image

section
variable {prior : List Post}

theorem Filed.still {d : Controller ω μ} (filed : Filed settings prior c)
    (orderly : Orderly settings d) (still : Still c d) : Filed settings prior d where
  orderly := orderly
  turns := by rw [still.tickets, still.pending]; exact filed.turns
  image s live := by
    obtain ⟨old, before, same⟩ := Option.map_eq_some_iff.mp (still.image s live)
    rw [← same]
    exact filed.image old before

theorem loadSettled (env : Surroundings ω μ) (c : Controller ω μ) (outcome : Outcome) :
    (c.load env outcome).phase.ticket? = none := by
  rcases loadRun env c outcome with
    ⟨failure, rig, loaded, -⟩ | ⟨text, image, model, rig, -, -, -, loaded⟩ <;>
  · rw [loaded]
    rfl

theorem loadFiled {ticket : Ticket} {held : Option Held} (filed : Filed settings prior c)
    (phase : c.phase = .compiling ticket held) (env : Surroundings ω μ) (outcome : Outcome) :
    Filed settings (prior ++ [.taken ticket outcome]) (c.load env outcome) := by
  have quiet := filed.orderly.holds
  have turns := filed.turns
  rw [phase] at quiet turns
  have newest : (sents prior).getLast? = some ticket := by
    obtain ⟨rfl, given⟩ := turns.newest
    exact turns.newestSent given
  have orderly := loadOrderly filed.orderly.same filed.orderly.fits quiet env outcome
  have taken := turns.taken outcome
  rcases loadRun env c outcome with
    ⟨failure, rig, loaded, -⟩ | ⟨text, image, model, rig, rfl, read, -, loaded⟩
  · rw [loaded] at orderly ⊢
    exact ⟨orderly, taken, fun s live => by cases live⟩
  · rw [loaded] at orderly ⊢
    refine ⟨orderly, taken, fun s live => ⟨ticket, text, ?_, List.getLast?_concat, ?_⟩⟩
    · rw [sentsTaken]
      exact newest
    · cases live
      rw [← filed.orderly.same]
      exact read

theorem completeFiled (filed : Filed settings prior c) (env : Surroundings ω μ) (ticket : Ticket)
    (outcome : Outcome) : Filed settings (prior ++ c.takes env ticket outcome)
      (c.complete env ticket outcome).2 := by
  have orderly := completeOrderly filed.orderly env ticket outcome
  unfold takes
  by_cases pending : c.phase.ticket? = some ticket
  · obtain ⟨held, phase, settled⟩ := completePending env pending outcome
    rw [settled] at orderly ⊢
    exact (loadFiled filed phase env outcome).still orderly (.rested (replayRests env _ held))
  · rw [completeStale env pending outcome] at orderly ⊢
    simpa [Except.isOk, Except.toBool] using filed.still orderly (.same rfl rfl)

theorem startFiled (filed : Filed settings prior c) (source : String) :
    Filed settings (prior ++ (c.start source).1.toList.map fun request => .sent request.ticket)
      (c.start source).2 := by
  have orderly := startOrderly filed.orderly source
  have turns := filed.turns
  unfold start at orderly ⊢
  cases phase : c.phase with
  | idle | stopped =>
    rw [phase] at orderly turns
    exact ⟨orderly, turns.sent, fun s live => by cases live⟩
  | _ =>
    rw [phase] at orderly
    simpa using filed.still orderly (.same rfl rfl)

theorem performFiled (filed : Filed settings prior c) (env : Surroundings ω μ)
    (command : Command ω) :
    Filed settings (prior ++ c.posts env command) (c.perform env command).2 := by
  have orderly := performOrderly filed.orderly env command
  cases command with
  | start source => exact startFiled filed source
  | complete ticket outcome => exact completeFiled filed env ticket outcome
  | startWith source compiler =>
    have started := startFiled filed source
    simp only [perform, startWith, posts]
    generalize c.start source = out at started
    obtain ⟨request, d⟩ := out
    cases request with
    | none => exact started
    | some request =>
      have asked := started.orderly.kept (keepsAsk (compiler request.body) d.rig)
      have waits : Filed settings (prior ++ [.sent request.ticket])
          (d.work (ask (compiler request.body))).2 := started.still asked (.same rfl rfl)
      have settled := completeFiled waits env request.ticket
        (Compiler.outcome (d.work (ask (compiler request.body))).1)
      rw [List.append_assoc] at settled
      exact settled
  | stop => simpa [posts] using filed.still orderly (.rested (stopRests env c))
  | reset => simpa [posts] using filed.still orderly (.rested (resetRests env c))
  | frame token => simpa [posts] using filed.still orderly (frameStill filed.orderly env token)
  | outside act => simpa [posts] using filed.still orderly (.same rfl rfl)

end

theorem Filed.beside {posts : List Post} {d : Controller ω μ} (filed : Filed settings posts c)
    (beside : Beside c d) : Filed settings posts d := by
  refine filed.still (beside.orderly filed.orderly) (.same ?_ beside.phase)
  obtain ⟨_, _⟩ := beside
  rfl

theorem newFiled {world : ω} {fresh : Controller ω μ} (made : new settings world = .ok fresh) :
    Filed settings [] fresh := by
  obtain ⟨orderly, -, -⟩ := newOrderly made
  unfold new at made
  split at made
  · cases made
  · cases made
    exact ⟨orderly, .none, fun s live => by cases live⟩

end Controller
end VirtualBoard
