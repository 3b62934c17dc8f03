import VirtualBoard.Proofs.Controller.Runs

/-! What becomes of the frames that are asked for.

Each is run once or taken back once, and until then a live session waits for it.
The books are kept over everything in its order: a frame is asked for only while
none is waited for, and the one waited for is the only one to be run or taken
back. -/
namespace VirtualBoard

inductive Deal where
  | asked (token : BurstToken)
  | ran (token : BurstToken)
  | withdrawn (token : BurstToken)
  deriving DecidableEq

namespace Deal

def asked? : Deal → Option BurstToken
  | asked token => some token
  | _ => none

end Deal

def Call.deal? {μ : Type} : Call μ → Option Deal
  | requested token => some (.asked token)
  | cancelled token => some (.withdrawn token)
  | _ => none

/- The books: the deals so far, how many frames were asked for, and the one waited for. -/
inductive Books : List Deal → Nat → Option BurstToken → Prop where
  | new : Books [] 0 none
  | asked {deals n} (books : Books deals n none) :
    Books (deals ++ [.asked ⟨n + 1⟩]) (n + 1) (some ⟨n + 1⟩)
  | ran {deals n token} (books : Books deals n (some token)) :
    Books (deals ++ [.ran token]) n none
  | withdrawn {deals n token} (books : Books deals n (some token)) :
    Books (deals ++ [.withdrawn token]) n none

/- No frame is asked for twice; each that was is in exactly one of three states; and there is
nothing else. -/
structure Conserved (deals : List Deal) (waiting : Option BurstToken) : Prop where
  rising : (deals.filterMap Deal.asked?).Pairwise (·.raw < ·.raw)
  fate : ∀ t, .asked t ∈ deals →
    (deals.count (.ran t) = 1 ∧ .withdrawn t ∉ deals ∧ waiting ≠ some t) ∨
    (.ran t ∉ deals ∧ deals.count (.withdrawn t) = 1 ∧ waiting ≠ some t) ∨
    (.ran t ∉ deals ∧ .withdrawn t ∉ deals ∧ waiting = some t)
  others : ∀ t, .asked t ∉ deals → .ran t ∉ deals ∧ .withdrawn t ∉ deals ∧ waiting ≠ some t

namespace Conserved

variable {deals : List Deal} {t : BurstToken}

theorem asks (before : Conserved deals none) (rises : ∀ s, .asked s ∈ deals → s.raw < t.raw) :
    Conserved (deals ++ [.asked t]) (some t) := by
  have unasked : .asked t ∉ deals := fun old => Nat.lt_irrefl _ (rises t old)
  obtain ⟨unran, kept, -⟩ := before.others t unasked
  refine ⟨?_, fun s asked => ?_, fun s other => ?_⟩
  · rw [List.filterMap_append, List.pairwise_append]
    refine ⟨before.rising, List.pairwise_singleton _ _, fun s old t new => ?_⟩
    obtain ⟨_ | _ | _, member, is⟩ := List.mem_filterMap.mp old <;> cases is
    cases List.mem_singleton.mp new
    exact rises s member
  · rcases List.mem_append.mp asked with old | new
    · -- No other frame is waited for, and what became of this one stays.
      have apart : some t ≠ some s := fun same => unasked (Option.some.inj same ▸ old)
      rcases before.fate s old with ⟨once, kept, -⟩ | ⟨unran, once, -⟩ | ⟨-, -, waited⟩
      · exact .inl ⟨by simp [once], by simp [kept], apart⟩
      · exact .inr (.inl ⟨by simp [unran], by simp [once], apart⟩)
      · cases waited
    · cases List.mem_singleton.mp new
      exact .inr (.inr ⟨by simp [unran], by simp [kept], rfl⟩)
  · have apart : t ≠ s := fun same => other (by simp [same])
    obtain ⟨unran, kept, -⟩ := before.others s fun old => other (List.mem_append_left _ old)
    exact ⟨by simp [unran], by simp [kept], by simp [apart]⟩

theorem runs (before : Conserved deals (some t)) : Conserved (deals ++ [.ran t]) none := by
  have rising := before.rising
  refine ⟨by simpa [List.filterMap_cons, Deal.asked?] using rising, fun s asked => ?_,
    fun s other => ?_⟩
  · rcases before.fate s (by simpa using asked) with
      ⟨once, kept, moved⟩ | ⟨unran, once, moved⟩ | ⟨unran, kept, waited⟩
    · have apart : t ≠ s := fun same => moved (congrArg some same)
      exact .inl ⟨by simp [List.count_append, once, apart], by simp [kept], by simp⟩
    · have apart : s ≠ t := fun same => moved (congrArg some same.symm)
      exact .inr (.inl ⟨by simp [unran, apart], by simp [List.count_append, once], by simp⟩)
    · cases waited
      exact .inl ⟨by simp [List.count_append, List.count_eq_zero.mpr unran], by simp [kept],
        by simp⟩
  · obtain ⟨unran, kept, apart⟩ := before.others s (by simpa using other)
    have apart : s ≠ t := fun same => apart (congrArg some same.symm)
    exact ⟨by simp [unran, apart], by simp [kept], by simp⟩

theorem withdraws (before : Conserved deals (some t)) :
    Conserved (deals ++ [.withdrawn t]) none := by
  have rising := before.rising
  refine ⟨by simpa [List.filterMap_cons, Deal.asked?] using rising, fun s asked => ?_,
    fun s other => ?_⟩
  · rcases before.fate s (by simpa using asked) with
      ⟨once, kept, moved⟩ | ⟨unran, once, moved⟩ | ⟨unran, kept, waited⟩
    · have apart : s ≠ t := fun same => moved (congrArg some same.symm)
      exact .inl ⟨by simp [List.count_append, once], by simp [kept, apart], by simp⟩
    · have apart : t ≠ s := fun same => moved (congrArg some same)
      exact .inr (.inl ⟨by simp [unran], by simp [List.count_append, once, apart], by simp⟩)
    · cases waited
      exact .inr (.inl ⟨by simp [unran],
        by simp [List.count_append, List.count_eq_zero.mpr kept], by simp⟩)
  · obtain ⟨unran, kept, apart⟩ := before.others s (by simpa using other)
    have apart : s ≠ t := fun same => apart (congrArg some same.symm)
    exact ⟨by simp [unran], by simp [kept, apart], by simp⟩

end Conserved

namespace Books

variable {deals early : List Deal} {n : Nat} {waiting : Option BurstToken}

theorem bound (books : Books deals n waiting) {t : BurstToken} (asked : .asked t ∈ deals) :
    t.raw ≤ n := by
  induction books with
  | new => cases asked
  | asked books ih =>
    rcases List.mem_append.mp asked with old | fresh
    · exact Nat.le_succ_of_le (ih old)
    · cases List.mem_singleton.mp fresh
      exact Nat.le_refl _
  | ran books ih | withdrawn books ih => exact ih (by simpa using asked)

theorem conserved (books : Books deals n waiting) : Conserved deals waiting := by
  induction books with
  | new => exact ⟨.nil, by simp, by simp⟩
  | asked books ih => exact ih.asks fun s old => Nat.lt_succ_of_le (books.bound old)
  | ran books ih => exact ih.runs
  | withdrawn books ih => exact ih.withdraws

theorem ofPrefix (books : Books deals n waiting) (before : early <+: deals) :
    ∃ m waiting, Books early m waiting := by
  induction books with
  | new =>
    cases List.prefix_nil.mp before
    exact ⟨_, _, .new⟩
  | asked books ih =>
    rcases List.prefix_concat_iff.mp before with rfl | earlier
    · exact ⟨_, _, books.asked⟩
    · exact ih earlier
  | ran books ih =>
    rcases List.prefix_concat_iff.mp before with rfl | earlier
    · exact ⟨_, _, books.ran⟩
    · exact ih earlier
  | withdrawn books ih =>
    rcases List.prefix_concat_iff.mp before with rfl | earlier
    · exact ⟨_, _, books.withdrawn⟩
    · exact ih earlier

end Books

namespace Controller
open Rig

variable {ω μ : Type} {settings : Settings}

def accepts (c : Controller ω μ) (token : BurstToken) : Bool :=
  c.phase.session?.any fun session => (session.scheduler.accept token).1

def taken (c : Controller ω μ) : Command ω → List Deal
  | .frame token => if c.accepts token then [.ran token] else []
  | _ => []

def deals (env : Surroundings ω μ) (c : Controller ω μ) (command : Command ω) : List Deal :=
  c.taken command ++ (c.calls env command).filterMap Call.deal?

def dealings (env : Surroundings ω μ) (c : Controller ω μ) : List (Command ω) → List Deal
  | [] => []
  | command :: rest => c.deals env command ++ (c.perform env command).2.dealings env rest

theorem queuedOff {c : Controller ω μ} (ended : c.stage ≠ .running) : c.queued? = none := by
  obtain ⟨settings, phase, tokens, tickets, sessions, r⟩ := c
  cases phase with
  | running => exact absurd rfl ended
  | _ => rfl

theorem acceptsQueued {c : Controller ω μ} (orderly : Orderly settings c) (token : BurstToken) :
    c.accepts token = true ↔ c.queued? = some token := by
  have holds := orderly.holds
  unfold accepts queued?
  cases phase : c.phase with
  | running session snapshot =>
    rw [phase] at holds
    simp only [Phase.session?, Option.any_some, Option.bind_some, Scheduler.accept, holds.going,
      true_and]
    split
    · simp [*]
    · simp [*]
  | _ => simp [Phase.session?]

def BooksGoOn (c d : Controller (Noted ω μ) μ) : Prop :=
  ∃ deals, d.rig.world.picked Call.deal? = c.rig.world.picked Call.deal? ++ deals ∧
    ∀ {prior}, Books prior c.tokens.issued c.queued? →
      Books (prior ++ deals) d.tokens.issued d.queued?

namespace BooksGoOn

variable {b c d : Controller (Noted ω μ) μ}

theorem trans (early : BooksGoOn b c) (late : BooksGoOn c d) : BooksGoOn b d := by
  obtain ⟨first, noted, goes⟩ := early
  obtain ⟨second, more, last⟩ := late
  refine ⟨first ++ second, by rw [more, noted, List.append_assoc], fun books => ?_⟩
  rw [← List.append_assoc]
  exact last (goes books)

theorem alike (undealt : Alike (Noted.picked Call.deal?) c.rig d.rig) (tokens : d.tokens = c.tokens)
    (queued : d.queued? = c.queued?) : BooksGoOn c d := by
  refine ⟨[], undealt.trans (List.append_nil _).symm, fun {prior} books => ?_⟩
  rw [List.append_nil, tokens, queued]
  exact books

end BooksGoOn

theorem closeDeals (env : Surroundings ω μ) (s : Session μ) (r : Rig (Noted ω μ)) :
    (s.close env.noted.cpu env.noted.host r).2.world.picked Call.deal? =
      r.world.picked Call.deal? ++ s.scheduler.pending.toList.map .withdrawn := by
  have taken : (s.withdraw env.noted.host r).2.world.picked Call.deal? =
      r.world.picked Call.deal? ++ s.scheduler.pending.toList.map .withdrawn := by
    unfold Session.withdraw
    cases s.scheduler.pending with
    | none => exact (List.append_nil _).symm
    | some token =>
      rw [askWorld]
      show (r.world.calls ++ [Call.cancelled token]).filterMap Call.deal? = _
      rw [List.filterMap_append]
      rfl
  have released : Along (Alike (Noted.picked Call.deal?))
      (Subscription.releaseAll env.noted.cpu s.model s.subscriptions) :=
    Subscription.releaseAllAlong (alikeWay _).plain (fun _ _ => rfl)
      (fun m id => notingAlike (fun out => .unlistened m id out.1 out.2) (fun _ => rfl)
        (env.cpu.unlisten m id)) s.model s.subscriptions
  have ended := (s.closeRun (alikeWay (Noted.picked Call.deal?)).plain env.noted.cpu env.noted.host
    (fun m => notingAlike (fun _ => .discarded m) (fun _ => rfl) (env.cpu.discard m)) r).2
  exact ended.trans ((released _).trans taken)

section
variable {c : Controller (Noted ω μ) μ}

theorem closeBooks {session : Session μ} {snapshot : Option Snapshot}
    (phase : c.phase = .running session snapshot) (env : Surroundings ω μ)
    {d : Controller (Noted ω μ) μ} (off : d.phase.session? = none) (tokens : d.tokens = c.tokens)
    (world : d.rig.world = (session.close env.noted.cpu env.noted.host c.rig).2.world) :
    BooksGoOn c d := by
  refine ⟨session.scheduler.pending.toList.map .withdrawn, ?_, fun {prior} books => ?_⟩
  · rw [world, closeDeals]
  · have waited := queuedBy phase
    have waits : d.queued? = none := by rw [queued?, off]; rfl
    rw [waited] at books
    rw [waits, tokens]
    cases pending : session.scheduler.pending with
    | none =>
      rw [pending] at books
      exact (List.append_nil prior).symm ▸ books
    | some token =>
      rw [pending] at books
      exact books.withdrawn

theorem startBooks (source : String) : BooksGoOn c (c.start source).2 := by
  obtain ⟨settings, phase, tokens, tickets, sessions, r⟩ := c
  cases phase <;> exact .alike rfl rfl rfl

theorem stopBooks (env : Surroundings ω μ) : BooksGoOn c (c.stop env.noted) := by
  obtain ⟨settings, phase, tokens, tickets, sessions, r⟩ := c
  cases phase with
  | running session snapshot =>
    exact closeBooks rfl env rfl (by simp only [stop, closeRun]; rfl)
      (by simp only [stop, closeRun]; rfl)
  | _ => exact .alike rfl rfl rfl

theorem resetBooks (env : Surroundings ω μ) : BooksGoOn c (c.reset env.noted) := by
  obtain ⟨settings, phase, tokens, tickets, sessions, r⟩ := c
  cases phase with
  | running session snapshot =>
    exact closeBooks rfl env rfl (by simp only [reset, closeRun]; rfl)
      (by simp only [reset, closeRun]; rfl)
  | _ => exact .alike rfl rfl rfl

theorem askBooks {d : Controller (Noted ω μ) μ} {r : Rig (Noted ω μ)} (env : Surroundings ω μ)
    (undealt : Alike (Noted.picked Call.deal?) c.rig r)
    (world : d.rig.world = (ask (env.noted.host.request ⟨c.tokens.issued + 1⟩) r).2.world) :
    d.rig.world.picked Call.deal? =
      c.rig.world.picked Call.deal? ++ [.asked ⟨c.tokens.issued + 1⟩] := by
  rw [world, askWorld]
  show (r.world.calls ++ [Call.requested _]).filterMap Call.deal? = _
  rw [List.filterMap_append]
  exact congrArg (· ++ _) undealt

theorem loadBooks {ticket : Ticket} {held : Option Held} (phase : c.phase = .compiling ticket held)
    (env : Surroundings ω μ) (outcome : Outcome) : BooksGoOn c (c.load env.noted outcome) := by
  have idle : c.queued? = none := by rw [queued?, phase]; rfl
  have constructUndealt : ∀ image,
      Along (Alike (Noted.picked Call.deal?)) (ask (env.noted.construct image)) :=
    fun image => notingAlike (.constructed image) (fun _ => rfl) (env.construct image)
  rcases loadRun env.noted c outcome with
    ⟨failure, rig, loaded, along⟩ | ⟨text, image, model, rig, -, -, made, loaded⟩
  · rw [loaded]
    exact .alike (along (alikeWay _).plain constructUndealt) rfl idle.symm
  · have built := constructUndealt image (c.rig.write (.record .debug (loadedText image)))
    rw [made] at built
    have read := clockAlike Call.deal? (fun _ => rfl) env rig
    have opened := attachAlike Call.deal? (fun _ _ _ => rfl) (fun _ _ _ _ _ => rfl) env model
      c.settings.watch (ask env.noted.clock rig).2
    rw [loaded, launchRun]
    refine ⟨[.asked ⟨c.tokens.issued + 1⟩], ?_, fun {prior} books => ?_⟩
    · exact askBooks env (opened.trans (read.trans built)) rfl
    · rw [idle] at books
      exact books.asked

theorem booksPassage (env : Surroundings ω μ) :
    Passage env.noted (BooksGoOn (ω := ω) (μ := μ)) where
  trans := BooksGoOn.trans
  record _ _ _ := .alike rfl rfl rfl
  start _ source := startBooks source
  stop _ := stopBooks env
  reset _ := resetBooks env
  load phase outcome := loadBooks phase env outcome

theorem frameBooks (orderly : Orderly settings c) (env : Surroundings ω μ) (token : BurstToken) :
    ∃ deals, (c.frame env.noted token).2.rig.world.picked Call.deal? =
        c.rig.world.picked Call.deal? ++ deals ∧
      ∀ {prior}, Books prior c.tokens.issued c.queued? →
        Books (prior ++ (c.taken (.frame token) ++ deals))
          (c.frame env.noted token).2.tokens.issued (c.frame env.noted token).2.queued? := by
  by_cases waited : c.queued? = some token
  · have taken : c.taken (.frame token) = [.ran token] :=
      if_pos ((acceptsQueued orderly token).mpr waited)
    obtain ⟨session, snapshot, phase, pending⟩ := queuedRunning waited
    have holds := orderly.lives phase
    have ran := burstAlike Call.deal? (fun _ => rfl) (fun _ _ _ => rfl) (fun _ _ => rfl) env
      session.spent c.rig
    rcases frameRun env.noted c phase holds.going pending with
      ⟨fault, -, after⟩ | ⟨now, latest, rig, -, after, along⟩
    · have ended := closeDeals env (session.spent.burst env.noted.clock env.noted.cpu c.rig).1.1
        (session.spent.burst env.noted.clock env.noted.cpu c.rig).2
      rw [after, taken]
      refine ⟨[], ended.trans (congrArg (· ++ _) ran), fun {prior} books => ?_⟩
      rw [waited] at books
      exact books.ran
    · have sampled := along (alikeWay (Noted.picked Call.deal?)).plain
        (clockAlike Call.deal? (fun _ => rfl) env)
      rw [after, taken]
      refine ⟨[.asked ⟨c.tokens.issued + 1⟩], ?_, fun {prior} books => ?_⟩
      · exact askBooks env (sampled.trans ran) rfl
      · rw [waited] at books
        rw [← List.append_assoc]
        exact books.ran.asked
  · have taken : c.taken (.frame token) = [] :=
      if_neg fun accepted => waited ((acceptsQueued orderly token).mp accepted)
    obtain ⟨severity, text, after⟩ := frameStale env.noted c waited
    rw [after, taken]
    exact BooksGoOn.alike rfl rfl rfl

theorem performBooks (orderly : Orderly settings c) (env : Surroundings ω μ)
    (command : Command ω) :
    ∃ deals, (c.perform env.noted command.noted).2.rig.world.picked Call.deal? =
        c.rig.world.picked Call.deal? ++ deals ∧
      ∀ {prior}, Books prior c.tokens.issued c.queued? →
        Books (prior ++ (c.taken command.noted ++ deals))
          (c.perform env.noted command.noted).2.tokens.issued
          (c.perform env.noted command.noted).2.queued? := by
  cases command with
  | start source => exact startBooks source
  | complete ticket outcome => exact (booksPassage env).complete c ticket outcome
  | startWith source compiler =>
    have compiles : ∀ {d : Controller (Noted ω μ) μ} (request : Build.Request),
        BooksGoOn d (d.work (ask (compiler request).unnoted)).2 :=
      fun {d} request => .alike (alikeAsk (compiler request).unnoted (fun _ => rfl) d.rig) rfl rfl
    exact (booksPassage env).startWith (fun _ => compiles) c source
  | stop => exact stopBooks env
  | reset => exact resetBooks env
  | frame token => exact frameBooks orderly env token
  | outside act => exact BooksGoOn.alike (alikeAsk act.unnoted (fun _ => rfl) c.rig) rfl rfl

end

theorem dealsBooks {c : Controller ω μ} (orderly : Orderly settings c) (env : Surroundings ω μ)
    (command : Command ω) {prior : List Deal} (books : Books prior c.tokens.issued c.queued?) :
    Books (prior ++ c.deals env command) (c.perform env command).2.tokens.issued
      (c.perform env command).2.queued? := by
  obtain ⟨deals, noted, goes⟩ := performBooks orderly.withNotes env command
  have taken : c.withNotes.taken command.noted = c.taken command := by
    cases command <;> rfl
  have dealt : (c.calls env command).filterMap Call.deal? = deals := noted
  rw [notedStep, Controller.deals, dealt, ← taken]
  exact goes books

theorem dealingsBooks {c : Controller ω μ} (orderly : Orderly settings c) (env : Surroundings ω μ)
    (commands : List (Command ω)) {prior : List Deal}
    (books : Books prior c.tokens.issued c.queued?) :
    Books (prior ++ c.dealings env commands) (c.run env commands).2.tokens.issued
      (c.run env commands).2.queued? := by
  induction commands generalizing c prior with
  | nil => exact (List.append_nil prior).symm ▸ books
  | cons command rest ih =>
    have first := dealsBooks orderly env command books
    have others := ih (performOrderly orderly env command) first
    rw [List.append_assoc] at others
    exact others

/- Every frame asked for is run once, taken back once or waited for by the live session: between
any two commands, and at any point inside one. -/
theorem framesConserved (env : Surroundings ω μ) {settings : Settings}
    (usable : settings.problem? = none) (world : ω) :
    ∃ fresh : Controller ω μ, new settings world = .ok fresh ∧
      ∀ commands,
        let c := (fresh.run env commands).2
        Conserved (fresh.dealings env commands) c.queued? ∧
        (c.stage ≠ .running → c.queued? = none) ∧
        ∀ early, early <+: fresh.dealings env commands → ∃ waiting, Conserved early waiting := by
  obtain ⟨fresh, made⟩ := newUsable (μ := μ) usable world
  obtain ⟨orderly, issued, -⟩ := newOrderly made
  refine ⟨fresh, made, fun commands => ?_⟩
  have idle : fresh.queued? = none := queuedOff (by simp [stage, Phase.stage, newIdle made])
  have start : Books [] fresh.tokens.issued fresh.queued? := by
    rw [issued, idle]
    exact .new
  have books := dealingsBooks orderly env commands start
  rw [List.nil_append] at books
  refine ⟨books.conserved, queuedOff, fun early before => ?_⟩
  obtain ⟨n, waiting, earlier⟩ := books.ofPrefix before
  exact ⟨waiting, earlier.conserved⟩

theorem blinkConserved : ∃ fresh : Controller Duration Blink,
    new (Blink.settings 2) .zero = .ok fresh ∧
      let env := Blink.surroundings (.ofMillis 1)
      let deals := fresh.dealings env
        [Blink.begin, .frame ⟨1⟩, .frame ⟨1⟩, .stop, .frame ⟨2⟩, Blink.begin, .frame ⟨3⟩]
      deals = [.asked ⟨1⟩, .ran ⟨1⟩, .asked ⟨2⟩, .withdrawn ⟨2⟩, .asked ⟨3⟩, .ran ⟨3⟩,
        .asked ⟨4⟩] ∧
      Conserved deals (some ⟨4⟩) := by
  let env := Blink.surroundings (.ofMillis 1)
  let commands : List (Command Duration) :=
    [Blink.begin, .frame ⟨1⟩, .frame ⟨1⟩, .stop, .frame ⟨2⟩, Blink.begin, .frame ⟨3⟩]
  obtain ⟨fresh, made, all⟩ := framesConserved env
    (show (Blink.settings 2).problem? = none by decide) .zero
  have known : (new (Blink.settings 2) .zero).toOption.map (fun fresh : Controller Duration Blink =>
      (fresh.dealings env commands, (fresh.run env commands).2.queued?)) =
        some ([.asked ⟨1⟩, .ran ⟨1⟩, .asked ⟨2⟩, .withdrawn ⟨2⟩, .asked ⟨3⟩, .ran ⟨3⟩,
          .asked ⟨4⟩], some ⟨4⟩) := by decide +kernel
  rw [made] at known
  obtain ⟨dealt, waits⟩ := Prod.mk.inj (Option.some.inj known)
  obtain ⟨conserved, -⟩ := all commands
  rw [waits] at conserved
  exact ⟨fresh, made, dealt, conserved⟩

end Controller
end VirtualBoard
