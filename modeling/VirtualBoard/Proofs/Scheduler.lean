import Mathlib.Data.List.Induction
import VirtualBoard.Scheduler

/-! Schedulers that draw on one source of tokens, one after the other.

What was done with them is kept, with what they answered and the newest first. By that alone it is
known which token is pending: the last one the scheduler in use has issued, unless it was taken or
this scheduler is stopped. A token that is left behind by a newer one, by a stop or with its
scheduler is never taken again. Numbers are used up by the tokens issued alone, so a counter of 64
bits lasts for the first 2^64 - 1 of them. -/
namespace VirtualBoard.Scheduler

/- What is done with the scheduler in use; a new one may be put in its place. -/
inductive Move where
  | issue
  | accept (token : BurstToken)
  | cancel
  | replace (budget : Budget)

inductive Deed where
  | issued (token : Option BurstToken)
  | accepted (token : BurstToken) (taken : Bool)
  | cancelled (token : Option BurstToken)
  | replaced
  deriving DecidableEq, Repr

structure Desk where
  scheduler : Scheduler
  tokens : TokenSource

def Desk.move (d : Desk) : Move → Deed × Desk
  | .issue =>
    let (token, scheduler, tokens) := d.scheduler.issue d.tokens
    (.issued token, ⟨scheduler, tokens⟩)
  | .accept token =>
    let (taken, scheduler) := d.scheduler.accept token
    (.accepted token taken, ⟨scheduler, d.tokens⟩)
  | .cancel =>
    let (token, scheduler) := d.scheduler.cancel
    (.cancelled token, ⟨scheduler, d.tokens⟩)
  | .replace budget => (.replaced, ⟨.new budget, d.tokens⟩)

/- All that is done from some desk on, the newest deed first. -/
def deeds (d : Desk) : List Move → List Deed × Desk :=
  List.foldl (fun (done, d) move => ((d.move move).1 :: done, (d.move move).2)) ([], d)

namespace Deed

def issued? : Deed → Option BurstToken
  | issued token => token
  | _ => none

def taken? : Deed → Option BurstToken
  | accepted token true => some token
  | _ => none

def Drops : Deed → Prop
  | issued token => token ≠ none
  | cancelled _ | replaced => True
  | accepted .. => False

end Deed

section History
variable (done : List Deed)

def issues : List BurstToken := done.filterMap Deed.issued?
def takes : List BurstToken := done.filterMap Deed.taken?

def current : List Deed := done.takeWhile fun deed => deed ≠ .replaced

def Stopped : Prop := ∃ token, .cancelled token ∈ current done

structure Pending (token : BurstToken) : Prop where
  latest : (issues (current done)).head? = some token
  fresh : token ∉ takes done
  going : ¬ Stopped done

end History

def Deed.Honest (earlier : List Deed) : Deed → Prop
  | .issued token => token = none ↔ Stopped earlier
  | .accepted token taken => taken = true ↔ Pending earlier token
  | .cancelled token => ∀ t, token = some t ↔ Pending earlier t
  | .replaced => True

/-! One deed more. -/
section Newest
variable (done : List Deed) (token : BurstToken)

theorem currentReplaced : current (.replaced :: done) = [] := by simp [current]

theorem currentSame {deed : Deed} (same : deed ≠ .replaced) :
    current (deed :: done) = deed :: current done := by simp [current, same]

theorem currentIssued (found : Option BurstToken) :
    current (.issued found :: done) = .issued found :: current done := currentSame done nofun

theorem stoppedSame {deed : Deed} (same : deed ≠ .replaced)
    (going : ∀ t, deed ≠ .cancelled t) : Stopped (deed :: done) ↔ Stopped done := by
  simp only [Stopped, currentSame done same, List.mem_cons]
  constructor
  · rintro ⟨t, own | there⟩
    · exact absurd own.symm (going t)
    · exact ⟨t, there⟩
  · rintro ⟨t, there⟩
    exact ⟨t, .inr there⟩

theorem stoppedReplaced : ¬ Stopped (.replaced :: done) := by
  simp [Stopped, currentReplaced]

theorem stoppedCancelled (found : Option BurstToken) : Stopped (.cancelled found :: done) :=
  ⟨found, by simp [currentSame]⟩

theorem pendingSame {deed : Deed} (same : deed ≠ .replaced) (going : ∀ t, deed ≠ .cancelled t)
    (unissued : deed.issued? = none) (untaken : deed.taken? = none) :
    Pending (deed :: done) token ↔ Pending done token := by
  have latest : issues (current (deed :: done)) = issues (current done) := by
    rw [currentSame done same, issues, List.filterMap_cons_none unissued, ← issues]
  have takes : takes (deed :: done) = takes done := List.filterMap_cons_none untaken
  have stopped := stoppedSame done same going
  constructor
  · intro p
    exact ⟨latest ▸ p.latest, takes ▸ p.fresh, fun stop => p.going (stopped.mpr stop)⟩
  · intro p
    exact ⟨latest.symm ▸ p.latest, takes.symm ▸ p.fresh, fun stop => p.going (stopped.mp stop)⟩

end Newest

structure Fits (done : List Deed) (d : Desk) : Prop where
  rising : (issues done).Pairwise fun late early => early.raw < late.raw
  bound : ∀ token ∈ issues done, token.raw ≤ d.tokens.issued
  known : ∀ token ∈ takes done, token ∈ issues done
  single : (takes done).Nodup
  honest : ∀ later deed earlier, done = later ++ deed :: earlier → deed.Honest earlier
  stopped : d.scheduler.cancelled = true ↔ Stopped done
  pending : ∀ token, d.scheduler.pending = some token ↔ Pending done token

theorem newFits (budget : Budget) (tokens : TokenSource) : Fits [] ⟨.new budget, tokens⟩ where
  rising := .nil
  bound := by simp [issues]
  known := by simp [takes]
  single := .nil
  honest := by simp
  stopped := by simp [new, Stopped, current]
  pending token := by
    constructor
    · nofun
    · intro p
      cases p.latest

section Step
variable {done : List Deed} {d : Desk}

theorem honestMore {deed : Deed} (fits : Fits done d) (own : deed.Honest done) :
    ∀ later last earlier, deed :: done = later ++ last :: earlier → last.Honest earlier := by
  intro later last earlier parts
  cases later with
  | nil =>
    obtain ⟨rfl, rfl⟩ := List.cons.inj parts
    exact own
  | cons first later =>
    exact fits.honest later last earlier (List.cons.inj parts).2

theorem idleFits {deed : Deed} (fits : Fits done d) (same : deed ≠ .replaced)
    (going : ∀ t, deed ≠ .cancelled t) (unissued : deed.issued? = none)
    (untaken : deed.taken? = none) (own : deed.Honest done) : Fits (deed :: done) d := by
  have issued : issues (deed :: done) = issues done := List.filterMap_cons_none unissued
  have taken : takes (deed :: done) = takes done := List.filterMap_cons_none untaken
  refine ⟨?_, ?_, ?_, ?_, honestMore fits own, ?_, ?_⟩
  · rw [issued]
    exact fits.rising
  · rw [issued]
    exact fits.bound
  · rw [issued, taken]
    exact fits.known
  · rw [taken]
    exact fits.single
  · rw [stoppedSame done same going]
    exact fits.stopped
  · intro token
    rw [pendingSame done token same going unissued untaken]
    exact fits.pending token

theorem issuedFits (fits : Fits done d) (going : ¬ Stopped done) :
    let token : BurstToken := ⟨d.tokens.issued + 1⟩
    Fits (.issued (some token) :: done)
      ⟨{d.scheduler with pending := some token}, ⟨d.tokens.issued + 1⟩⟩ := by
  intro token
  have above : ∀ t ∈ issues done, t.raw < token.raw :=
    fun t old => Nat.lt_succ_of_le (fits.bound t old)
  have untaken : token ∉ takes done :=
    fun old => Nat.lt_irrefl _ (above token (fits.known token old))
  have same : Deed.issued (some token) ≠ .replaced := nofun
  have stopped := stoppedSame done same nofun
  refine ⟨.cons above fits.rising, ?_, ?_, fits.single, honestMore fits ⟨nofun, ?_⟩, ?_, ?_⟩
  · exact List.forall_mem_cons.mpr
      ⟨Nat.le_refl _, fun t old => Nat.le_succ_of_le (fits.bound t old)⟩
  · exact fun t old => List.mem_cons_of_mem _ (fits.known t old)
  · exact fun stop => absurd stop going
  · exact fits.stopped.trans stopped.symm
  · intro t
    constructor
    · intro is
      cases Option.some.inj is
      exact ⟨by rw [currentIssued]; rfl, untaken, fun stop => going (stopped.mp stop)⟩
    · intro p
      have latest := p.latest
      rw [currentIssued] at latest
      exact latest

theorem issueFits (fits : Fits done d) :
    Fits ((d.move .issue).1 :: done) (d.move .issue).2 := by
  cases off : d.scheduler.cancelled with
  | true =>
    have stop := fits.stopped.mp off
    simp only [Desk.move, issue, off, if_true]
    exact idleFits fits nofun nofun rfl rfl ⟨fun _ => stop, fun _ => rfl⟩
  | false =>
    have going : ¬ Stopped done := fun stop => by simp [fits.stopped.mpr stop] at off
    have moved : d.move .issue = (.issued (some ⟨d.tokens.issued + 1⟩),
        ⟨{d.scheduler with pending := some ⟨d.tokens.issued + 1⟩}, ⟨d.tokens.issued + 1⟩⟩) := by
      simp [Desk.move, issue, off, TokenSource.next]
    rw [moved]
    exact issuedFits fits going

theorem takenFits (fits : Fits done d) {token : BurstToken} (pending : Pending done token) :
    Fits (.accepted token true :: done) ⟨{d.scheduler with pending := none}, d.tokens⟩ := by
  have member : token ∈ issues done := by
    have latest := List.mem_of_mem_head? pending.latest
    exact ((List.takeWhile_sublist _).filterMap _).subset latest
  have same : Deed.accepted token true ≠ .replaced := nofun
  refine ⟨fits.rising, fits.bound, List.forall_mem_cons.mpr ⟨member, fits.known⟩,
    List.nodup_cons.mpr ⟨pending.fresh, fits.single⟩,
    honestMore fits ⟨fun _ => pending, fun _ => rfl⟩, ?_, ?_⟩
  · exact fits.stopped.trans (stoppedSame done same nofun).symm
  · intro t
    constructor
    · nofun
    · intro p
      -- it would be the token that was taken just now
      have latest := p.latest
      rw [currentSame done same] at latest
      have own : some t = some token := latest.symm.trans pending.latest
      cases own
      exact absurd List.mem_cons_self p.fresh

theorem acceptFits (fits : Fits done d) (token : BurstToken) :
    Fits ((d.move (.accept token)).1 :: done) (d.move (.accept token)).2 := by
  have held := fits.pending token
  by_cases takes : d.scheduler.cancelled = false ∧ d.scheduler.pending = some token
  · have moved : d.move (.accept token) = (.accepted token true,
        ⟨{d.scheduler with pending := none}, d.tokens⟩) := by
      simp [Desk.move, accept, takes]
    rw [moved]
    exact takenFits fits (held.mp takes.2)
  · have moved : d.move (.accept token) = (.accepted token false, d) := by
      simp only [Desk.move, accept, if_neg takes]
    have refused : ¬ Pending done token := by
      intro pending
      have going : ¬ d.scheduler.cancelled = true := fun off => pending.going (fits.stopped.mp off)
      exact takes ⟨by simpa using going, held.mpr pending⟩
    rw [moved]
    exact idleFits fits nofun nofun rfl rfl ⟨nofun, fun pending => absurd pending refused⟩

theorem cancelFits (fits : Fits done d) :
    Fits ((d.move .cancel).1 :: done) (d.move .cancel).2 := by
  have stop := stoppedCancelled done d.scheduler.pending
  refine ⟨fits.rising, fits.bound, fits.known, fits.single, honestMore fits fits.pending, ?_, ?_⟩
  · exact ⟨fun _ => stop, fun _ => rfl⟩
  · intro token
    constructor
    · nofun
    · exact fun p => absurd stop p.going

theorem replaceFits (fits : Fits done d) (budget : Budget) :
    Fits ((d.move (.replace budget)).1 :: done) (d.move (.replace budget)).2 := by
  refine ⟨fits.rising, fits.bound, fits.known, fits.single, honestMore fits trivial, ?_, ?_⟩
  · exact ⟨nofun, fun stop => absurd stop (stoppedReplaced done)⟩
  · intro token
    constructor
    · nofun
    · intro p
      have latest := p.latest
      rw [Desk.move, currentReplaced] at latest
      cases latest

theorem moveFits (fits : Fits done d) (move : Move) :
    Fits ((d.move move).1 :: done) (d.move move).2 := by
  cases move with
  | issue => exact issueFits fits
  | accept token => exact acceptFits fits token
  | cancel => exact cancelFits fits
  | replace budget => exact replaceFits fits budget

end Step

theorem deedsFits (budget : Budget) (tokens : TokenSource) (moves : List Move) :
    Fits (deeds ⟨.new budget, tokens⟩ moves).1 (deeds ⟨.new budget, tokens⟩ moves).2 := by
  have start := newFits budget tokens
  unfold deeds
  generalize ([] : List Deed) = done at start ⊢
  generalize (⟨.new budget, tokens⟩ : Desk) = d at start ⊢
  induction moves generalizing done d with
  | nil => exact start
  | cons move rest ih => exact ih _ _ (moveFits start move)

theorem moveCounted (d : Desk) (move : Move) :
    (d.move move).2.tokens.issued = d.tokens.issued + (issues [(d.move move).1]).length := by
  cases move with
  | issue =>
    cases off : d.scheduler.cancelled <;>
      simp [Desk.move, issue, off, TokenSource.next, issues, Deed.issued?]
  | accept token => rfl
  | cancel => rfl
  | replace budget => rfl

theorem issuesAppend (later earlier : List Deed) :
    issues (later ++ earlier) = issues later ++ issues earlier := List.filterMap_append

theorem deedsCounted (d : Desk) (moves : List Move) :
    (deeds d moves).2.tokens.issued = d.tokens.issued + (issues (deeds d moves).1).length := by
  induction moves using List.reverseRecOn with
  | nil => rfl
  | append_singleton moves move ih =>
    have next : deeds d (moves ++ [move]) =
        (((deeds d moves).2.move move).1 :: (deeds d moves).1, ((deeds d moves).2.move move).2) :=
      List.foldl_append
    rw [next, moveCounted, ih]
    have more := issuesAppend [((deeds d moves).2.move move).1] (deeds d moves).1
    rw [List.singleton_append] at more
    rw [more, List.length_append, Nat.add_assoc, Nat.add_comm (issues (deeds d moves).1).length]

/-! A token that was left behind. -/

theorem latestAfter {middle earlier : List Deed} {deed : Deed} {token : BurstToken}
    (drops : deed.Drops)
    (latest : (issues (current (middle ++ deed :: earlier))).head? = some token)
    (going : ¬ Stopped (middle ++ deed :: earlier)) : token ∈ issues (middle ++ [deed]) := by
  induction middle with
  | nil =>
    cases deed with
    | issued found =>
      obtain ⟨t, rfl⟩ := Option.ne_none_iff_exists'.mp drops
      have own : some t = some token := by
        rw [List.nil_append, currentIssued] at latest
        exact latest
      cases own
      exact List.mem_singleton_self token
    | accepted t taken => exact drops.elim
    | cancelled found => exact absurd (stoppedCancelled earlier found) going
    | replaced =>
      rw [List.nil_append, currentReplaced] at latest
      cases latest
  | cons first middle ih =>
    rw [List.cons_append] at latest going ⊢
    cases first with
    | issued found =>
      have same : Deed.issued found ≠ .replaced := nofun
      have before : ¬ Stopped (middle ++ deed :: earlier) :=
        fun stop => going ((stoppedSame _ same nofun).mpr stop)
      rw [currentIssued] at latest
      cases found with
      | none => exact ih latest before
      | some t =>
        cases Option.some.inj latest
        exact List.mem_cons_self
    | accepted t taken =>
      have same : Deed.accepted t taken ≠ .replaced := nofun
      rw [currentSame _ same] at latest
      exact ih latest fun stop => going ((stoppedSame _ same nofun).mpr stop)
    | cancelled found => exact absurd (stoppedCancelled _ found) going
    | replaced =>
      rw [currentReplaced] at latest
      cases latest

theorem Fits.dropped {done later earlier : List Deed} {d : Desk} {deed : Deed} {token : BurstToken}
    (fits : Fits done d) (parts : done = later ++ deed :: earlier) (drops : deed.Drops)
    (old : token ∈ issues earlier) : token ∉ takes later := by
  intro taken
  obtain ⟨act, member, is⟩ := List.mem_filterMap.mp taken
  obtain ⟨front, middle, rfl⟩ := List.append_of_mem member
  have accepted : act = .accepted token true := by
    cases act with
    | accepted t took =>
      cases took with
      | true => cases is; rfl
      | false => cases is
    | _ => cases is
  subst accepted
  have whole : done = front ++ .accepted token true :: (middle ++ deed :: earlier) := by
    rw [parts, List.append_assoc, List.cons_append]
  have pending : Pending (middle ++ deed :: earlier) token :=
    (fits.honest front _ _ whole).mp rfl
  have new := latestAfter drops pending.latest pending.going
  -- one and the same token would be issued before the deed and not before it
  have split : done = (front ++ [.accepted token true]) ++ ((middle ++ [deed]) ++ earlier) := by
    rw [whole]
    simp
  have rising := fits.rising
  rw [split, issuesAppend] at rising
  have late := (List.pairwise_append.mp rising).2.1
  rw [issuesAppend] at late
  have order := (List.pairwise_append.mp late).2.2
  exact Nat.lt_irrefl _ (order token new token old)

structure Protocol (tokens : TokenSource) (done : List Deed) (d : Desk) : Prop where
  rising : (issues done).Pairwise fun late early => early.raw < late.raw
  counted : d.tokens.issued = tokens.issued + (issues done).length
  honest : ∀ later deed earlier, done = later ++ deed :: earlier → deed.Honest earlier
  once : (takes done).Nodup ∧ ∀ token ∈ takes done, token ∈ issues done
  dropped : ∀ later deed earlier, done = later ++ deed :: earlier → deed.Drops →
    ∀ token ∈ issues earlier, token ∉ takes later
  stopped : Stopped done → d.scheduler.pending = none ∧
    d.scheduler.issue d.tokens = (none, d.scheduler, d.tokens) ∧
    d.scheduler.cancel = (none, d.scheduler)

/- Each token is new and taken at most once, and only while it is the last one of the scheduler in
use and that is not stopped; a scheduler that is stopped gives no token away and counts none. -/
theorem tokensHonoured (budget : Budget) (tokens : TokenSource) (moves : List Move) :
    Protocol tokens (deeds ⟨.new budget, tokens⟩ moves).1
      (deeds ⟨.new budget, tokens⟩ moves).2 := by
  have fits := deedsFits budget tokens moves
  have counted := deedsCounted ⟨.new budget, tokens⟩ moves
  generalize (deeds ⟨.new budget, tokens⟩ moves).1 = done at fits counted ⊢
  generalize (deeds ⟨.new budget, tokens⟩ moves).2 = d at fits counted ⊢
  refine ⟨fits.rising, counted, fits.honest, ⟨fits.single, fits.known⟩, ?_, ?_⟩
  · intro later deed earlier parts drops token old
    exact fits.dropped parts drops old
  · intro stop
    have off := fits.stopped.mpr stop
    have none : d.scheduler.pending = none := by
      cases pending : d.scheduler.pending with
      | none => rfl
      | some token => exact absurd stop ((fits.pending token).mp pending).going
    refine ⟨none, if_pos off, ?_⟩
    simp only [cancel, none]
    rw [← none, ← off]

example (budget : Budget) : (deeds ⟨.new budget, ⟨0⟩⟩
    [.issue, .accept ⟨1⟩, .accept ⟨1⟩, .issue, .cancel, .cancel, .issue]).1 =
    [.issued none, .cancelled none, .cancelled (some ⟨2⟩), .issued (some ⟨2⟩),
      .accepted ⟨1⟩ false, .accepted ⟨1⟩ true, .issued (some ⟨1⟩)] := rfl

end VirtualBoard.Scheduler
