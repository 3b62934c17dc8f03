import VirtualBoard.Settings

/-! Which settings are usable, and what is said of those that are not.

The limits are looked at in a fixed order and the first one that is missed counts.
Only where all are met are the watched pins gone through, and the first one that is
no pin of a board or comes under a name from before counts. -/
namespace VirtualBoard

structure Watchable (watches : List Watch) : Prop where
  pins : ∀ w ∈ watches, w.pin.port.isUpper ∧ w.pin.bit < 8
  names : (watches.map Watch.name).Nodup

namespace Watchable

theorem nil : Watchable [] := ⟨by simp, List.nodup_nil⟩

theorem cons {w : Watch} {rest : List Watch} : Watchable (w :: rest) ↔
    (w.pin.port.isUpper ∧ w.pin.bit < 8) ∧ w.name ∉ rest.map Watch.name ∧ Watchable rest := by
  constructor
  · rintro ⟨pins, names⟩
    rw [List.forall_mem_cons] at pins
    rw [List.map_cons, List.nodup_cons] at names
    exact ⟨pins.1, names.1, pins.2, names.2⟩
  · rintro ⟨pin, apart, pins, names⟩
    exact ⟨List.forall_mem_cons.mpr ⟨pin, pins⟩, List.nodup_cons.mpr ⟨apart, names⟩⟩

end Watchable

theorem Pin.validBounds (p : Pin) : p.Valid ↔ p.port.isUpper ∧ p.bit < 8 := by
  have upper : p.port.isUpper = true ↔ 'A' ≤ p.port ∧ p.port ≤ 'Z' := decide_eq_true_iff
  rw [upper, and_assoc]
  exact Iff.rfl

namespace Settings

def limits (s : Settings) : List (Bool × Problem) :=
  [(decide (s.budget.wallClock ≠ .zero), .zeroWallClock),
    (decide (s.budget.maxSteps ≠ 0), .zeroSteps),
    (decide (s.sampleInterval ≠ .zero), .zeroInterval),
    (decide (s.imageLimit ≠ 0), .zeroLimit),
    (decide (s.imageLimit.toNat % 2 = 0), .oddLimit s.imageLimit.toNat)]

structure Usable (s : Settings) : Prop where
  wallClock : s.budget.wallClock ≠ .zero
  maxSteps : s.budget.maxSteps ≠ 0
  sampleInterval : s.sampleInterval ≠ .zero
  imageLimit : s.imageLimit ≠ 0
  wholeWords : s.imageLimit.toNat % 2 = 0
  watch : Watchable s.watch

/- What is wrong first: a limit with all before it met, or a watched pin with all limits met and
all pins before it watchable. An impossible pin is told before its name. -/
inductive Misses (s : Settings) : Problem → Prop where
  | limit {early late problem} (order : s.limits = early ++ (false, problem) :: late)
    (met : ∀ l ∈ early, l.1 = true) : Misses s problem
  | pin {early w late} (met : ∀ l ∈ s.limits, l.1 = true) (order : s.watch = early ++ w :: late)
    (before : Watchable early) (impossible : ¬ (w.pin.port.isUpper ∧ w.pin.bit < 8)) :
    Misses s (.invalidPin w.pin)
  | name {early w late} (met : ∀ l ∈ s.limits, l.1 = true) (order : s.watch = early ++ w :: late)
    (before : Watchable early) (possible : w.pin.port.isUpper ∧ w.pin.bit < 8)
    (again : w.name ∈ early.map Watch.name) : Misses s (.duplicateSignal w.name)

theorem problemParts (s : Settings) :
    s.problem? = ((s.limits.find? fun l => !l.1).map Prod.snd).or (watchProblem? [] s.watch) := by
  have odd : s.imageLimit % 2 = 1 ↔ ¬ s.imageLimit.toNat % 2 = 0 := by
    rw [← UInt64.toNat_inj, UInt64.toNat_mod]
    show s.imageLimit.toNat % 2 = 1 ↔ _
    omega
  unfold problem? limits
  simp only [odd, List.find?_cons]
  by_cases wall : s.budget.wallClock = .zero
  · simp [wall]
  by_cases steps : s.budget.maxSteps = 0
  · simp [wall, steps]
  by_cases interval : s.sampleInterval = .zero
  · simp [wall, steps, interval]
  by_cases limit : s.imageLimit = 0
  · simp [wall, steps, interval, limit]
  by_cases whole : s.imageLimit.toNat % 2 = 0
  · simp [wall, steps, interval, limit, whole]
  · simp [wall, steps, interval, limit, whole]

theorem watchNone {seen : List String} {watches : List Watch} :
    watchProblem? seen watches = none ↔ Watchable watches ∧ ∀ w ∈ watches, w.name ∉ seen := by
  induction watches generalizing seen with
  | nil => simp [watchProblem?, Watchable.nil]
  | cons w rest ih =>
    simp only [watchProblem?, Pin.validBounds, Watchable.cons, List.forall_mem_cons]
    by_cases possible : w.pin.port.isUpper ∧ w.pin.bit < 8
    · by_cases again : w.name ∈ seen
      · simp [possible, again]
      · rw [if_neg (not_not_intro possible), if_neg again, ih]
        simp only [List.mem_cons, not_or, List.mem_map]
        grind
    · simp [possible]

theorem watchAppend (seen : List String) (early late : List Watch) :
    watchProblem? seen (early ++ late) = (watchProblem? seen early).or
      (watchProblem? ((early.map Watch.name).reverse ++ seen) late) := by
  induction early generalizing seen with
  | nil => rfl
  | cons w rest ih =>
    simp only [List.cons_append, watchProblem?, List.map_cons, List.reverse_cons,
      List.append_assoc, List.nil_append]
    split
    · rfl
    · split
      · rfl
      · exact ih _

theorem watchFirst {seen : List String} {watches : List Watch} {problem : Problem}
    (wrong : watchProblem? seen watches = some problem) :
    ∃ early w late, watches = early ++ w :: late ∧ watchProblem? seen early = none ∧
      watchProblem? ((early.map Watch.name).reverse ++ seen) [w] = some problem := by
  induction watches generalizing seen with
  | nil => cases wrong
  | cons w rest ih =>
    have parts := watchAppend seen [w] rest
    rw [List.singleton_append, wrong] at parts
    cases first : watchProblem? seen [w] with
    | some other =>
      rw [first] at parts
      exact ⟨[], w, rest, rfl, rfl, by rw [parts]; exact first⟩
    | none =>
      rw [first] at parts
      obtain ⟨early, v, late, order, fine, last⟩ := ih parts.symm
      have before := watchAppend seen [w] early
      rw [first, Option.none_or] at before
      refine ⟨w :: early, v, late, congrArg (w :: ·) order, before.trans fine, ?_⟩
      rw [List.map_cons, List.reverse_cons, List.append_assoc]
      exact last

theorem watchOne {seen : List String} {w : Watch} {problem : Problem} :
    watchProblem? seen [w] = some problem ↔
      (¬ (w.pin.port.isUpper ∧ w.pin.bit < 8) ∧ problem = .invalidPin w.pin) ∨
      ((w.pin.port.isUpper ∧ w.pin.bit < 8) ∧ w.name ∈ seen ∧
        problem = .duplicateSignal w.name) := by
  simp only [watchProblem?, Pin.validBounds, @eq_comm _ problem]
  by_cases possible : w.pin.port.isUpper ∧ w.pin.bit < 8
  · by_cases again : w.name ∈ seen
    · simp [possible, again]
    · simp [possible, again]
  · simp [possible]

theorem watchHead {seen : List String} {w : Watch} {problem : Problem}
    (wrong : watchProblem? seen [w] = some problem) (late : List Watch) :
    watchProblem? seen (w :: late) = some problem := by
  have parts := watchAppend seen [w] late
  rw [wrong] at parts
  exact parts

theorem limitsMet (s : Settings) : (s.limits.find? fun l => !l.1) = none ↔
    ∀ l ∈ s.limits, l.1 = true := by
  simp [List.find?_eq_none]

theorem problemNone (s : Settings) : s.problem? = none ↔ s.Usable := by
  rw [problemParts, Option.or_eq_none_iff, Option.map_eq_none_iff, limitsMet, watchNone]
  simp only [limits, List.forall_mem_cons, decide_eq_true_eq]
  constructor
  · rintro ⟨⟨wall, steps, interval, limit, whole, -⟩, watch, -⟩
    exact ⟨wall, steps, interval, limit, whole, watch⟩
  · rintro ⟨wall, steps, interval, limit, whole, watch⟩
    exact ⟨⟨wall, steps, interval, limit, whole, by simp⟩, watch, by simp⟩

/- Settings can be run with if nothing is wrong with them, and what they are refused for is what is
wrong first. -/
theorem settingsDecided (s : Settings) :
    (s.problem? = none ↔ s.Usable) ∧
    ∀ problem, s.problem? = some problem ↔ s.Misses problem := by
  refine ⟨problemNone s, fun problem => ⟨fun refused => ?_, fun wrong => ?_⟩⟩
  · rw [problemParts] at refused
    cases missed : s.limits.find? fun l => !l.1 with
    | some l =>
      rw [missed] at refused
      cases refused
      obtain ⟨unmet, early, late, order, met⟩ := List.find?_eq_some_iff_append.mp missed
      have parts : l = (false, l.2) := Prod.ext (by simpa using unmet) rfl
      rw [parts] at order
      exact .limit order fun l member => by simpa using met l member
    | none =>
      rw [missed] at refused
      have met := (limitsMet s).mp missed
      obtain ⟨early, w, late, order, fine, last⟩ := watchFirst refused
      obtain ⟨before, -⟩ := watchNone.mp fine
      rw [List.append_nil] at last
      rcases watchOne.mp last with ⟨impossible, rfl⟩ | ⟨possible, again, rfl⟩
      · exact .pin met order before impossible
      · exact .name met order before possible (List.mem_reverse.mp again)
  · rw [problemParts]
    cases wrong with
    | @limit early late _ order met =>
      have missed : (s.limits.find? fun l => !l.1) = some (false, problem) :=
        List.find?_eq_some_iff_append.mpr
          ⟨rfl, early, late, order, fun l member => by simp [met l member]⟩
      rw [missed]
      rfl
    | @pin early w late met order before impossible =>
      rw [(limitsMet s).mpr met, order, watchAppend,
        watchNone.mpr ⟨before, by simp⟩, List.append_nil]
      exact watchHead (watchOne.mpr (.inl ⟨impossible, rfl⟩)) late
    | @name early w late met order before possible again =>
      rw [(limitsMet s).mpr met, order, watchAppend,
        watchNone.mpr ⟨before, by simp⟩, List.append_nil]
      exact watchHead (watchOne.mpr (.inr ⟨possible, List.mem_reverse.mpr again, rfl⟩)) late

/- A pin that is no pin of a board, under a name from before. -/
example : ({standard with watch := [⟨"led", .led⟩, ⟨"led", ⟨'d', 7⟩⟩]} : Settings).problem? =
    some (.invalidPin ⟨'d', 7⟩) := by decide

end Settings
end VirtualBoard
