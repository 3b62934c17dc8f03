import VirtualBoard.Page.Harness
import VirtualBoard.Wire.Failure

/-! What is read back from a wire form.

Every value is read back from its form as it was, up to the parts of a
millisecond, and the value that is read is written as the same form. The form
may come as it was written or as JSON carries it. What is read from any other
form is not said here, nor how JSON spells a value. -/
namespace VirtualBoard

namespace Wire

mutual

def json : Wire → Wire
  | null | inert => null
  | bool b => bool b
  | int n | wide n => int n
  | float x => if x.isFinite then float x else null
  | text s => text s
  | list items => list (itemsJson items)
  | record fields => record (fieldsJson fields)

def itemsJson : List Wire → List Wire
  | [] => []
  | item :: rest => item.json :: itemsJson rest

def fieldsJson : List (String × Wire) → List (String × Wire)
  | [] => []
  | (name, value) :: rest => (name, value.json) :: fieldsJson rest

end

theorem itemsJsonMap (items : List Wire) : itemsJson items = items.map json := by
  induction items with
  | nil => rfl
  | cons item rest ih => simp [itemsJson, ih]

theorem fieldsJsonFind (name : String) (fields : List (String × Wire)) :
    ((fieldsJson fields).find? (·.1 = name)).map Prod.snd =
      ((fields.find? (·.1 = name)).map Prod.snd).map json := by
  induction fields with
  | nil => rfl
  | cons field rest ih =>
    obtain ⟨key, value⟩ := field
    by_cases found : key = name
    · simp [fieldsJson, found]
    · simpa [fieldsJson, found] using ih

def Carried (w arrived : Wire) : Prop := arrived = w ∨ arrived = w.json

theorem carriedText {s : String} {arrived : Wire} (carried : Carried (text s) arrived) :
    arrived = text s := by
  rcases carried with rfl | rfl
  · rfl
  · simp [json]

theorem carriedInt {n : Int} {arrived : Wire} (carried : Carried (int n) arrived) :
    arrived = int n := by
  rcases carried with rfl | rfl
  · rfl
  · simp [json]

theorem carriedField {fields : List (String × Wire)} {arrived value : Wire} {name : String}
    (carried : Carried (record fields) arrived)
    (there : (fields.find? (·.1 = name)).map Prod.snd = some value) :
    ∃ found, arrived.field? name = some (some found) ∧ Carried value found := by
  rcases carried with rfl | rfl
  · exact ⟨value, by simp only [field?, there], .inl rfl⟩
  · refine ⟨value.json, ?_, .inr rfl⟩
    simp only [json, field?, fieldsJsonFind, there, Option.map_some]

theorem carriedVariant {name : String} {content arrived : Wire}
    (carried : Carried (record [(name, content)]) arrived) :
    ∃ found, arrived.variant? = some (name, some found) ∧ Carried content found := by
  rcases carried with rfl | rfl
  · exact ⟨content, rfl, .inl rfl⟩
  · exact ⟨content.json, by simp [json, fieldsJson, variant?], .inr rfl⟩

end Wire

open Wire

/- What is read back of a value; written again it has the same form. -/
structure Returns {α : Type} [Wired α] (v kept : α) : Prop where
  read : ∀ arrived, Carried (toWire v) arrived → ofWire? arrived = some kept
  again : toWire kept = toWire v

def Word (n : Nat) : Prop := n < 18446744073709551616

/-! Plain values. -/

theorem returnsBool (b : Bool) : Returns b b := by
  refine ⟨fun arrived carried => ?_, rfl⟩
  rcases carried with rfl | rfl
  · rfl
  · simp [toWire, json, ofWire?]

theorem returnsString (s : String) : Returns s s := by
  refine ⟨fun arrived carried => ?_, rfl⟩
  rw [carriedText carried]
  rfl

theorem returnsChar (c : Char) : Returns c c := by
  refine ⟨fun arrived carried => ?_, rfl⟩
  rw [carriedText carried]
  simp [ofWire?]

theorem naturalRead {limit n : Nat} (small : n < limit) {arrived : Wire}
    (carried : Carried (int n) arrived) : arrived.natural? limit = some n := by
  rw [carriedInt carried]
  simp [natural?, small]

theorem wideRead {n : Nat} (word : Word n) {arrived : Wire} (carried : Carried (wide n) arrived) :
    arrived.wide? = some n := by
  have bound : (n : Int) < 18446744073709551616 := Int.ofNat_lt.mpr word
  rcases carried with rfl | rfl
  · simp [wide?, bound]
  · simp [json, wide?, bound]

theorem returnsByte (n : UInt8) : Returns n n := by
  refine ⟨fun arrived carried => ?_, rfl⟩
  simp [ofWire?, naturalRead n.toNat_lt carried]

theorem returnsShort (n : UInt16) : Returns n n := by
  refine ⟨fun arrived carried => ?_, rfl⟩
  simp [ofWire?, naturalRead n.toNat_lt carried]

theorem returnsLong (n : UInt32) : Returns n n := by
  refine ⟨fun arrived carried => ?_, rfl⟩
  simp [ofWire?, naturalRead n.toNat_lt carried]

theorem returnsWide (n : UInt64) : Returns n n := by
  refine ⟨fun arrived carried => ?_, rfl⟩
  simp [ofWire?, wideRead n.toNat_lt carried]

theorem returnsNat {n : Nat} (word : Word n) : Returns n n :=
  ⟨fun _ carried => wideRead word carried, rfl⟩

theorem returnsFloat {x : Float} (finite : x.isFinite = true) : Returns x x := by
  refine ⟨fun arrived carried => ?_, rfl⟩
  rcases carried with rfl | rfl
  · rfl
  · simp [toWire, json, finite, ofWire?]

theorem returnsList {α : Type} [Wired α] {items : List α} {kept : α → α}
    (each : ∀ item ∈ items, Returns item (kept item)) : Returns items (items.map kept) := by
  have read : ∀ carry : Wire → Wire, (∀ w, Carried w (carry w)) →
      ((items.map toWire).map carry).mapM ofWire? = some (items.map kept) := by
    intro carry sound
    induction items with
    | nil => rfl
    | cons item rest ih =>
      simp only [List.forall_mem_cons] at each
      simp only [List.map_cons, List.mapM_cons, each.1.read _ (sound _), ih each.2]
      rfl
  constructor
  · intro arrived carried
    rcases carried with rfl | rfl
    · simpa [toWire, ofWire?] using read id fun w => .inl rfl
    · simpa [toWire, ofWire?, json, itemsJsonMap] using read json fun w => .inr rfl
  · simpa [toWire] using fun item member => (each item member).again

theorem returnsItems {α : Type} [Wired α] {items : List α}
    (each : ∀ item ∈ items, Returns item item) : Returns items items := by
  have mapped : Returns items (items.map id) := returnsList each
  rwa [List.map_id] at mapped

/-! Fields of a record. -/

section Fields

variable {α : Type} [Wired α] {fields : List (String × Wire)} {arrived : Wire}

theorem requiredBack (name : String) {v kept : α} (carried : Carried (record fields) arrived)
    (there : (fields.find? (·.1 = name)).map Prod.snd = some (toWire v)) (back : Returns v kept) :
    arrived.required α name = some kept := by
  obtain ⟨found, field, content⟩ := carriedField carried there
  simp [required, field, back.read found content]

theorem defaultedBack (name : String) (default : α) {v kept : α}
    (carried : Carried (record fields) arrived)
    (there : (fields.find? (·.1 = name)).map Prod.snd = some (toWire v)) (back : Returns v kept) :
    arrived.defaulted name default = some kept := by
  obtain ⟨found, field, content⟩ := carriedField carried there
  simp [defaulted, field, back.read found content]

theorem optionalBack (name : String) {v : Option α} (carried : Carried (record fields) arrived)
    (there : (fields.find? (·.1 = name)).map Prod.snd = some (ofOption v))
    (back : ∀ a : α, Returns a a)
    (solid : ∀ (a : α) found, Carried (toWire a) found → found.isNull = false) :
    arrived.optional α name = some v := by
  obtain ⟨found, field, content⟩ := carriedField carried there
  cases v with
  | none =>
    have nothing : found = null := by
      rcases content with rfl | rfl
      · rfl
      · simp [ofOption, json]
    simp [Wire.optional, field, nothing, isNull]
  | some a =>
    simp [Wire.optional, field, solid a found content, (back a).read found content]

end Fields

theorem optionalText (name : String) {fields : List (String × Wire)} {arrived : Wire}
    {v : Option String} (carried : Carried (record fields) arrived)
    (there : (fields.find? (·.1 = name)).map Prod.snd = some (ofOption v)) :
    arrived.optional String name = some v := by
  apply optionalBack name carried there returnsString
  intro s found content
  rw [carriedText content]
  rfl

/-! Durations: whole milliseconds come back, as many as 64 bits hold. -/

def Duration.floored (d : Duration) : Duration := .ofMillis d.wholeMillis

theorem flooredNanos (d : Duration) :
    d.floored.nanos = min (d.nanos / 1000000) 18446744073709551615 * 1000000 := by
  simp only [Duration.floored, Duration.ofMillis, Duration.ofNanos, Duration.wholeMillis,
    Duration.milli, Duration.maxWord, Duration.bound, Duration.second]
  omega

theorem flooredMillis (d : Duration) : d.floored.wholeMillis = d.wholeMillis := by
  simp only [Duration.wholeMillis, flooredNanos, Duration.milli, Duration.maxWord]
  omega

theorem returnsDuration (d : Duration) : Returns d d.floored := by
  have word : Word d.wholeMillis := by
    unfold Word Duration.wholeMillis Duration.maxWord
    omega
  constructor
  · intro arrived carried
    simp [ofWire?, wideRead word carried, Duration.floored]
  · simp [toWire, flooredMillis]

/-! Pins, signals, settings and images. -/

theorem returnsPin (p : Pin) : Returns p p := by
  refine ⟨fun arrived carried => ?_, rfl⟩
  have port := requiredBack "port" carried (by simp) (returnsChar p.port)
  have bit := requiredBack "bit" carried (by simp) (returnsByte p.bit)
  simp [ofWire?, port, bit]

theorem plainBack {name : String} {arrived : Wire} (carried : Carried (text name) arrived) :
    arrived.plain? = some name := by
  rw [carriedText carried]
  simp [plain?, variant?]

theorem returnsLevel (level : Level) : Returns level level := by
  refine ⟨fun arrived carried => ?_, rfl⟩
  have name := plainBack carried
  cases level <;> simp [ofWire?, name, Level.all, Level.name]

theorem returnsListener (id : ListenerId) : Returns id id := by
  refine ⟨fun arrived carried => ?_, rfl⟩
  simp [ofWire?, naturalRead id.raw.toNat_lt carried]

theorem returnsWatch (b : Watch) : Returns b b := by
  refine ⟨fun arrived carried => ?_, rfl⟩
  have name := requiredBack "name" carried (by simp) (returnsString b.name)
  have pin := requiredBack "pin" carried (by simp) (returnsPin b.pin)
  simp [ofWire?, name, pin]

def Budget.floored (b : Budget) : Budget := {b with wallClock := b.wallClock.floored}

theorem returnsBudget (b : Budget) : Returns b b.floored := by
  -- By parts: the two as wholes are compared by computing with unknown durations.
  obtain ⟨wall, most⟩ := b
  constructor
  · intro arrived carried
    have wall := requiredBack "wall_clock" carried (by simp) (returnsDuration wall)
    have most := requiredBack "max_instructions" carried (by simp) (returnsLong most)
    simp [ofWire?, wall, most, Budget.floored]
  · simp [toWire, Budget.floored, flooredMillis]

def Settings.floored (s : Settings) : Settings :=
  {s with budget := s.budget.floored, sampleInterval := s.sampleInterval.floored}

theorem returnsSettings (s : Settings) : Returns s s.floored := by
  obtain ⟨budget, interval, limit, watch⟩ := s
  have watches : Returns watch watch := returnsItems fun b _ => returnsWatch b
  constructor
  · intro arrived carried
    have budget := defaultedBack "burst" Settings.standard.budget carried (by simp)
      (returnsBudget budget)
    have interval := defaultedBack "sample_interval" Settings.standard.sampleInterval carried
      (by simp) (returnsDuration interval)
    have limit := defaultedBack "max_image_bytes" Settings.standard.imageLimit carried (by simp)
      (returnsWide limit)
    have watch := defaultedBack "watch" Settings.standard.watch carried (by simp) watches
    simp [ofWire?, budget, interval, limit, watch, Settings.floored]
  · have budget := (returnsBudget budget).again
    have interval := (returnsDuration interval).again
    simp only [toWire] at budget interval ⊢
    simp [Settings.floored, budget, interval]

theorem returnsSignal {s : Signal} (word : Word s.changes) : Returns s s := by
  refine ⟨fun arrived carried => ?_, rfl⟩
  have name := requiredBack "name" carried (by simp) (returnsString s.name)
  have level := requiredBack "level" carried (by simp) (returnsLevel s.level)
  have changes := requiredBack "changes" carried (by simp) (returnsNat word)
  simp [ofWire?, name, level, changes]

theorem returnsImage (i : Image) : Returns i i := by
  refine ⟨fun arrived carried => ?_, rfl⟩
  have held : Returns i.words.toList i.words.toList := returnsItems fun word _ => returnsShort word
  have base := requiredBack "base_address" carried (by simp) (returnsLong i.base)
  have words := requiredBack "words" carried (by simp) held
  have entry := optionalBack "entry_point" (v := i.entry) carried (by simp) returnsLong
    fun n found content => by rw [carriedInt content]; rfl
  simp [ofWire?, base, words, entry]

/-! Tokens, compiles, snapshots and views. -/

theorem returnsToken {token : BurstToken} (word : Word token.raw) : Returns token token := by
  refine ⟨fun arrived carried => ?_, rfl⟩
  simp [ofWire?, wideRead word carried]

theorem returnsTicket {ticket : Ticket} (word : Word ticket.raw) : Returns ticket ticket := by
  refine ⟨fun arrived carried => ?_, rfl⟩
  simp [ofWire?, wideRead word carried]

theorem returnsSession {id : SessionId} (word : Word id.raw) : Returns id id := by
  refine ⟨fun arrived carried => ?_, rfl⟩
  simp [ofWire?, wideRead word carried]

theorem returnsRequest (r : Build.Request) : Returns r r := by
  refine ⟨fun arrived carried => ?_, rfl⟩
  have sketch := requiredBack "sketch" carried (by simp) (returnsString r.sketch)
  simp [ofWire?, sketch]

theorem returnsResponse (r : Build.Response) : Returns r r := by
  refine ⟨fun arrived carried => ?_, rfl⟩
  have hex := optionalText "hex" (v := r.hex) carried (by simp)
  have stderr := optionalText "stderr" (v := r.stderr) carried (by simp)
  simp [ofWire?, hex, stderr]

theorem returnsCompile {r : CompileRequest} (word : Word r.ticket.raw) : Returns r r := by
  refine ⟨fun arrived carried => ?_, rfl⟩
  have ticket := requiredBack "ticket" carried (by simp) (returnsTicket word)
  have body := requiredBack "body" carried (by simp) (returnsRequest r.body)
  simp [ofWire?, ticket, body, CompileRequest.body]

def Snapshot.floored (s : Snapshot) : Snapshot := {s with elapsed := s.elapsed.floored}

theorem returnsSnapshot {s : Snapshot} (word : Word s.cycles) (finite : s.rate.isFinite = true) :
    Returns s s.floored := by
  obtain ⟨cycles, elapsed, rate⟩ := s
  constructor
  · intro arrived carried
    have cycles := requiredBack "cycle_count" carried (by simp) (returnsNat word)
    have elapsed := requiredBack "elapsed" carried (by simp) (returnsDuration elapsed)
    have rate := requiredBack "instructions_per_second" carried (by simp) (returnsFloat finite)
    simp [ofWire?, cycles, elapsed, rate, Snapshot.floored]
  · simp [toWire, Snapshot.floored, flooredMillis]

theorem returnsView {v : StatusView} (word : Word v.cycles) (finite : v.frequency.isFinite = true)
    (words : ∀ s ∈ v.signals, Word s.changes) : Returns v v := by
  refine ⟨fun arrived carried => ?_, rfl⟩
  have shown : Returns v.signals v.signals :=
    returnsItems fun s member => returnsSignal (words s member)
  have status := requiredBack "status" carried (by simp) (returnsString v.status)
  have error := optionalText "error" (v := v.error) carried (by simp)
  have cycles := requiredBack "cycle_count" carried (by simp) (returnsNat word)
  have frequency := requiredBack "frequency_hz" carried (by simp) (returnsFloat finite)
  have uptime := requiredBack "uptime" carried (by simp) (returnsString v.uptime)
  have indicator := requiredBack "indicator" carried (by simp) (returnsBool v.indicator)
  have signals := requiredBack "signals" carried (by simp) shown
  simp [ofWire?, status, error, cycles, frequency, uptime, indicator, signals]

/-! Faults, image problems, failures and stages. -/

theorem returnsKind (kind : CpuFault.Kind) : Returns kind kind := by
  refine ⟨fun arrived carried => ?_, rfl⟩
  have name := plainBack carried
  cases kind <;> simp [ofWire?, name, CpuFault.Kind.all, CpuFault.Kind.name]

theorem returnsFault (f : CpuFault) : Returns f f := by
  refine ⟨fun arrived carried => ?_, rfl⟩
  have kind := requiredBack "kind" carried (by simp) (returnsKind f.kind)
  have reason := requiredBack "reason" carried (by simp) (returnsString f.reason)
  simp [ofWire?, kind, reason]

namespace Image.Problem

def numbers : Problem → List Nat
  | missingStart n | oddDigits n | truncated n | afterEnd n | checksumMismatch n _ _
  | unknownKind n _ | wrongLength n _ _ => [n]
  | badDigit n column => [n, column]
  | lengthMismatch n _ actual => [n, actual]
  | tooLarge finish limit => [finish, limit]
  | missingEnd | noData => []

def Words (p : Problem) : Prop := ∀ n ∈ p.numbers, Word n

theorem fieldsBack {p : Problem} (words : p.Words) (some : p.fields ≠ []) {arrived : Wire}
    (carried : Carried (record p.fields) arrived) : ofFields? p.name arrived = .some p := by
  have count : ∀ n ∈ p.numbers, Returns n n := fun n member => returnsNat (words n member)
  cases p with
  | missingStart n | oddDigits n | truncated n | afterEnd n =>
    have line := requiredBack "line" carried (by simp [fields]) (count n (by simp [numbers]))
    simp [ofFields?, name, line]
  | badDigit n column =>
    have line := requiredBack "line" carried (by simp [fields]) (count n (by simp [numbers]))
    have place := requiredBack "column" carried (by simp [fields])
      (count column (by simp [numbers]))
    simp [ofFields?, name, line, place]
  | lengthMismatch n declared actual =>
    have line := requiredBack "line" carried (by simp [fields]) (count n (by simp [numbers]))
    have said := requiredBack "declared" carried (by simp [fields]) (returnsByte declared)
    have held := requiredBack "actual" carried (by simp [fields]) (count actual (by simp [numbers]))
    simp [ofFields?, name, line, said, held]
  | checksumMismatch n found computed =>
    have line := requiredBack "line" carried (by simp [fields]) (count n (by simp [numbers]))
    have said := requiredBack "found" carried (by simp [fields]) (returnsByte found)
    have right := requiredBack "computed" carried (by simp [fields]) (returnsByte computed)
    simp [ofFields?, name, line, said, right]
  | unknownKind n kind =>
    have line := requiredBack "line" carried (by simp [fields]) (count n (by simp [numbers]))
    have said := requiredBack "kind" carried (by simp [fields]) (returnsByte kind)
    simp [ofFields?, name, line, said]
  | wrongLength n kind length =>
    have line := requiredBack "line" carried (by simp [fields]) (count n (by simp [numbers]))
    have said := requiredBack "kind" carried (by simp [fields]) (returnsByte kind)
    have held := requiredBack "len" carried (by simp [fields]) (returnsByte length)
    simp [ofFields?, name, line, said, held]
  | tooLarge finish limit =>
    have stop := requiredBack "end" carried (by simp [fields]) (count finish (by simp [numbers]))
    have most := requiredBack "limit" carried (by simp [fields]) (count limit (by simp [numbers]))
    simp [ofFields?, name, stop, most]
  | missingEnd | noData => exact absurd rfl some

theorem filledForm {p : Problem} (some : p.fields ≠ []) :
    toWire p = record [(p.name, record p.fields)] := by
  cases p with
  | missingEnd | noData => exact absurd rfl some
  | _ => rfl

end Image.Problem

theorem returnsProblem {p : Image.Problem} (words : p.Words) : Returns p p := by
  refine ⟨fun arrived carried => ?_, rfl⟩
  by_cases bare : p.fields = []
  · cases p with
    | missingEnd | noData =>
      rw [carriedText carried]
      rfl
    | _ => cases bare
  · rw [Image.Problem.filledForm bare] at carried
    obtain ⟨found, variant, content⟩ := carriedVariant carried
    have back := Image.Problem.fieldsBack words bare content
    cases p with
    | missingEnd | noData => exact absurd rfl bare
    | _ => simpa [ofWire?, variant, Image.Problem.name] using back

def Failure.Words : Failure → Prop
  | image problem => problem.Words
  | compile _ | cpu _ | transport _ => True

theorem returnsFailure {failure : Failure} (words : failure.Words) : Returns failure failure := by
  refine ⟨fun arrived carried => ?_, rfl⟩
  obtain ⟨found, variant, content⟩ := carriedVariant carried
  change arrived.variant?.bind _ = _
  rw [variant]
  cases failure with
  | compile text | transport text =>
    change (ofWire? found).bind _ = _
    rw [(returnsString text).read found content]
    rfl
  | image problem =>
    change (ofWire? found).bind _ = _
    rw [(returnsProblem words).read found content]
    rfl
  | cpu fault =>
    change (ofWire? found).bind _ = _
    rw [(returnsFault fault).read found content]
    rfl

def Lifecycle.Words : Lifecycle → Prop
  | failed failure => failure.Words
  | idle | compiling | running | stopped => True

theorem returnsStage {stage : Lifecycle} (words : stage.Words) : Returns stage stage := by
  refine ⟨fun arrived carried => ?_, rfl⟩
  cases stage with
  | failed failure =>
    obtain ⟨found, variant, content⟩ := carriedVariant carried
    change arrived.variant?.bind _ = _
    rw [variant]
    change (ofWire? found).bind _ = _
    rw [(returnsFailure words).read found content]
    rfl
  | idle | compiling | running | stopped =>
    rw [carriedText carried]
    rfl

/-! The answer a page gets for a frame. -/

def Page.FrameAnswer.Words : FrameAnswer → Prop
  | next token => Word token.raw
  | cancelled | faulted _ => True

theorem returnsAnswer {answer : Page.FrameAnswer} (words : answer.Words) :
    Returns answer answer := by
  refine ⟨fun arrived carried => ?_, rfl⟩
  cases answer with
  | next token =>
    have kind := requiredBack "kind" carried (by simp [toWire]) (returnsString "continue")
    have raw := requiredBack "token" carried (by simp) (returnsToken words)
    simp [ofWire?, kind, raw]
  | cancelled =>
    have kind := requiredBack "kind" carried (by simp [toWire]) (returnsString "cancelled")
    simp [ofWire?, kind]
  | faulted text =>
    have kind := requiredBack "kind" carried (by simp [toWire]) (returnsString "faulted")
    have reason := requiredBack "reason" carried (by simp) (returnsString text)
    simp [ofWire?, kind, reason]

/-! All kinds of values that have a wire form. Their counters are numbers of 64 bits, and their
floats are numbers. -/

structure FormsReturn : Prop where
  duration (d : Duration) : Returns d d.floored ∧
    d.floored.nanos = min (d.nanos / 1000000) 18446744073709551615 * 1000000
  pin (p : Pin) : Returns p p
  level (level : Level) : Returns level level
  listener (id : ListenerId) : Returns id id
  token {token : BurstToken} (word : Word token.raw) : Returns token token
  ticket {ticket : Ticket} (word : Word ticket.raw) : Returns ticket ticket
  session {id : SessionId} (word : Word id.raw) : Returns id id
  watch (b : Watch) : Returns b b
  budget (b : Budget) : Returns b {b with wallClock := b.wallClock.floored}
  settings (s : Settings) : Returns s
    {s with budget := {s.budget with wallClock := s.budget.wallClock.floored},
            sampleInterval := s.sampleInterval.floored}
  image (i : Image) : Returns i i
  signal {s : Signal} (word : Word s.changes) : Returns s s
  snapshot {s : Snapshot} (word : Word s.cycles) (finite : s.rate.isFinite = true) :
    Returns s {s with elapsed := s.elapsed.floored}
  view {v : StatusView} (word : Word v.cycles) (finite : v.frequency.isFinite = true)
    (words : ∀ s ∈ v.signals, Word s.changes) : Returns v v
  request (r : Build.Request) : Returns r r
  response (r : Build.Response) : Returns r r
  fault (f : CpuFault) : Returns f f
  problem {p : Image.Problem} (words : p.Words) : Returns p p
  failure {failure : Failure} (words : failure.Words) : Returns failure failure
  stage {stage : Lifecycle} (words : stage.Words) : Returns stage stage
  compile {r : CompileRequest} (word : Word r.ticket.raw) : Returns r r
  answer {answer : Page.FrameAnswer} (words : answer.Words) : Returns answer answer

theorem formsReturn : FormsReturn where
  duration d := ⟨returnsDuration d, flooredNanos d⟩
  pin := returnsPin
  level := returnsLevel
  listener := returnsListener
  token := returnsToken
  ticket := returnsTicket
  session := returnsSession
  watch := returnsWatch
  budget := returnsBudget
  settings := returnsSettings
  image := returnsImage
  signal := returnsSignal
  snapshot := returnsSnapshot
  view := returnsView
  request := returnsRequest
  response := returnsResponse
  fault := returnsFault
  problem := returnsProblem
  failure := returnsFailure
  stage := returnsStage
  compile := returnsCompile
  answer := returnsAnswer

theorem snapshotReturns :
    ofWire? (toWire (Snapshot.mk 7 (.ofNanos 2500000) 1.5)).json =
      some (Snapshot.mk 7 (.ofMillis 2) 1.5) ∧
    ofWire? (toWire (Lifecycle.failed (.image (.tooLarge 70000 32768)))).json =
      some (Lifecycle.failed (.image (.tooLarge 70000 32768))) := by
  have late : (Duration.ofNanos 2500000).floored = .ofMillis 2 := by decide
  have few : Word 7 := by
    unfold Word
    decide
  have words : (Lifecycle.failed (.image (.tooLarge 70000 32768))).Words := by
    simp [Lifecycle.Words, Failure.Words, Image.Problem.Words, Image.Problem.numbers, Word]
  have snapshot := formsReturn.snapshot (s := ⟨7, .ofNanos 2500000, 1.5⟩) few (by decide)
  have stage := formsReturn.stage words
  exact ⟨by simpa only [late] using snapshot.read _ (.inr rfl), stage.read _ (.inr rfl)⟩

end VirtualBoard
