import VirtualBoard.Proofs.Image.Parts

/-! The problem that is reported for a text that is no image.

Lines are taken one by one and the first that cannot be taken decides, whatever
follows it. A problem that names a line is a problem of this line, and the text
up to it has no other. -/
namespace VirtualBoard.Image
open Text

/-! What is wrong with one record: its spelling, or one of the checks of its bytes. -/

theorem bytesProblem {line column : Nat} {digits : List UInt8} {problem : Problem}
    (failed : Record.bytes line column digits = .error problem) :
    ∃ place, problem = .badDigit line place := by
  induction column, digits using Record.bytes.induct line with
  | case1 column high low rest bad =>
    simp only [Record.bytes, bad, Except.error.injEq] at failed
    exact ⟨column, failed.symm⟩
  | case2 column high low rest value bad good =>
    simp only [Record.bytes, bad, good, Except.error.injEq] at failed
    exact ⟨column + 1, failed.symm⟩
  | case3 column high low rest h l lowRead highRead inner later ih =>
    simp only [Record.bytes, lowRead, highRead, later, Except.error.injEq] at failed
    exact ih (by rw [later, failed])
  | case4 column high low rest h l lowRead highRead tail done ih =>
    simp only [Record.bytes, lowRead, highRead, done] at failed
    cases failed
  | case5 digits column short => simp [Record.bytes] at failed

theorem ofLineWrites (line : Nat) {digits : List Char} {bytes : List UInt8}
    (writes : Writes digits bytes) :
    Record.ofLine line (':' :: digits) = Record.ofBytes line bytes := by
  obtain ⟨even, decoded⟩ := (bodyWrites line 2).mpr writes
  simp [Record.ofLine, even, decoded]

inductive Misspelled (line : Nat) : Problem → Prop where
  | start : Misspelled line (.missingStart line)
  | odd : Misspelled line (.oddDigits line)
  | digit (column : Nat) : Misspelled line (.badDigit line column)

theorem ofLineProblem {line : Nat} {text : List Char} {problem : Problem}
    (failed : Record.ofLine line text = .error problem) : Misspelled line problem ∨
      ∃ digits bytes, text = ':' :: digits ∧ Writes digits bytes ∧
        Record.ofBytes line bytes = .error problem := by
  unfold Record.ofLine at failed
  split at failed
  · rename_i body
    dsimp only at failed
    split at failed
    · cases failed
      exact .inl .odd
    · rename_i even
      cases decoded : Record.bytes line 2 (utf8 body) with
      | error inner =>
        rw [decoded] at failed
        cases failed
        obtain ⟨column, rfl⟩ := bytesProblem decoded
        exact .inl (.digit column)
      | ok found =>
        rw [decoded] at failed
        have writes := (bodyWrites line 2).mp ⟨of_not_not even, decoded⟩
        exact .inr ⟨body, found, rfl, writes, failed⟩
  · cases failed
    exact .inl .start

theorem bytesShape (line : Nat) (found : List UInt8) :
    (∃ row : Row, found = row.bytes) ∨ Record.ofBytes line found = .error (.truncated line) :=
  (Nat.lt_or_ge found.length 5).symm.imp Row.bytesLong (Row.bytesShort line)

inductive RowProblem (line : Nat) (row : Row) : Problem → Prop where
  | count (wrong : row.count.toNat ≠ row.data.length) :
      RowProblem line row (.lengthMismatch line row.count row.data.length)
  | sum (counted : row.count.toNat = row.data.length) {computed : UInt8}
      (checksum : computed =
        Record.checksum (row.count :: row.high :: row.low :: row.kind :: row.data))
      (wrong : computed ≠ row.check) :
      RowProblem line row (.checksumMismatch line row.check computed)
  | kind : RowProblem line row (.unknownKind line row.kind)
  | payload : RowProblem line row (.wrongLength line row.kind row.count)

theorem rowProblem {line : Nat} {row : Row} {problem : Problem}
    (failed : Record.ofBytes line row.bytes = .error problem) : RowProblem line row problem := by
  rw [Row.ofBytesRow] at failed
  split at failed
  · rename_i wrong
    cases failed
    exact .count wrong
  · rename_i counted
    dsimp only at failed
    split at failed
    · rename_i wrong
      cases failed
      exact .sum (of_not_not counted) rfl wrong
    · cases known : Record.Kind.ofByte? row.kind with
      | none =>
        rw [known] at failed
        cases failed
        exact .kind
      | some kind =>
        rw [known, Option.elim_some] at failed
        split at failed
        · cases failed
          exact .payload
        · cases failed

theorem ofBytesLine {line : Nat} {found : List UInt8} {problem : Problem}
    (failed : Record.ofBytes line found = .error problem) : problem.line? = some line := by
  rcases bytesShape line found with ⟨row, rfl⟩ | short
  · cases rowProblem failed <;> rfl
  · rw [short] at failed
    cases failed
    rfl

theorem ofLineLine {line : Nat} {text : List Char} {problem : Problem}
    (failed : Record.ofLine line text = .error problem) : problem.line? = some line := by
  rcases ofLineProblem failed with misspelled | ⟨digits, bytes, -, -, wrong⟩
  · cases misspelled <;> rfl
  · exact ofBytesLine wrong

/-! A checksum that is wrong, and the record with the right one. -/

def Summed (outcome : Except Problem Record) : Prop :=
  (∃ r, outcome = .ok r) ∨ (∃ line kind, outcome = .error (.unknownKind line kind)) ∨
    ∃ line kind length, outcome = .error (.wrongLength line kind length)

theorem rowSummed (line : Nat) {row : Row} (counted : row.count.toNat = row.data.length)
    (sum : Record.checksum (row.count :: row.high :: row.low :: row.kind :: row.data) = row.check) :
    Summed (Record.ofBytes line row.bytes) := by
  cases outcome : Record.ofBytes line row.bytes with
  | ok r => exact .inl ⟨r, rfl⟩
  | error problem =>
    cases rowProblem outcome with
    | count wrong => exact absurd counted wrong
    | sum _ checksum wrong => exact absurd (checksum.trans sum) wrong
    | kind => exact .inr (.inl ⟨_, _, rfl⟩)
    | payload => exact .inr (.inr ⟨_, _, _, rfl⟩)

/- The last two digits of a line write one checksum where its other digits ask for another. -/
structure Mismatch (line : Nat) (text : List Char) (found computed : UInt8) : Prop where
  differ : found ≠ computed
  repair : ∃ front high low, text = front ++ [high, low] ∧ Writes [high, low] [found] ∧
    ∀ first second, Writes [first, second] [computed] →
      Summed (Record.ofLine line (front ++ [first, second]))

theorem mismatchRepair {line named : Nat} {text : List Char} {found computed : UInt8}
    (failed : Record.ofLine line text = .error (.checksumMismatch named found computed)) :
    Mismatch line text found computed := by
  rcases ofLineProblem failed with misspelled | ⟨digits, bytes, rfl, writes, wrong⟩
  · cases misspelled
  · rcases bytesShape line bytes with ⟨row, rfl⟩ | short
    · cases rowProblem wrong with
      | sum counted checksum differ =>
        have all : Writes digits
            ((row.count :: row.high :: row.low :: row.kind :: row.data) ++ [row.check]) := writes
        obtain ⟨front, old, rfl, contents, last⟩ := writesParts all
        obtain ⟨high, low, rfl⟩ := List.length_eq_two.mp (writesLength last)
        refine ⟨Ne.symm differ, ':' :: front, high, low, rfl, last, fun first second right => ?_⟩
        have repaired : Writes (front ++ [first, second]) {row with check := computed}.bytes :=
          writesJoin contents right
        rw [List.cons_append, ofLineWrites line repaired]
        exact rowSummed line counted checksum.symm
    · rw [short] at wrong
      cases wrong

namespace Progress

theorem takeRecordProblem {limit : Nat} {p : Progress} {r : Record} {problem : Problem}
    (failed : p.takeRecord limit r = .error problem) :
    ∃ finish, problem = .tooLarge finish limit := by
  unfold takeRecord at failed
  split at failed
  case h_2 =>
    dsimp only at failed
    split at failed
    · cases failed
      exact ⟨_, rfl⟩
    · cases failed
  all_goals cases failed

inductive LineProblem (limit line : Nat) (text : List Char) : Problem → Prop where
  | after : LineProblem limit line text (.afterEnd line)
  | record {problem : Problem} (failed : Record.ofLine line text = .error problem) :
      LineProblem limit line text problem
  | large (finish : Nat) : LineProblem limit line text (.tooLarge finish limit)

theorem takeLineProblem {limit line : Nat} {p : Progress} {raw : List Char} {problem : Problem}
    (failed : p.takeLine limit line raw = .error problem) :
    trim raw ≠ [] ∧ LineProblem limit line (trim raw) problem := by
  unfold takeLine at failed
  dsimp only at failed
  split at failed
  · cases failed
  · rename_i solid
    refine ⟨solid, ?_⟩
    split at failed
    · cases failed
      exact .after
    · split at failed
      · rename_i inner bad
        cases failed
        exact .record bad
      · obtain ⟨finish, rfl⟩ := takeRecordProblem failed
        exact .large finish

theorem LineProblem.named {limit line named : Nat} {text : List Char} {problem : Problem}
    (why : LineProblem limit line text problem) (is : problem.line? = some named) :
    named = line := by
  cases why with
  | after => exact (Option.some.inj is).symm
  | record failed => exact Option.some.inj (is.symm.trans (ofLineLine failed))
  | large finish => cases is

theorem takeLinesProblem {limit line : Nat} {p : Progress} {raws : List (List Char)}
    {problem : Problem} : p.takeLines limit line raws = .error problem ↔
      ∃ early raw late q, raws = early ++ raw :: late ∧ p.takeLines limit line early = .ok q ∧
        q.takeLine limit (line + early.length) raw = .error problem := by
  constructor
  · intro failed
    induction raws generalizing line p with
    | nil => cases failed
    | cons raw rest ih =>
      rw [takeLines] at failed
      cases first : p.takeLine limit line raw with
      | error other =>
        rw [first] at failed
        cases failed
        exact ⟨[], raw, rest, p, rfl, rfl, first⟩
      | ok next =>
        rw [first] at failed
        obtain ⟨early, bad, late, q, rfl, taken, stops⟩ := ih failed
        refine ⟨raw :: early, bad, late, q, rfl, ?_, ?_⟩
        · rw [takeLines, first]
          exact taken
        · rw [List.length_cons, ← Nat.add_assoc, Nat.add_right_comm]
          exact stops
  · rintro ⟨early, raw, late, q, rfl, taken, failed⟩
    rw [takeLinesAppend, taken]
    simp [Except.bind, takeLines, failed]

theorem finishProblem {p : Progress} {problem : Problem} (failed : p.finish = .error problem) :
    problem = .missingEnd ∨ problem = .noData := by
  unfold finish at failed
  split at failed
  · split at failed
    · cases failed
      exact .inr rfl
    · cases failed
  · cases failed
    exact .inl rfl

end Progress

theorem readProblem {limit : Nat} {text : String} {problem : Problem}
    (failed : read limit text = .error problem) :
    Progress.start.takeLines limit 1 (lines text.toList) = .error problem ∨
      problem = .missingEnd ∨ problem = .noData := by
  unfold read at failed
  split at failed
  · cases failed
    exact .inl ‹_›
  · exact .inr (Progress.finishProblem failed)

theorem readStops {limit : Nat} {text : String} {problem : Problem}
    (stops : Progress.start.takeLines limit 1 (lines text.toList) = .error problem) :
    read limit text = .error problem := by
  rw [read, stops]

def Clean (limit : Nat) (text : String) : Prop :=
  (∃ image, read limit text = .ok image) ∨ read limit text = .error .missingEnd ∨
    read limit text = .error .noData

theorem readClean {limit : Nat} {text : String} {p : Progress}
    (taken : Progress.start.takeLines limit 1 (lines text.toList) = .ok p) : Clean limit text := by
  have reads : read limit text = p.finish := by rw [read, taken]
  unfold Clean
  rw [reads]
  cases finished : p.finish with
  | ok image => exact .inl ⟨image, rfl⟩
  | error problem =>
    rcases Progress.finishProblem finished with rfl | rfl
    · exact .inr (.inl rfl)
    · exact .inr (.inr rfl)

/- A problem of one line, counted from zero: the lines before it have none, and with this line
there is none but this one. -/
structure Names (limit : Nat) (text : String) (problem : Problem) (place : Nat) : Prop where
  solid : ∃ raw, (lines text.toList)[place]? = some raw ∧ trim raw ≠ []
  through : read limit (String.ofList (firstLines (place + 1) text.toList)) = .error problem
  before : Clean limit (String.ofList (firstLines place text.toList))

theorem readNames {limit : Nat} {text : String} {problem : Problem}
    (failed : Progress.start.takeLines limit 1 (lines text.toList) = .error problem) :
    ∃ place raw, (lines text.toList)[place]? = some raw ∧
      Progress.LineProblem limit (place + 1) (trim raw) problem ∧
      Names limit text problem place := by
  obtain ⟨early, raw, late, q, parts, taken, stops⟩ := Progress.takeLinesProblem.mp failed
  obtain ⟨solid, why⟩ := Progress.takeLineProblem stops
  have here : (lines text.toList)[early.length]? = some raw := by simp [parts]
  refine ⟨early.length, raw, here, by rwa [Nat.add_comm], ⟨raw, here, solid⟩, ?_, ?_⟩
  · refine readStops (Progress.takeLinesProblem.mpr ⟨early, raw, [], q, ?_, taken, stops⟩)
    rw [String.toList_ofList, linesFirst, parts, List.take_length_add_append]
    rfl
  · refine readClean (p := q) ?_
    rw [String.toList_ofList, linesFirst, parts, List.take_left]
    exact taken

/- A problem of a whole line stays whatever follows, the first line with a problem is the one that
is named, and a checksum that does not match can be put right. -/
theorem problemFirst (limit : Nat) :
    (∀ (text more : String) (problem : Problem), Whole text.toList →
      read limit text = .error problem → problem ≠ .missingEnd → problem ≠ .noData →
      read limit (text ++ more) = .error problem) ∧
    ∀ (text : String) (problem : Problem), read limit text = .error problem →
      (∀ named, problem.line? = some named →
        ∃ place, named = place + 1 ∧ Names limit text problem place) ∧
      ∀ named found computed, problem = .checksumMismatch named found computed →
        ∃ place raw, named = place + 1 ∧ (lines text.toList)[place]? = some raw ∧
          Mismatch named (trim raw) found computed := by
  constructor
  · intro text more problem whole failed notEnd notEmpty
    have stops := (readProblem failed).resolve_right (not_or.mpr ⟨notEnd, notEmpty⟩)
    apply readStops
    rw [String.toList_append, linesWhole whole, Progress.takeLinesAppend, stops]
    rfl
  · intro text problem failed
    rcases readProblem failed with stops | rfl | rfl
    · obtain ⟨place, raw, here, why, names⟩ := readNames stops
      refine ⟨fun named is => ⟨place, why.named is, names⟩, ?_⟩
      rintro named found computed rfl
      obtain rfl : named = place + 1 := why.named rfl
      cases why with
      | record wrong => exact ⟨place, raw, rfl, here, mismatchRepair wrong⟩
    all_goals exact ⟨fun _ named => absurd named nofun, fun _ _ _ same => absurd same nofun⟩

theorem sumFirst :
    let text := ":0100000055AA\n\n:0100010055AA\n"
    let problem : Problem := .checksumMismatch 3 0xAA 0xA9
    read 16 (text ++ ":00000001FF") = .error problem ∧ Names 16 text problem 2 ∧
      ∃ raw, (lines text.toList)[2]? = some raw ∧ Mismatch 3 (trim raw) 0xAA 0xA9 := by
  intro text problem
  have failed : read 16 text = .error problem := by decide +kernel
  obtain ⟨lasting, single⟩ := problemFirst 16
  obtain ⟨names, repairs⟩ := single text problem failed
  obtain ⟨place, third, named⟩ := names 3 rfl
  obtain ⟨other, raw, same, here, repair⟩ := repairs 3 0xAA 0xA9 rfl
  obtain rfl : place = 2 := by omega
  obtain rfl : other = 2 := by omega
  exact ⟨lasting text ":00000001FF" problem (.inr (by decide +kernel)) failed nofun nofun, named,
    raw, here, repair⟩

end VirtualBoard.Image
