import VirtualBoard.Proofs.Image.Digits
import VirtualBoard.Proofs.Text.Lines

/-! A text that goes on after an image.

The lines of a text are taken up to any place, and the later ones from there.
The count in a record fixes its length, and nothing is taken after the record
that ends the image; so an image that goes on ends as itself or not at all. -/
namespace VirtualBoard.Image
open Text

theorem bindOk {ε α β : Type} {first : Except ε α} {next : α → Except ε β} {last : β} :
    first.bind next = .ok last ↔ ∃ between, first = .ok between ∧ next between = .ok last := by
  cases first <;> simp [Except.bind]

namespace Progress

theorem takeLinesAppend (limit line : Nat) (p : Progress) (early late : List (List Char)) :
    p.takeLines limit line (early ++ late) =
      (p.takeLines limit line early).bind fun q =>
        q.takeLines limit (line + early.length) late := by
  induction early generalizing line p with
  | nil => rfl
  | cons raw early ih =>
    rw [List.cons_append, takeLines, takeLines]
    cases p.takeLine limit line raw with
    | error problem => rfl
    | ok next =>
      rw [List.length_cons, Nat.add_comm early.length, ← Nat.add_assoc]
      exact ih (line + 1) next

theorem takeLineTrim {limit line : Nat} {p : Progress} {raw other : List Char}
    (same : trim raw = trim other) : p.takeLine limit line raw = p.takeLine limit line other := by
  simp only [takeLine, same]

theorem takeLinesCut (limit line : Nat) (p : Progress) {first later : List Char}
    (one : '\n' ∉ first) (ends : Ends later) : p.takeLines limit line (lines (first ++ later)) =
      (p.takeLine limit line first).bind fun q =>
        q.takeLines limit (line + 1) (lines later.tail) := by
  by_cases none : first ++ later = []
  · obtain ⟨rfl, rfl⟩ := List.append_eq_nil_iff.mp none
    rfl
  · obtain ⟨kept, same, cut⟩ := linesCut one ends none
    rw [cut, takeLines, takeLineTrim same]
    cases p.takeLine limit line first <;> rfl

theorem endedLine {limit line : Nat} {p q : Progress} {raw : List Char} (ended : p.ended = true) :
    p.takeLine limit line raw = .ok q ↔ trim raw = [] ∧ p = q := by
  unfold takeLine
  dsimp only
  split <;> simp_all

theorem endedLines {limit line : Nat} {p q : Progress} {raws : List (List Char)}
    (ended : p.ended = true) :
    p.takeLines limit line raws = .ok q ↔ (∀ raw ∈ raws, trim raw = []) ∧ p = q := by
  induction raws generalizing line with
  | nil => simp [takeLines]
  | cons raw rest ih =>
    rw [List.forall_mem_cons, takeLines]
    constructor
    · intro taken
      split at taken
      · cases taken
      · rename_i next first
        obtain ⟨blank, rfl⟩ := (endedLine ended).mp first
        obtain ⟨others, rfl⟩ := ih.mp taken
        exact ⟨⟨blank, others⟩, rfl⟩
    · rintro ⟨⟨blank, others⟩, rfl⟩
      rw [(endedLine ended).mpr ⟨blank, rfl⟩]
      exact ih.mpr ⟨others, rfl⟩

end Progress

theorem rowWhole {line extra : List Char} {row longer : Row} (sound : row.Sound)
    (soundLonger : longer.Sound) (written : row.Written line)
    (writtenLonger : longer.Written (line ++ extra)) : extra = [] := by
  obtain ⟨digits, rfl, writes⟩ := written
  obtain ⟨all, spelled, writesAll⟩ := writtenLonger
  cases spelled
  obtain ⟨late, bytes, writesLate⟩ := writesRest writes writesAll
  have count : longer.count = row.count := (List.cons.inj bytes).1
  have length := congrArg List.length bytes
  simp only [Row.bytes, List.length_cons, List.length_append, ← sound.count, ← soundLonger.count,
    count] at length
  have none : late = [] := List.length_eq_zero_iff.mp (by omega)
  subst none
  cases writesLate
  rfl

namespace Progress

theorem lastLine {limit line : Nat} {p q r : Progress} {raw more : List Char}
    (taken : p.takeLine limit line raw = .ok q) (ended : q.ended = true) :
    p.takeLine limit line (raw ++ more) = .ok r ↔ more.all isBlank = true ∧ q = r := by
  have same : more.all isBlank = true → p.takeLine limit line (raw ++ more) = .ok q :=
    fun blank => (takeLineTrim (trimAfter blank)).trans taken
  constructor
  · intro longer
    have blank : more.all isBlank = true := by
      by_cases none : trim raw = []
      · rw [takeLineBlank none] at taken
        cases taken
        have all := trimNone.mp ((endedLine ended).mp longer).1
        rw [List.all_append, Bool.and_eq_true] at all
        exact all.2
      · by_contra further
        obtain ⟨extra, some, goes⟩ := trimLonger none further
        obtain ⟨row, written, -, sound, -⟩ := (takeLineRow none).mp taken
        have solid : trim (raw ++ more) ≠ [] := by simp [goes, none]
        obtain ⟨longerRow, writtenLonger, -, soundLonger, -⟩ := (takeLineRow solid).mp longer
        rw [goes] at writtenLonger
        exact some (rowWhole sound soundLonger written writtenLonger)
    exact ⟨blank, Except.ok.inj ((same blank).symm.trans longer)⟩
  · rintro ⟨blank, rfl⟩
    exact same blank

theorem takeLinesParts (limit line : Nat) (p : Progress) {early last first later : List Char}
    (whole : Whole early) (oneLast : '\n' ∉ last) (oneFirst : '\n' ∉ first) (ends : Ends later) :
    p.takeLines limit line (lines ((early ++ last) ++ (first ++ later))) =
      (p.takeLines limit line (lines early)).bind fun q =>
        (q.takeLine limit (line + (lines early).length) (last ++ first)).bind fun r =>
          r.takeLines limit (line + (lines early).length + 1) (lines later.tail) := by
  have one : '\n' ∉ last ++ first := by simp [oneLast, oneFirst]
  have parts : (early ++ last) ++ (first ++ later) = early ++ ((last ++ first) ++ later) := by simp
  rw [parts, linesWhole whole, takeLinesAppend]
  simp only [takeLinesCut limit _ _ one ends]

theorem takeLinesMore {limit line : Nat} {p q r : Progress} {text more : List Char}
    (taken : p.takeLines limit line (lines text) = .ok q) (ended : q.ended = true) :
    p.takeLines limit line (lines (text ++ more)) = .ok r ↔ more.all isBlank = true ∧ q = r := by
  obtain ⟨early, last, rfl, whole, oneLast⟩ := cutLast text
  obtain ⟨first, later, rfl, oneFirst, ends⟩ := cutFirst more
  have parts := takeLinesParts limit line p whole oneLast oneFirst ends
  -- the same parts, without what goes on
  have short := takeLinesParts limit line p whole oneLast List.not_mem_nil (.inl rfl)
  rw [List.append_nil, List.append_nil, List.append_nil, taken] at short
  obtain ⟨s, start, rest⟩ := bindOk.mp short.symm
  obtain ⟨t, lastTaken, rest⟩ := bindOk.mp rest
  cases rest
  rw [parts, start, List.all_append, Bool.and_eq_true, ← endsBlank ends]
  change (s.takeLine limit (line + (lines early).length) (last ++ first)).bind _ = .ok r ↔ _
  rw [bindOk]
  constructor
  · rintro ⟨u, further, rest⟩
    obtain ⟨blank, rfl⟩ := (lastLine lastTaken ended).mp further
    obtain ⟨others, rfl⟩ := (endedLines ended).mp rest
    exact ⟨⟨blank, blankLines.mp others⟩, rfl⟩
  · rintro ⟨⟨blank, others⟩, rfl⟩
    exact ⟨q, (lastLine lastTaken ended).mpr ⟨blank, rfl⟩,
      (endedLines ended).mpr ⟨blankLines.mpr others, rfl⟩⟩

end Progress

theorem readOk {limit : Nat} {text : String} {image : Image} :
    read limit text = .ok image ↔
      ∃ p, Progress.start.takeLines limit 1 (lines text.toList) = .ok p ∧
        p.finish = .ok image := by
  unfold read
  cases Progress.start.takeLines limit 1 (lines text.toList) <;> simp

theorem readLonger {limit : Nat} {text : String} {image other : Image}
    (ok : read limit text = .ok image) (more : String) :
    read limit (text ++ more) = .ok other ↔ allBlank more = true ∧ image = other := by
  obtain ⟨p, taken, finished⟩ := readOk.mp ok
  obtain ⟨ended, -⟩ := finishOk.mp ⟨image, finished⟩
  rw [readOk, String.toList_append]
  constructor
  · rintro ⟨q, further, finishedMore⟩
    obtain ⟨blank, rfl⟩ := (Progress.takeLinesMore taken ended).mp further
    exact ⟨blank, Except.ok.inj (finished.symm.trans finishedMore)⟩
  · rintro ⟨blank, rfl⟩
    exact ⟨p, (Progress.takeLinesMore taken ended).mpr ⟨blank, rfl⟩, finished⟩

/- A text that is an image stays this image with white space after it, and is none with anything
else. So no part of an image is an image unless only white space is cut off. -/
theorem readComplete {limit : Nat} {text : String} {image : Image}
    (ok : read limit text = .ok image) :
    (∀ more : String,
      ((∃ other, read limit (text ++ more) = .ok other) ↔ allBlank more = true) ∧
      (allBlank more = true → read limit (text ++ more) = .ok image)) ∧
    ∀ front back : String, text = front ++ back → allBlank back = false →
      ∃ problem, read limit front = .error problem := by
  constructor
  · intro more
    have longer : allBlank more = true → read limit (text ++ more) = .ok image :=
      fun blank => (readLonger ok more).mpr ⟨blank, rfl⟩
    refine ⟨⟨?_, fun blank => ⟨image, longer blank⟩⟩, longer⟩
    rintro ⟨other, further⟩
    exact ((readLonger ok more).mp further).1
  · rintro front back rfl some
    cases part : read limit front with
    | error problem => exact ⟨problem, rfl⟩
    | ok early =>
      obtain ⟨blank, -⟩ := (readLonger part back).mp ok
      rw [blank] at some
      cases some

theorem sampleComplete :
    let text := ":0100000055AA\n:00000001FF"
    read 16 (text ++ "\r\n \n") = .ok ⟨0, #[0x55], none⟩ ∧
      ∃ problem, read 16 ":0100000055AA\n:0000000" = .error problem := by
  intro text
  have ok : read 16 text = .ok ⟨0, #[0x55], none⟩ := by decide +kernel
  obtain ⟨longer, shorter⟩ := readComplete ok
  exact ⟨(longer "\r\n \n").2 (by decide +kernel),
    shorter ":0100000055AA\n:0000000" "1FF" (by decide +kernel) (by decide +kernel)⟩

end VirtualBoard.Image
