import VirtualBoard.Proofs.Image.FirstProblem

/-! Where a digit is wrong.

The column of a bad digit counts the bytes of a line without the white space around it. So it is
the place of the first character that is no digit in a line that begins with its record; in a line
with white space before the record that character stands further on, by as many bytes as the white
space has. -/
namespace VirtualBoard.Image
open Text

/- A line in which digits follow the first colon up to a character that is none, and the column
where that character begins. Columns count bytes from one. -/
def Stray (line : List Char) (column : Nat) : Prop :=
  ∃ before digits bad after, line = before ++ ':' :: (digits ++ bad :: after) ∧ ':' ∉ before ∧
    (∀ c ∈ digits, (digit? c).isSome) ∧ digit? bad = none ∧
    column = (utf8 (before ++ ':' :: digits)).length + 1

/-! A line has one place of this kind: its first colon and the digits behind that are fixed. -/

theorem takeSplit {α : Type} {p : α → Bool} {front after : List α} {a : α}
    (all : ∀ b ∈ front, p b = true) (stops : p a = false) :
    (front ++ a :: after).takeWhile p = front := by
  rw [List.takeWhile_append_of_pos all, List.takeWhile_cons_of_neg (by simp [stops]),
    List.append_nil]

theorem strayOnce {line : List Char} {column other : Nat} (one : Stray line column)
    (two : Stray line other) : column = other := by
  obtain ⟨before, digits, bad, after, rfl, first, digit, none, rfl⟩ := one
  obtain ⟨before', digits', bad', after', same, first', digit', none', rfl⟩ := two
  have uncolon : ∀ {text : List Char}, ':' ∉ text → ∀ c ∈ text, decide (c ≠ ':') = true := by
    intro text absent c member
    exact decide_eq_true fun colon => absent (colon ▸ member)
  have start := congrArg (List.takeWhile fun c => decide (c ≠ ':')) same
  rw [takeSplit (uncolon first) (by simp), takeSplit (uncolon first') (by simp)] at start
  subst start
  have rest := (List.cons.inj (List.append_cancel_left same)).2
  have run := congrArg (List.takeWhile fun c => (digit? c).isSome) rest
  rw [takeSplit digit (by simp [none]), takeSplit digit' (by simp [none'])] at run
  rw [run]

/-! The bytes of the digits, and the characters they belong to. -/

theorem bytesStray {line named column place : Nat} {digits : List UInt8}
    (failed : Record.bytes line column digits = .error (.badDigit named place)) :
    ∃ front bad back, digits = front ++ bad :: back ∧
      (∀ digit ∈ front, (hexValue? digit).isSome) ∧ hexValue? bad = none ∧
      place = column + front.length := by
  induction column, digits using Record.bytes.induct line with
  | case1 column high low rest bad =>
    simp only [Record.bytes, bad, Except.error.injEq, Problem.badDigit.injEq] at failed
    exact ⟨[], high, low :: rest, rfl, by simp, bad, failed.2.symm⟩
  | case2 column high low rest value bad good =>
    simp only [Record.bytes, bad, good, Except.error.injEq, Problem.badDigit.injEq] at failed
    exact ⟨[high], low, rest, rfl, by simp [good], bad, failed.2.symm⟩
  | case3 column high low rest h l lowRead highRead problem later ih =>
    simp only [Record.bytes, lowRead, highRead, later, Except.error.injEq] at failed
    subst failed
    obtain ⟨front, bad, back, rfl, read, none, rfl⟩ := ih later
    refine ⟨high :: low :: front, bad, back, rfl, by simp_all, none, ?_⟩
    simp only [List.length_cons]
    omega
  | case4 column high low rest h l lowRead highRead tail done ih =>
    simp only [Record.bytes, lowRead, highRead, done] at failed
    cases failed
  | case5 digits column short => simp [Record.bytes] at failed

theorem firstDigit {c : Char} {byte : UInt8} {rest : List UInt8}
    (bytes : String.utf8EncodeChar c = byte :: rest) (read : (hexValue? byte).isSome) :
    (digit? c).isSome ∧ rest = [] := by
  obtain ⟨value, read⟩ := Option.isSome_iff_exists.mp read
  have small := (Record.hexDigit read).1
  obtain ⟨one, ascii⟩ := Record.asciiFirst (c := c) (by simpa [bytes] using small)
  rw [one] at bytes
  obtain ⟨rfl, none⟩ := List.cons.inj bytes
  exact ⟨Option.isSome_iff_exists.mpr ⟨_, byteDigit ascii read⟩, none.symm⟩

theorem utf8Stray {body : List Char} {front back : List UInt8} {byte : UInt8}
    (parts : utf8 body = front ++ byte :: back) (read : ∀ digit ∈ front, (hexValue? digit).isSome)
    (none : hexValue? byte = none) :
    ∃ digits bad after, body = digits ++ bad :: after ∧ (∀ c ∈ digits, (digit? c).isSome) ∧
      digit? bad = Option.none ∧ utf8 digits = front := by
  induction body generalizing front with
  | nil => simp [utf8] at parts
  | cons c rest ih =>
    obtain ⟨first, more, bytes⟩ := List.exists_cons_of_ne_nil (String.utf8EncodeChar_ne_nil (c := c))
    rw [utf8, List.flatMap_cons, ← utf8, bytes] at parts
    cases front with
    | nil =>
      obtain ⟨rfl, -⟩ := List.cons.inj parts
      refine ⟨[], c, rest, rfl, by simp, ?_, rfl⟩
      cases value : digit? c with
      | none => rfl
      | some h =>
        obtain ⟨digit, found, -⟩ := digitByte value
        rw [codeAscii (digitAscii value)] at bytes
        rw [(List.cons.inj bytes).1, none] at found
        cases found
    | cons digit front =>
      obtain ⟨rfl, later⟩ := List.cons.inj parts
      rw [List.forall_mem_cons] at read
      obtain ⟨own, rfl⟩ := firstDigit bytes read.1
      obtain ⟨digits, bad, after, rfl, all, stops, same⟩ := ih later read.2
      refine ⟨c :: digits, bad, after, rfl, List.forall_mem_cons.mpr ⟨own, all⟩, stops, ?_⟩
      rw [utf8, List.flatMap_cons, ← utf8, bytes, same]
      rfl

/-! The line: its record stands behind the white space that it begins with. -/

def indent (line : List Char) : List Char := line.takeWhile isBlank

theorem indentParts (line : List Char) : ∃ back, line = indent line ++ (trim line ++ back) := by
  obtain ⟨back, parts⟩ := trimFront line
  exact ⟨back, by rw [parts]; exact List.takeWhile_append_dropWhile.symm⟩

theorem indentColon (line : List Char) : ':' ∉ indent line := by
  intro member
  have blank := List.mem_takeWhile_imp member
  exact absurd blank (by decide +kernel)

theorem utf8None {cs : List Char} : utf8 cs = [] ↔ cs = [] := by
  cases cs <;> simp [utf8, String.utf8EncodeChar_ne_nil]

theorem lineStray {line named column : Nat} {raw : List Char}
    (failed : Record.ofLine line (trim raw) = .error (.badDigit named column)) :
    Stray raw ((utf8 (indent raw)).length + column) := by
  obtain ⟨back, whole⟩ := indentParts raw
  unfold Record.ofLine at failed
  split at failed
  · rename_i body record
    dsimp only at failed
    split at failed
    · cases failed
    · split at failed
      · rename_i problem wrong
        cases failed
        obtain ⟨front, byte, bytes, parts, read, none, rfl⟩ := bytesStray wrong
        obtain ⟨digits, bad, after, rfl, all, stops, rfl⟩ := utf8Stray parts read none
        refine ⟨indent raw, digits, bad, after ++ back, ?_, indentColon raw, all, stops, ?_⟩
        · rw [record] at whole
          simpa using whole
        · have joined : utf8 (indent raw ++ ':' :: digits) =
              utf8 (indent raw) ++ 0x3A :: utf8 digits := List.flatMap_append
          rw [joined, List.length_append, List.length_cons]
          omega
      · rename_i found decoded
        rcases bytesShape line found with ⟨row, rfl⟩ | short
        · cases rowProblem failed
        · rw [short] at failed
          cases failed
  · cases failed

/- The line that a bad digit is in, and its place there: as many bytes behind the reported column as
the white space has that the line begins with. So the reported column is the place itself just in a
line that begins with none. -/
theorem digitPlaced {limit : Nat} {text : String} {line column : Nat}
    (failed : read limit text = .error (.badDigit line column)) :
    ∃ place raw, line = place + 1 ∧ (lines text.toList)[place]? = some raw ∧
      Stray raw ((utf8 (indent raw)).length + column) ∧
      (Stray raw column ↔ indent raw = []) := by
  have stops := (readProblem failed).resolve_right nofun
  obtain ⟨place, raw, here, why, -⟩ := readNames stops
  have named : line = place + 1 := why.named rfl
  have there : Stray raw ((utf8 (indent raw)).length + column) := by
    cases why with
    | record wrong => exact lineStray wrong
  refine ⟨place, raw, named, here, there, fun same => ?_, fun none => ?_⟩
  · have apart := strayOnce there same
    exact utf8None.mp (List.length_eq_zero_iff.mp (by omega))
  · rw [none] at there
    simpa [utf8] using there

theorem wideIndent :
    let text := "\n\u3000:é00000001\n"
    read 16 text = .error (.badDigit 2 2) ∧
      ∃ raw, (lines text.toList)[1]? = some raw ∧ Stray raw 5 ∧ ¬ Stray raw 2 := by
  intro text
  have failed : read 16 text = .error (.badDigit 2 2) := by decide +kernel
  obtain ⟨place, raw, second, here, there, only⟩ := digitPlaced failed
  obtain rfl : place = 1 := by omega
  have line : (lines text.toList)[1]? = some "\u3000:é00000001".toList := by decide +kernel
  cases here.symm.trans line
  exact ⟨failed, _, line, there, fun same => absurd (only.mp same) (by decide +kernel)⟩

/- With one blank before the record the column is that of the digit before the bad one. -/
theorem indentMisplaced : ¬ ∀ (limit : Nat) (text : String) (line column : Nat),
    read limit text = .error (.badDigit line column) →
    ∃ place raw, line = place + 1 ∧ (lines text.toList)[place]? = some raw ∧ Stray raw column := by
  intro all
  obtain ⟨place, raw, first, here, stray⟩ := all 16 " :00000001FG" 1 11 (by decide +kernel)
  obtain rfl : place = 0 := by omega
  have line : (lines " :00000001FG".toList)[0]? = some " :00000001FG".toList := by decide +kernel
  cases here.symm.trans line
  have digits : ∀ c ∈ "00000001F".toList, (digit? c).isSome = true :=
    List.all_eq_true.mp (by decide +kernel)
  have there : Stray " :00000001FG".toList 12 :=
    ⟨[' '], "00000001F".toList, 'G', [], by decide +kernel, by decide, digits, rfl, by decide +kernel⟩
  cases strayOnce stray there

end VirtualBoard.Image
