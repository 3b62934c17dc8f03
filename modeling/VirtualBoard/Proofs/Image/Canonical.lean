import VirtualBoard.Proofs.Image.Layout

/-! The line of a record.

A record that one line can hold has one row of bytes: its count, its offset, its kind, its payload
and the checksum that makes their sum zero. Written in digits of either letter case the row is read
as the record again, and no other line is read as this record. -/
namespace VirtualBoard.Image
open Text

/- A row whose fields are those of a record. -/
structure Row.Encodes (row : Row) (r : Record) : Prop where
  count : row.count.toNat = r.data.length
  offset : row.offset = r.offset.toNat
  kind : row.kind = r.kind.byte
  data : row.data = r.data
  sum : (row.bytes.map UInt8.toNat).sum % 256 = 0

/- A line that writes a record: a colon and the digits of such a row. -/
def Encoded (text : List Char) (r : Record) : Prop := ∃ row : Row, row.Written text ∧ row.Encodes r

/-! A row that is read, and the record that is read from it. -/

theorem soundEncodes {row : Row} (sound : row.Sound) : row.Encodes row.record where
  count := sound.count
  offset := (Progress.pairOffset row).symm
  kind := (Progress.recordKind sound).symm
  data := rfl
  sum := sound.sum

theorem soundSized {row : Row} (sound : row.Sound) : row.record.Sized where
  count := Nat.le_of_lt_succ sound.few
  payload := by
    intro length demanded
    obtain ⟨kind, known⟩ := kindKnown sound.kind
    have fits := (Row.payloadFits sound.count known).mpr
      ⟨sound.ending, sound.basing, sound.starting⟩
    have same : row.record.kind = kind := by rw [Row.record, known]; rfl
    rw [← same, demanded] at fits
    have counted : length = row.count := by simpa using fits
    rw [counted]
    exact sound.count.symm

theorem encodesOnce {row : Row} {r : Record} (encodes : row.Encodes r) : row = r.row := by
  obtain ⟨count, high, low, kind, data, check⟩ := row
  obtain ⟨counted, offset, rfl, rfl, sum⟩ := encodes
  have first : count = UInt8.ofNat r.data.length := by
    rw [← counted, UInt8.ofNat_toNat]
  have pair : Record.pair high low = r.offset :=
    UInt16.toNat_inj.mp ((Progress.pairNat high low).trans offset)
  obtain ⟨upper, lower⟩ := Record.pairBytes high low
  rw [pair] at upper lower
  have last := (checksumSum (count :: high :: low :: r.kind.byte :: r.data) check).mpr sum
  rw [Record.row, upper, lower, ← first, last]

theorem encodesRow {row : Row} {r : Record} (sized : r.Sized) :
    row.Encodes r ↔ row = r.row := by
  constructor
  · exact encodesOnce
  · rintro rfl
    have own := soundEncodes (Record.rowSound sized)
    rwa [Record.rowRecord] at own

/- A line is read as a record exactly when the record fits a line and this is a line for it, which
is the record's own line up to the case of its digits. -/
theorem lineInverse (line : Nat) (text : List Char) (r : Record) :
    (Record.ofLine line text = .ok r ↔ r.Sized ∧ Encoded text r) ∧
      (r.Sized → (Encoded text r ↔ text.map Char.toUpper = r.toLine)) := by
  have back : r.Sized → r.row.Written text → Record.ofLine line text = .ok r := by
    intro sized written
    exact (Row.ofLine line).mpr
      ⟨r.row, written, Record.rowSound sized, (Record.rowRecord r).symm⟩
  refine ⟨⟨?_, ?_⟩, fun sized => ⟨?_, fun spells => ?_⟩⟩
  · intro read
    obtain ⟨row, written, sound, rfl⟩ := (Row.ofLine line).mp read
    exact ⟨soundSized sound, row, written, soundEncodes sound⟩
  · rintro ⟨sized, row, written, encodes⟩
    rw [encodesOnce encodes] at written
    exact back sized written
  · rintro ⟨row, written, encodes⟩
    rw [encodesOnce encodes] at written
    exact Record.ofLineSpell (back sized written)
  · exact ⟨r.row, (spelledRow spells).1, (encodesRow sized).mpr rfl⟩

theorem baseInverse :
    let text := ":02000004fF0aF1".toList
    let r : Record := ⟨.linearBase, 0, [0xFF, 0x0A]⟩
    r.Sized ∧ text.map Char.toUpper = r.toLine ∧ Encoded text r ∧ Record.ofLine 7 text = .ok r := by
  intro text r
  obtain ⟨reads, spells⟩ := lineInverse 7 text r
  have sized : r.Sized := ⟨by decide, by rintro length ⟨⟩; rfl⟩
  have own : text.map Char.toUpper = r.toLine := by decide +kernel
  have encoded := (spells sized).mpr own
  exact ⟨sized, own, encoded, reads.mpr ⟨sized, encoded⟩⟩

end VirtualBoard.Image
