import VirtualBoard.Proofs.Image.Grammar
import VirtualBoard.Proofs.Text.Lines

/-! Records laid out as a text.

Records are written one to a line, in digits of either letter case and between
white space; blank lines may stand among them, and a line ends in a line feed or
in a carriage return and a line feed. However they are laid out, the same
records are read from them. -/
namespace VirtualBoard.Image
open Text

def Dressed (r : Record) (line : List Char) : Prop :=
  ∃ before spelled after, line = before ++ (spelled ++ after) ∧ before.all isBlank = true ∧
    after.all isBlank = true ∧ spelled.map Char.toUpper = r.toLine

/- Lines for some records in order, with blank lines anywhere. -/
inductive Lays : List (List Char) → List Record → Prop where
  | nil : Lays [] []
  | blank {line : List Char} {lines : List (List Char)} {records : List Record}
      (empty : line.all isBlank = true) (later : Lays lines records) : Lays (line :: lines) records
  | record {line : List Char} {r : Record} {lines : List (List Char)} {records : List Record}
      (dressed : Dressed r line) (later : Lays lines records) :
      Lays (line :: lines) (r :: records)

/- A text cut into lines. The last line is what follows the last line end, so it may be empty. -/
inductive Parted : List Char → List (List Char) → Prop where
  | last {line : List Char} (whole : '\n' ∉ line) : Parted line [line]
  | more {line ending text : List Char} {lines : List (List Char)} (whole : '\n' ∉ line)
      (ends : ending = ['\n'] ∨ ending = ['\r', '\n']) (later : Parted text lines) :
      Parted (line ++ (ending ++ text)) (line :: lines)

/-! A line of digits: whichever case they have, they write the bytes of the record. -/

theorem upperAscii {c : Char} (ascii : c.toUpper.toNat < 128) : c.toNat < 128 := by
  unfold Char.toUpper at ascii
  split at ascii
  · rename_i small
    have bound := UInt32.le_iff_toNat_le.mp small.2
    exact Nat.lt_of_le_of_lt bound (by decide)
  · exact ascii

theorem asciiCode {c : Char} (ascii : c.toNat < 128) : ∃ n < 128, c = Char.ofNat n :=
  ⟨c.toNat, ascii, (Char.ofNat_toNat c).symm⟩

theorem capitalTable : ∀ value < 16, ∀ n < 128, (Char.ofNat n).toUpper = Record.capital value →
    digit? (Char.ofNat n) = some value ∧ isBlank (Char.ofNat n) = false := by
  decide +kernel

theorem capitalSmall : ∀ value < 16, (Record.capital value).toNat < 128 := by decide +kernel

theorem capitalDigit {c : Char} {value : Nat} (small : value < 16)
    (same : c.toUpper = Record.capital value) : digit? c = some value ∧ isBlank c = false := by
  have ascii : c.toNat < 128 := upperAscii (by simpa [same] using capitalSmall value small)
  obtain ⟨n, code, rfl⟩ := asciiCode ascii
  exact capitalTable value small n code same

theorem upperColon {c : Char} (same : c.toUpper = ':') : c = ':' := by
  have table : ∀ n < 128, (Char.ofNat n).toUpper = ':' → Char.ofNat n = ':' := by decide +kernel
  obtain ⟨n, code, rfl⟩ := asciiCode (upperAscii (by simp [same] : c.toUpper.toNat < 128))
  exact table n code same

theorem byteCapitalPair (b : UInt8) : Record.byteText b =
    [Record.capital (b.toNat / 16), Record.capital (b.toNat % 16)] := rfl

theorem writesUpper {digits : List Char} {bytes : List UInt8}
    (spells : digits.map Char.toUpper = bytes.flatMap Record.byteText) :
    Writes digits bytes ∧ ∀ c ∈ digits, isBlank c = false := by
  induction bytes generalizing digits with
  | nil =>
    have none : digits = [] := by simpa using spells
    subst none
    exact ⟨.nil, by simp⟩
  | cons b rest ih =>
    rw [List.flatMap_cons, byteCapitalPair] at spells
    match digits with
    | [] | [_] => simp at spells
    | high :: low :: digits =>
      simp only [List.map_cons, List.cons_append, List.nil_append, List.cons.injEq] at spells
      obtain ⟨first, second, spells⟩ := spells
      have bound := b.toNat_lt
      obtain ⟨highValue, highSolid⟩ := capitalDigit (by omega : b.toNat / 16 < 16) first
      obtain ⟨lowValue, lowSolid⟩ := capitalDigit (by omega : b.toNat % 16 < 16) second
      obtain ⟨writes, solid⟩ := ih spells
      have value : UInt8.ofNat (16 * (b.toNat / 16) + b.toNat % 16) = b := by
        simp [Nat.div_add_mod]
      constructor
      · simpa only [value] using Writes.byte highValue lowValue writes
      · simpa [highSolid, lowSolid] using solid

namespace Record

def row (r : Record) : Row :=
  ⟨UInt8.ofNat r.data.length, (r.offset / 256).toUInt8, r.offset.toUInt8, r.kind.byte, r.data,
    checksum (UInt8.ofNat r.data.length :: (r.offset / 256).toUInt8 :: r.offset.toUInt8
      :: r.kind.byte :: r.data)⟩

/- A record that one line can hold: its count is a byte, and the payload is one of its kind. -/
structure Sized (r : Record) : Prop where
  count : r.data.length ≤ 255
  payload : ∀ length, r.kind.payload? = some length → r.data.length = length.toNat

theorem rowBytes (r : Record) : r.row.bytes = r.toBytes := rfl

theorem bytesPair (offset : UInt16) : pair (offset / 256).toUInt8 offset.toUInt8 = offset := by
  obtain ⟨high, low⟩ := pairBytes (offset / 256).toUInt8 offset.toUInt8
  exact offsetBytes high low

theorem rowRecord (r : Record) : r.row.record = r := by
  simp [row, Row.record, Kind.ofByteByte, bytesPair]

theorem rowSound {r : Record} (sized : r.Sized) : r.row.Sound := by
  obtain ⟨kind, offset, data⟩ := r
  obtain ⟨count, payload⟩ := sized
  dsimp only at count payload
  have small : (UInt8.ofNat data.length).toNat = data.length := by
    simp only [UInt8.toNat_ofNat']
    omega
  have sum := (checksumSum (UInt8.ofNat data.length :: (offset / 256).toUInt8 :: offset.toUInt8
    :: kind.byte :: data) _).mp rfl
  have known : kind.byte.toNat ≤ 5 := by cases kind <;> decide
  refine ⟨small, sum, known, ?_, ?_, ?_⟩
  all_goals
    intro is
    cases kind <;> simp_all [row, Kind.byte, Kind.payload?]

end Record

theorem spelledRow {r : Record} {line : List Char} (spells : line.map Char.toUpper = r.toLine) :
    r.row.Written line ∧ ∀ c ∈ line, isBlank c = false := by
  cases line with
  | nil => cases spells
  | cons colon digits =>
    obtain ⟨first, later⟩ := List.cons.inj spells
    have start := upperColon first
    subst start
    obtain ⟨writes, solid⟩ := writesUpper later
    refine ⟨⟨digits, rfl, by simpa [Record.rowBytes] using writes⟩, ?_⟩
    simp only [List.forall_mem_cons]
    exact ⟨by decide +kernel, solid⟩

theorem dressedRow {r : Record} {line : List Char} (dressed : Dressed r line) :
    r.row.Written (trim line) ∧ trim line ≠ [] := by
  obtain ⟨before, spelled, after, rfl, blankBefore, blankAfter, spells⟩ := dressed
  obtain ⟨written, solid⟩ := spelledRow spells
  have core : trim (before ++ (spelled ++ after)) = spelled := by
    rw [trimBefore blankBefore, trimAfter blankAfter, trimSolid solid]
  rw [core]
  refine ⟨written, ?_⟩
  obtain ⟨digits, rfl, -⟩ := written
  simp

theorem laysRows {lines : List (List Char)} {records : List Record} (lays : Lays lines records) :
    List.Forall₂ Row.Written ((lines.map trim).filter (· ≠ [])) (records.map Record.row) := by
  induction lays with
  | nil => exact .nil
  | blank empty _ ih => simpa [trimBlank empty] using ih
  | record dressed _ ih =>
    obtain ⟨written, solid⟩ := dressedRow dressed
    rw [List.map_cons, List.filter_cons_of_pos (by simpa using solid), List.map_cons]
    exact .cons written ih

theorem linesParted {text : List Char} {parts : List (List Char)} (parted : Parted text parts) :
    ((lines text).map trim).filter (· ≠ []) = (parts.map trim).filter (· ≠ []) := by
  induction parted with
  | @last line whole =>
    rw [linesOne whole]
    split
    · rename_i none
      have blank : trim [] = [] := rfl
      simp [none, blank]
    · rfl
  | @more line ending text parts whole ends later ih =>
    have cut : ∃ kept, trim kept = trim line ∧
        lines (line ++ (ending ++ text)) = kept :: lines text := by
      rcases ends with rfl | rfl
      · obtain ⟨kept, same, cut⟩ := linesMore text whole
        refine ⟨kept, ?_, cut⟩
        rcases same with rfl | rfl
        · rfl
        · exact (trimReturn _).symm
      · have longer : '\n' ∉ line ++ ['\r'] := by simpa using whole
        obtain ⟨kept, same, cut⟩ := linesMore text longer
        refine ⟨kept, ?_, by simpa using cut⟩
        rw [← trimReturn line]
        rcases same with same | same
        · rw [same]
        · rw [same, trimReturn]
    obtain ⟨kept, same, cut⟩ := cut
    rw [cut, List.map_cons, List.map_cons, same, List.filter_cons, List.filter_cons, ih]

theorem partedRows {text : List Char} {parts : List (List Char)} {records : List Record}
    (parted : Parted text parts) (lays : Lays parts records) :
    List.Forall₂ Row.Written (((lines text).map trim).filter (· ≠ []))
      (records.map Record.row) := by
  rw [linesParted parted]
  exact laysRows lays

end VirtualBoard.Image
