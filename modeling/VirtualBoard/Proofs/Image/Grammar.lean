import Mathlib.Algebra.GroupWithZero.Nat
import Mathlib.Data.List.Forall2
import VirtualBoard.Proofs.Image.Contents

/-! The texts that are program images.

A text is read exactly when each of its lines writes a sound row of bytes, the
last row alone ends the image, some row holds data, and no data goes beyond the
limit. Which problem is reported for any other text is not said here. -/
namespace VirtualBoard.Image
open Text

def digit? (c : Char) : Option Nat :=
  if 0x30 ≤ c.toNat ∧ c.toNat ≤ 0x39 then some (c.toNat - 0x30)
  else if 0x41 ≤ c.toNat ∧ c.toNat ≤ 0x46 then some (c.toNat - 0x41 + 10)
  else if 0x61 ≤ c.toNat ∧ c.toNat ≤ 0x66 then some (c.toNat - 0x61 + 10)
  else none

inductive Writes : List Char → List UInt8 → Prop where
  | nil : Writes [] []
  | byte {high low : Char} {h l : Nat} {rest : List Char} {bytes : List UInt8}
      (first : digit? high = some h) (second : digit? low = some l) (tail : Writes rest bytes) :
      Writes (high :: low :: rest) (UInt8.ofNat (16 * h + l) :: bytes)

/- Five bytes and a payload between the last two of them. -/
structure Row where
  count : UInt8
  high : UInt8
  low : UInt8
  kind : UInt8
  data : List UInt8
  check : UInt8

namespace Row

def bytes (row : Row) : List UInt8 :=
  row.count :: row.high :: row.low :: row.kind :: (row.data ++ [row.check])

def offset (row : Row) : Nat := 256 * row.high.toNat + row.low.toNat

def base? (row : Row) : Option Nat :=
  match row.data with
  | [a, b] =>
    if row.kind = 2 then some (16 * (256 * a.toNat + b.toNat))
    else if row.kind = 4 then some (65536 * (256 * a.toNat + b.toNat))
    else none
  | _ => none

/- A row that a line may write: count, sum, kind and the payload of its kind are right. -/
structure Sound (row : Row) : Prop where
  count : row.count.toNat = row.data.length
  sum : (row.bytes.map UInt8.toNat).sum % 256 = 0
  kind : row.kind.toNat ≤ 5
  ending : row.kind = 1 → row.data.length = 0
  basing : row.kind = 2 ∨ row.kind = 4 → row.data.length = 2
  starting : row.kind = 3 ∨ row.kind = 5 → row.data.length = 4

theorem Sound.few {row : Row} (sound : row.Sound) : row.data.length < 256 := by
  rw [← sound.count]
  exact row.count.toNat_lt

def Written (line : List Char) (row : Row) : Prop :=
  ∃ digits, line = ':' :: digits ∧ Writes digits row.bytes

def Filled (row : Row) : Prop := row.kind = 0 ∧ row.data ≠ []

end Row

def baseFrom (base : Nat) (rows : List Row) : Nat := (rows.filterMap Row.base?).getLast?.getD base

def Closed (rows : List Row) : Prop :=
  ∃ early last, rows = early ++ [last] ∧ last.kind = 1 ∧ ∀ row ∈ early, row.kind ≠ 1

def Within (limit base : Nat) (rows : List Row) : Prop :=
  ∀ early row late, rows = early ++ row :: late → row.Filled →
    baseFrom base early + row.offset + row.data.length ≤ limit

structure Grammar (limit : Nat) (text : String) (rows : List Row) : Prop where
  written : List.Forall₂ Row.Written (recordLines text) rows
  sound : ∀ row ∈ rows, row.Sound
  closed : Closed rows
  filled : ∃ row ∈ rows, row.Filled
  within : Within limit 0 rows

def code (c : Char) : UInt8 := UInt8.ofNat c.toNat

theorem digitTable : ∀ n < 128,
    (hexValue? (UInt8.ofNat n)).map UInt8.toNat = digit? (Char.ofNat n) := by
  decide +kernel

theorem digitCode {c : Char} (ascii : c.toNat < 128) :
    (hexValue? (code c)).map UInt8.toNat = digit? c := by
  have row := digitTable c.toNat ascii
  rwa [Char.ofNat_toNat] at row

theorem digitAscii {c : Char} {h : Nat} (value : digit? c = some h) : c.toNat < 128 := by
  unfold digit? at value
  split at value
  · omega
  · split at value
    · omega
    · split at value
      · omega
      · cases value

theorem codeAscii {c : Char} (ascii : c.toNat < 128) : String.utf8EncodeChar c = [code c] := by
  unfold String.utf8EncodeChar code
  have small : c.val.toNat ≤ 0x7f := Nat.le_of_lt_succ ascii
  dsimp only
  rw [if_pos small]
  rfl

theorem utf8Ascii {body : List Char} (ascii : ∀ c ∈ body, c.toNat < 128) :
    utf8 body = body.map code := by
  induction body with
  | nil => rfl
  | cons c rest ih =>
    rw [utf8, List.flatMap_cons, codeAscii (ascii c (by simp)), ← utf8,
      ih fun d member => ascii d (by simp [member])]
    rfl

theorem asciiUtf8 {body : List Char} (ascii : ∀ byte ∈ utf8 body, byte.toNat < 128) :
    ∀ c ∈ body, c.toNat < 128 := by
  intro c member
  refine (Record.asciiByte fun byte mine => ascii byte ?_).2
  exact List.mem_flatMap.mpr ⟨c, member, mine⟩

theorem writesAscii {body : List Char} {found : List UInt8} (writes : Writes body found) :
    ∀ c ∈ body, c.toNat < 128 := by
  induction writes with
  | nil => simp
  | byte first second tail ih =>
    simp only [List.forall_mem_cons]
    exact ⟨digitAscii first, digitAscii second, ih⟩

theorem writesEven {body : List Char} {found : List UInt8} (writes : Writes body found) :
    body.length % 2 = 0 := by
  induction writes with
  | nil => rfl
  | byte first second tail ih =>
    simp only [List.length_cons]
    omega

theorem digitByte {c : Char} {h : Nat} (value : digit? c = some h) :
    ∃ byte, hexValue? (code c) = some byte ∧ byte.toNat = h := by
  have read := digitCode (digitAscii value)
  rw [value] at read
  exact Option.map_eq_some_iff.mp read

theorem byteDigit {c : Char} (ascii : c.toNat < 128) {byte : UInt8}
    (read : hexValue? (code c) = some byte) : digit? c = some byte.toNat := by
  rw [← digitCode ascii, read]
  rfl

theorem twoDigits (h l : UInt8) : UInt8.ofNat (16 * h.toNat + l.toNat) = 16 * h + l := by
  simp

theorem bytesWrites (line : Nat) : ∀ (column : Nat) (body : List Char) (found : List UInt8),
    (∀ c ∈ body, c.toNat < 128) → body.length % 2 = 0 →
    (Record.bytes line column (body.map code) = .ok found ↔ Writes body found)
  | column, [], found, _, _ => by
    constructor
    · intro read
      cases read
      exact .nil
    · intro writes
      cases writes
      rfl
  | column, [c], found, _, even => by simp at even
  | column, high :: low :: rest, found, ascii, even => by
    simp only [List.forall_mem_cons] at ascii
    obtain ⟨highAscii, lowAscii, ascii⟩ := ascii
    have evenRest : rest.length % 2 = 0 := by
      simp only [List.length_cons] at even
      omega
    have later := fun tail => bytesWrites line (column + 2) rest tail ascii evenRest
    simp only [List.map_cons, Record.bytes]
    constructor
    · intro read
      cases first : hexValue? (code high) with
      | none => simp [first] at read
      | some h =>
        cases second : hexValue? (code low) with
        | none => simp [first, second] at read
        | some l =>
          cases tail : Record.bytes line (column + 2) (rest.map code) with
          | error problem => simp [first, second, tail] at read
          | ok bytes =>
            simp only [first, second, tail, Except.ok.injEq] at read
            subst read
            rw [← twoDigits]
            exact .byte (byteDigit highAscii first) (byteDigit lowAscii second)
              ((later bytes).mp tail)
    · intro writes
      cases writes with
      | byte first second tail =>
        obtain ⟨h, highRead, rfl⟩ := digitByte first
        obtain ⟨l, lowRead, rfl⟩ := digitByte second
        rw [highRead, lowRead, (later _).mpr tail, twoDigits]

theorem bodyWrites (line column : Nat) {body : List Char} {found : List UInt8} :
    ((utf8 body).length % 2 = 0 ∧ Record.bytes line column (utf8 body) = .ok found) ↔
      Writes body found := by
  constructor
  · rintro ⟨even, read⟩
    have ascii := asciiUtf8 (Record.bytesSpell even read).1
    rw [utf8Ascii ascii] at even read
    rw [List.length_map] at even
    exact (bytesWrites line column body found ascii even).mp read
  · intro writes
    have ascii := writesAscii writes
    rw [utf8Ascii ascii, List.length_map]
    exact ⟨writesEven writes,
      (bytesWrites line column body found ascii (writesEven writes)).mpr writes⟩

/-! One row: its bytes are those of a record that is taken when the row is sound. -/

theorem sumBytes (total : UInt8) (contents : List UInt8) :
    (contents.foldl (· + ·) total).toNat =
      (total.toNat + (contents.map UInt8.toNat).sum) % 256 := by
  induction contents generalizing total with
  | nil => simp [Nat.mod_eq_of_lt total.toNat_lt]
  | cons b rest ih =>
    rw [List.foldl_cons, ih, UInt8.toNat_add, List.map_cons, List.sum_cons]
    omega

theorem checksumSum (contents : List UInt8) (check : UInt8) :
    Record.checksum contents = check ↔
      ((contents ++ [check]).map UInt8.toNat).sum % 256 = 0 := by
  have sum := sumBytes 0 contents
  have small := check.toNat_lt
  rw [← UInt8.toNat_inj, Record.checksum, UInt8.toNat_sub, sum]
  simp only [List.map_append, List.map_cons, List.map_nil, List.sum_append, List.sum_cons,
    List.sum_nil, UInt8.toNat_zero]
  omega

theorem kindKnown {raw : UInt8} (small : raw.toNat ≤ 5) :
    ∃ kind, Record.Kind.ofByte? raw = some kind := by
  have table : ∀ n ≤ 5, (Record.Kind.ofByte? (UInt8.ofNat n)).isSome := by decide
  have known := table raw.toNat small
  rw [UInt8.ofNat_toNat] at known
  exact Option.isSome_iff_exists.mp known

namespace Row

def record (row : Row) : Record :=
  ⟨(Record.Kind.ofByte? row.kind).getD .data, Record.pair row.high row.low, row.data⟩

theorem payloadFits {row : Row} {kind : Record.Kind} (counted : row.count.toNat = row.data.length)
    (known : Record.Kind.ofByte? row.kind = some kind) :
    kind.payload?.any (· ≠ row.count) = false ↔
      (row.kind = 1 → row.data.length = 0) ∧
      (row.kind = 2 ∨ row.kind = 4 → row.data.length = 2) ∧
      (row.kind = 3 ∨ row.kind = 5 → row.data.length = 4) := by
  have raw := Record.kindByte known
  rw [← raw, ← counted]
  cases kind <;> simp [Record.Kind.payload?, Record.Kind.byte, ← UInt8.toNat_inj]
  all_goals exact eq_comm

theorem ofBytesRow (line : Nat) (row : Row) : Record.ofBytes line row.bytes =
    if row.count.toNat ≠ row.data.length then
      .error (.lengthMismatch line row.count row.data.length)
    else
      let computed := Record.checksum (row.count :: row.high :: row.low :: row.kind :: row.data)
      if computed ≠ row.check then .error (.checksumMismatch line row.check computed)
      else
        (Record.Kind.ofByte? row.kind).elim (.error (.unknownKind line row.kind)) fun known =>
          if known.payload?.any (· ≠ row.count) then
            .error (.wrongLength line row.kind row.count)
          else .ok ⟨known, Record.pair row.high row.low, row.data⟩ := by
  obtain ⟨count, high, low, kind, data, check⟩ := row
  cases data with
  | nil =>
    simp only [bytes, List.nil_append, Record.ofBytes]
    cases Record.Kind.ofByte? kind <;> rfl
  | cons a rest =>
    have split : a :: (rest ++ [check]) = (a :: rest) ++ [check] := rfl
    have front : (a :: (rest ++ [check])).dropLast = a :: rest := by
      rw [split, List.dropLast_concat]
    have back : (a :: (rest ++ [check])).getLast (by simp) = check := by
      simp only [split, List.getLast_concat]
    simp only [bytes, List.cons_append, Record.ofBytes, front, back]
    cases Record.Kind.ofByte? kind <;> rfl

theorem ofBytes (line : Nat) {row : Row} {r : Record} :
    Record.ofBytes line row.bytes = .ok r ↔ row.Sound ∧ r = row.record := by
  have summed := checksumSum (row.count :: row.high :: row.low :: row.kind :: row.data) row.check
  rw [ofBytesRow]
  constructor
  · intro read
    split at read
    · cases read
    · rename_i counted
      dsimp only at read
      split at read
      · cases read
      · rename_i sum
        cases known : Record.Kind.ofByte? row.kind with
        | none =>
          rw [known] at read
          cases read
        | some kind =>
          rw [known, Option.elim_some] at read
          split at read
          · cases read
          · rename_i payload
            cases read
            obtain ⟨ending, basing, starting⟩ :=
              (payloadFits (of_not_not counted) known).mp (by simpa using payload)
            have count := of_not_not counted
            have summing := summed.mp (of_not_not sum)
            refine ⟨⟨count, summing, ?_, ending, basing, starting⟩, ?_⟩
            · rw [← Record.kindByte known]
              cases kind <;> decide
            · rw [record, known]
              rfl
  · rintro ⟨sound, rfl⟩
    obtain ⟨kind, known⟩ := kindKnown sound.kind
    have payload := (payloadFits sound.count known).mpr ⟨sound.ending, sound.basing, sound.starting⟩
    rw [if_neg (not_not_intro sound.count)]
    dsimp only
    rw [if_neg (not_not_intro (summed.mpr sound.sum)), known, Option.elim_some]
    rw [payload, record, known]
    rfl

theorem bytesLong {found : List UInt8} (long : 5 ≤ found.length) :
    ∃ row : Row, found = row.bytes := by
  match found, long with
  | count :: high :: low :: kind :: last :: rest, _ =>
    refine ⟨⟨count, high, low, kind, (last :: rest).dropLast, (last :: rest).getLast (by simp)⟩, ?_⟩
    rw [bytes, List.dropLast_concat_getLast]

theorem bytesShort (line : Nat) {found : List UInt8} (short : found.length < 5) :
    Record.ofBytes line found = .error (.truncated line) := by
  match found, short with
  | [], _ | [_], _ | [_, _], _ | [_, _, _], _ | [_, _, _, _], _ => rfl

theorem bytesRow {line : Nat} {found : List UInt8} {r : Record}
    (read : Record.ofBytes line found = .ok r) : ∃ row : Row, found = row.bytes := by
  refine bytesLong (Nat.le_of_not_lt fun short => ?_)
  rw [bytesShort line short] at read
  cases read

theorem ofLine (line : Nat) {text : List Char} {r : Record} :
    Record.ofLine line text = .ok r ↔
      ∃ row : Row, row.Written text ∧ row.Sound ∧ r = row.record := by
  constructor
  · intro read
    unfold Record.ofLine at read
    split at read
    · rename_i body
      dsimp only at read
      split at read
      · cases read
      · rename_i even
        cases decoded : Record.bytes line 2 (utf8 body) with
        | error problem =>
          rw [decoded] at read
          cases read
        | ok found =>
          rw [decoded] at read
          obtain ⟨row, rfl⟩ := bytesRow read
          obtain ⟨sound, same⟩ := (ofBytes line).mp read
          exact ⟨row, ⟨body, rfl, (bodyWrites line 2).mp ⟨of_not_not even, decoded⟩⟩, sound, same⟩
    · cases read
  · rintro ⟨row, ⟨body, rfl, writes⟩, sound, rfl⟩
    obtain ⟨even, decoded⟩ := (bodyWrites line 2).mpr writes
    have read := (ofBytes line).mpr ⟨sound, rfl⟩
    simp only [Record.ofLine, even, decoded, read]
    rfl

end Row

/-! The rows in their order: what each of them makes of the reading so far. -/
namespace Progress

inductive Takings (limit : Nat) : Progress → List Row → Progress → Prop where
  | none (p : Progress) : Takings limit p [] p
  | row {p next q : Progress} {row : Row} {rest : List Row} (going : p.ended = false)
      (sound : row.Sound) (taken : p.takeRecord limit row.record = .ok next)
      (later : Takings limit next rest q) : Takings limit p (row :: rest) q

theorem Takings.sound {limit : Nat} {p q : Progress} {rows : List Row}
    (takings : Takings limit p rows q) : ∀ row ∈ rows, row.Sound := by
  induction takings with
  | none => simp
  | row _ sound _ _ ih => exact List.forall_mem_cons.mpr ⟨sound, ih⟩

theorem takeLineBlank {limit line : Nat} {p : Progress} {raw : List Char} (blank : trim raw = []) :
    p.takeLine limit line raw = .ok p := by
  rw [takeLine, if_pos blank]

theorem takeLineRow {limit line : Nat} {p q : Progress} {raw : List Char} (solid : trim raw ≠ []) :
    p.takeLine limit line raw = .ok q ↔ ∃ row : Row, row.Written (trim raw) ∧
      p.ended = false ∧ row.Sound ∧ p.takeRecord limit row.record = .ok q := by
  unfold takeLine
  dsimp only
  rw [if_neg solid]
  constructor
  · intro taken
    split at taken
    · cases taken
    · rename_i going
      split at taken
      · cases taken
      · rename_i r read
        obtain ⟨row, written, sound, rfl⟩ := (Row.ofLine line).mp read
        exact ⟨row, written, by simpa using going, sound, taken⟩
  · rintro ⟨row, written, going, sound, taken⟩
    have read := (Row.ofLine line).mpr ⟨row, written, sound, rfl⟩
    rw [if_neg (by simp [going]), read]
    exact taken

theorem takeLinesRows {limit line : Nat} {p q : Progress} {raws : List (List Char)} :
    p.takeLines limit line raws = .ok q ↔
      ∃ rows, List.Forall₂ Row.Written ((raws.map trim).filter (· ≠ [])) rows ∧
        Takings limit p rows q := by
  induction raws generalizing line p with
  | nil =>
    constructor
    · intro taken
      cases taken
      exact ⟨[], .nil, .none _⟩
    · rintro ⟨rows, written, takings⟩
      cases written
      cases takings
      rfl
  | cons raw rest ih =>
    by_cases blank : trim raw = []
    · rw [takeLines, takeLineBlank blank, List.map_cons, List.filter_cons_of_neg (by simp [blank])]
      exact ih
    · rw [List.map_cons, List.filter_cons_of_pos (by simpa using blank), takeLines]
      constructor
      · intro taken
        cases first : p.takeLine limit line raw with
        | error problem =>
          rw [first] at taken
          cases taken
        | ok next =>
          rw [first] at taken
          obtain ⟨row, written, going, sound, one⟩ := (takeLineRow blank).mp first
          obtain ⟨rows, others, takings⟩ := ih.mp taken
          exact ⟨row :: rows, .cons written others, .row going sound one takings⟩
      · rintro ⟨rows, written, takings⟩
        cases written with
        | cons written others =>
          cases takings with
          | row going sound one takings =>
            rw [(takeLineRow blank).mpr ⟨_, written, going, sound, one⟩]
            exact ih.mpr ⟨_, others, takings⟩

structure Took (row : Row) (p q : Progress) : Prop where
  upper : q.upper = row.base?.getD p.upper
  ended : q.ended = true ↔ p.ended = true ∨ row.kind = 1
  pieces : q.pieces ≠ [] ↔ p.pieces ≠ [] ∨ row.Filled

theorem pairNat (high low : UInt8) :
    (Record.pair high low).toNat = 256 * high.toNat + low.toNat := by
  have one := high.toNat_lt
  have two := low.toNat_lt
  rw [Record.pair, UInt16.toNat_add, UInt16.toNat_mul, UInt8.toNat_toUInt16, UInt8.toNat_toUInt16]
  show (256 * high.toNat % 65536 + low.toNat) % 65536 = _
  omega

theorem recordKind {row : Row} (sound : row.Sound) : row.record.kind.byte = row.kind := by
  obtain ⟨kind, known⟩ := kindKnown sound.kind
  rw [Row.record, known]
  exact Record.kindByte known

theorem dataByte {kind : Record.Kind} : kind = .data ↔ kind.byte = 0 := by
  cases kind <;> decide

theorem endByte {kind : Record.Kind} : kind = .endOfFile ↔ kind.byte = 1 := by
  cases kind <;> decide

theorem recordFilled {row : Row} (sound : row.Sound) :
    row.record.kind = .data ∧ row.record.data ≠ [] ↔ row.Filled := by
  rw [dataByte, recordKind sound]
  rfl

theorem recordBase {row : Row} (sound : row.Sound) : row.record.base? = row.base? := by
  have byte := recordKind sound
  have data : row.record.data = row.data := rfl
  unfold Record.base? Row.base?
  rw [← byte, data]
  generalize row.record.kind = kind
  match row.data with
  | [] | [_] | _ :: _ :: _ :: _ => cases kind <;> rfl
  | [a, b] => cases kind <;> simp [Record.Kind.byte, pairNat]

theorem pairOffset (row : Row) : (Record.pair row.high row.low).toNat = row.offset := pairNat _ _

theorem takeOther {limit : Nat} {p : Progress} {r : Record} (other : r.kind ≠ .data) :
    ∃ q, p.takeRecord limit r = .ok q := by
  unfold takeRecord
  split
  · rename_i data _
    exact absurd data other
  · rename_i data _
    exact absurd data other
  all_goals exact ⟨_, rfl⟩

theorem takeFilled {limit : Nat} {p : Progress} {r : Record} (data : r.kind = .data)
    (filled : r.data ≠ []) : p.takeRecord limit r =
      if limit < p.upper + r.offset.toNat + r.data.length then
        .error (.tooLarge (p.upper + r.offset.toNat + r.data.length) limit)
      else .ok {p with pieces := ⟨p.upper + r.offset.toNat, r.data⟩ :: p.pieces} := by
  obtain ⟨kind, offset, bytes⟩ := r
  cases data
  cases bytes with
  | nil => exact absurd rfl filled
  | cons b rest => rfl

theorem takeData {limit : Nat} {p : Progress} {r : Record} (data : r.kind = .data) :
    (∃ q, p.takeRecord limit r = .ok q) ↔
      (r.data ≠ [] → p.upper + r.offset.toNat + r.data.length ≤ limit) := by
  by_cases filled : r.data = []
  · refine ⟨fun _ some => absurd filled some, fun _ => ⟨p, ?_⟩⟩
    rw [takeRecord, data, filled]
  · rw [takeFilled data filled]
    split
    · rename_i beyond
      constructor
      · rintro ⟨q, taken⟩
        cases taken
      · intro fits
        exact absurd (fits filled) (Nat.not_le_of_lt beyond)
    · rename_i inside
      exact ⟨fun _ _ => Nat.le_of_not_lt inside, fun _ => ⟨_, rfl⟩⟩

theorem takeRow {limit : Nat} {p : Progress} {row : Row} (sound : row.Sound) :
    (∃ q, p.takeRecord limit row.record = .ok q) ↔
      (row.Filled → p.upper + row.offset + row.data.length ≤ limit) := by
  have filled := recordFilled sound
  by_cases data : row.record.kind = .data
  · rw [takeData data, ← filled, ← pairOffset]
    exact ⟨fun fits given => fits given.2, fun fits given => fits ⟨data, given⟩⟩
  · exact ⟨fun _ given => absurd (filled.mpr given).1 data, fun _ => takeOther data⟩

theorem takeEnded {limit : Nat} {p q : Progress} {r : Record}
    (taken : p.takeRecord limit r = .ok q) :
    q.ended = true ↔ p.ended = true ∨ r.kind = .endOfFile := by
  unfold takeRecord at taken
  split at taken
  · rename_i data _
    cases taken
    simp [data]
  · rename_i data _
    dsimp only at taken
    split at taken
    · cases taken
    · cases taken
      simp [data]
  all_goals
    cases taken
    grind

theorem took {limit : Nat} {p q : Progress} {row : Row} (sound : row.Sound)
    (taken : p.takeRecord limit row.record = .ok q) : Took row p q := by
  have takes := takeRecordTakes taken
  refine ⟨?_, ?_, ?_⟩
  · rw [takes.upper, recordBase sound]
  · rw [takeEnded taken, endByte, recordKind sound]
  · rw [takes.pieces, ← recordFilled sound, Record.piece?]
    split
    · rename_i filled
      simp [filled]
    · rename_i empty
      simp [empty]

end Progress

theorem closedCons {row : Row} {rest : List Row} :
    Closed (row :: rest) ↔ row.kind = 1 ∧ rest = [] ∨ row.kind ≠ 1 ∧ Closed rest := by
  constructor
  · rintro ⟨early, last, parts, ends, others⟩
    cases early with
    | nil =>
      cases parts
      exact .inl ⟨ends, rfl⟩
    | cons first early =>
      obtain ⟨rfl, rfl⟩ := List.cons.inj parts
      refine .inr ⟨others row (by simp), early, last, rfl, ends, fun other member => ?_⟩
      exact others other (by simp [member])
  · rintro (⟨ends, rfl⟩ | ⟨goes, early, last, rfl, ends, others⟩)
    · exact ⟨[], row, rfl, ends, by simp⟩
    · refine ⟨row :: early, last, rfl, ends, ?_⟩
      simpa [goes] using others

theorem baseFromCons (base : Nat) (row : Row) (rest : List Row) :
    baseFrom base (row :: rest) = baseFrom (row.base?.getD base) rest := by
  unfold baseFrom
  cases set : row.base? with
  | none => simp [set]
  | some found =>
    rw [List.filterMap_cons_some set, List.getLast?_cons]
    rfl

theorem withinNil (limit base : Nat) : Within limit base [] := by
  intro early row late parts
  cases early <;> cases parts

theorem withinCons {limit base : Nat} {row : Row} {rest : List Row} :
    Within limit base (row :: rest) ↔
      (row.Filled → base + row.offset + row.data.length ≤ limit) ∧
        Within limit (row.base?.getD base) rest := by
  constructor
  · intro within
    refine ⟨within [] row rest rfl, fun early other late parts filled => ?_⟩
    rw [← baseFromCons]
    exact within (row :: early) other late (by rw [parts]; rfl) filled
  · rintro ⟨first, later⟩ early other late parts filled
    cases early with
    | nil =>
      obtain ⟨rfl, rfl⟩ := List.cons.inj parts
      exact first filled
    | cons head early =>
      obtain ⟨rfl, rfl⟩ := List.cons.inj parts
      rw [baseFromCons]
      exact later early other late rfl filled

theorem takingsEnd (limit : Nat) {p : Progress} {rows : List Row} (going : p.ended = false)
    (sound : ∀ row ∈ rows, row.Sound) :
    (∃ q, p.Takings limit rows q ∧ q.ended = true ∧ q.pieces ≠ []) ↔
      Closed rows ∧ Within limit p.upper rows ∧
        (p.pieces ≠ [] ∨ ∃ row ∈ rows, row.Filled) := by
  induction rows generalizing p with
  | nil =>
    constructor
    · rintro ⟨q, takings, ended, -⟩
      cases takings
      rw [going] at ended
      cases ended
    · rintro ⟨⟨early, last, parts, -⟩, -⟩
      cases early <;> cases parts
  | cons row rest ih =>
    rw [List.forall_mem_cons] at sound
    obtain ⟨soundRow, soundRest⟩ := sound
    rw [closedCons, withinCons]
    constructor
    · rintro ⟨q, takings, ended, pieces⟩
      cases takings with
      | @row _ next _ _ _ _ _ taken later =>
        have effect := Progress.took soundRow taken
        have fits := (Progress.takeRow soundRow).mp ⟨next, taken⟩
        by_cases last : row.kind = 1
        · have stops : next.ended = true := effect.ended.mpr (.inr last)
          cases later with
          | none =>
            refine ⟨.inl ⟨last, rfl⟩, ⟨fits, withinNil _ _⟩, ?_⟩
            rw [effect.pieces] at pieces
            simpa using pieces
          | row going _ _ _ =>
            rw [stops] at going
            cases going
        · have still : next.ended = false := by
            have ends := effect.ended
            simpa [going, last] using ends
          obtain ⟨closed, within, filled⟩ := (ih still soundRest).mp ⟨q, later, ended, pieces⟩
          rw [effect.upper] at within
          rw [effect.pieces] at filled
          refine ⟨.inr ⟨last, closed⟩, ⟨fits, within⟩, ?_⟩
          simpa [or_assoc] using filled
    · rintro ⟨closed, ⟨fits, within⟩, filled⟩
      obtain ⟨next, taken⟩ := (Progress.takeRow soundRow).mpr fits
      have effect := Progress.took soundRow taken
      rcases closed with ⟨last, rfl⟩ | ⟨goes, closed⟩
      · refine ⟨next, .row going soundRow taken (.none next), effect.ended.mpr (.inr last), ?_⟩
        rw [effect.pieces]
        simpa using filled
      · have still : next.ended = false := by
          have ends := effect.ended
          simpa [going, goes] using ends
        rw [← effect.upper] at within
        obtain ⟨q, later, ended, pieces⟩ := (ih still soundRest).mpr
          ⟨closed, within, by rw [effect.pieces]; simpa [or_assoc] using filled⟩
        exact ⟨q, .row going soundRow taken later, ended, pieces⟩

theorem finishOk {p : Progress} :
    (∃ image, p.finish = .ok image) ↔ p.ended = true ∧ p.pieces ≠ [] := by
  unfold Progress.finish
  cases p.ended with
  | false => simp
  | true =>
    cases pieces : p.pieces.reverse with
    | nil => simp [List.reverse_eq_nil_iff.mp pieces]
    | cons first more =>
      have some : p.pieces ≠ [] := by
        intro none
        rw [none] at pieces
        cases pieces
      simp [some]

/- A text is a program image exactly when the grammar has rows for it. -/
theorem readAccepts (limit : Nat) (text : String) :
    (∃ image, read limit text = .ok image) ↔ ∃ rows, Grammar limit text rows := by
  have ends := fun (rows : List Row) (sound : ∀ row ∈ rows, row.Sound) =>
    takingsEnd limit (p := Progress.start) rfl sound
  constructor
  · rintro ⟨image, ok⟩
    unfold read at ok
    cases taken : Progress.start.takeLines limit 1 (lines text.toList) with
    | error problem =>
      rw [taken] at ok
      cases ok
    | ok p =>
      rw [taken] at ok
      obtain ⟨rows, written, takings⟩ := Progress.takeLinesRows.mp taken
      obtain ⟨ended, pieces⟩ := finishOk.mp ⟨image, ok⟩
      have sound := takings.sound
      obtain ⟨closed, within, filled⟩ := (ends rows sound).mp ⟨p, takings, ended, pieces⟩
      exact ⟨rows, written, sound, closed, by simpa [Progress.start] using filled, within⟩
  · rintro ⟨rows, grammar⟩
    obtain ⟨p, takings, ended, pieces⟩ := (ends rows grammar.sound).mpr
      ⟨grammar.closed, grammar.within, .inr grammar.filled⟩
    obtain ⟨image, ok⟩ := finishOk.mpr ⟨ended, pieces⟩
    refine ⟨image, ?_⟩
    have taken : Progress.start.takeLines limit 1 (lines text.toList) = .ok p :=
      Progress.takeLinesRows.mpr ⟨rows, grammar.written, takings⟩
    rw [read, taken]
    exact ok

end VirtualBoard.Image
