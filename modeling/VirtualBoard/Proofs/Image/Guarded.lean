import Mathlib.Data.List.Flatten
import VirtualBoard.Image.Guarded
import VirtualBoard.Proofs.Image.Limits
import VirtualBoard.Proofs.Text.Lines

/-! No guard of the reading holds it back.

What is read with guards is what is read without them, for every text and every
limit that fit a machine with words of 64 bits. So no index leaves its
sequence and no number its word, and the memory laid out is as small as the
limit. That there is as much memory is not said here. -/
namespace VirtualBoard.Image
open Text

namespace Guarded

variable {α β : Type}

def lift (outcome : Except Problem α) : Guarded α := outcome.mapError .problem

theorem liftOk {outcome : Except Problem α} {a : α} (ok : lift outcome = .ok a) :
    outcome = .ok a := by
  cases outcome <;> cases ok
  rfl

theorem liftPasses (outcome : Except Problem α) (trap : Trap) :
    lift outcome ≠ .error (.trap trap) := by
  cases outcome <;> exact nofun

@[simp] theorem okBind (a : α) (next : α → Guarded β) :
    (Except.ok a : Guarded α) >>= next = next a := rfl

/-! Guards that are passed. -/

theorem wordFits {width n : Nat} (small : n < 2 ^ width) : word width n = .ok n := if_pos small

theorem addFits {width a b : Nat} (small : a + b < 2 ^ width) : add width a b = .ok (a + b) :=
  wordFits small

theorem mulFits {width a b : Nat} (small : a * b < 2 ^ width) : mul width a b = .ok (a * b) :=
  wordFits small

theorem shiftFits {width n places : Nat} (small : n * 2 ^ places < 2 ^ width) :
    shift width n places = .ok (n * 2 ^ places) := wordFits small

theorem subFits {a b : Nat} (less : b ≤ a) : sub a b = .ok (a - b) := if_pos less

theorem convertFits {width n : Nat} (small : n < 2 ^ width) : convert width n = .ok n :=
  if_pos small

theorem allocateFits {size : Nat} (small : size < 2 ^ 63) :
    allocate size = .ok (Array.replicate size 0) := if_pos small

theorem slicePart {xs middle : List α} {first last : Nat} (early late : List α)
    (parts : xs = early ++ (middle ++ late)) (begins : first = early.length)
    (ends : last = first + middle.length) : slice xs first last = .ok middle := by
  subst parts begins ends
  have inside : early.length ≤ early.length + middle.length ∧
      early.length + middle.length ≤ (early ++ (middle ++ late)).length := by
    simp only [List.length_append]
    omega
  rw [slice, if_pos inside, List.take_length_add_append, List.drop_left, List.take_left]

theorem roundUpFits {n : Nat} (small : n + 1 < 2 ^ 64) : roundUp n = .ok ((n + 1) / 2 * 2) := by
  unfold roundUp
  split
  · congr 1
    omega
  · rw [addFits (by omega)]
    congr 1
    omega

theorem mapMOk {f : α → Guarded β} {g : α → β} {xs : List α} (each : ∀ x ∈ xs, f x = .ok (g x)) :
    xs.mapM f = .ok (xs.map g) := by
  induction xs with
  | nil => rfl
  | cons x rest ih =>
    rw [List.forall_mem_cons] at each
    rw [List.mapM_cons, each.1, ih each.2]
    rfl

/-! How long a text can be. -/

theorem utf8Part {part text : List Char} (inside : part.Sublist text) :
    (utf8 part).length ≤ (utf8 text).length := (inside.flatMap _).length_le

theorem utf8Longer (text : List Char) : text.length ≤ (utf8 text).length := by
  induction text with
  | nil => exact Nat.le_refl _
  | cons c rest ih =>
    have one : 0 < (String.utf8EncodeChar c).length := by
      rw [String.length_utf8EncodeChar]
      exact c.utf8Size_pos
    rw [utf8, List.flatMap_cons, List.length_append, List.length_cons, ← utf8]
    omega

theorem utf8Size (text : String) : (utf8 text.toList).length = text.utf8ByteSize := by
  symm
  conv => lhs; rw [← String.ofList_toList (s := text)]
  show (List.utf8Encode text.toList).size = _
  rw [List.utf8Encode, List.size_toByteArray]
  rfl

/-! One record. -/

theorem digitTable : ∀ n < 256,
    digit (UInt8.ofNat n) = .ok ((hexValue? (UInt8.ofNat n)).map UInt8.toNat) := by
  decide +kernel

theorem digitRead (raw : UInt8) : digit raw = .ok ((hexValue? raw).map UInt8.toNat) := by
  have row := digitTable raw.toNat raw.toNat_lt
  rwa [UInt8.ofNat_toNat] at row

theorem byteTable : ∀ h < 16, ∀ l < 16, byte h l = .ok (16 * UInt8.ofNat h + UInt8.ofNat l) := by
  decide +kernel

theorem byteRead {high low h l : UInt8} (first : hexValue? high = some h)
    (second : hexValue? low = some l) : byte h.toNat l.toNat = .ok (16 * h + l) := by
  obtain ⟨-, highSmall, -⟩ := Record.hexDigit first
  obtain ⟨-, lowSmall, -⟩ := Record.hexDigit second
  have row := byteTable h.toNat highSmall l.toNat lowSmall
  rwa [UInt8.ofNat_toNat, UInt8.ofNat_toNat] at row

theorem bytesRead (line : Nat) : ∀ (place : Nat) (digits : List UInt8),
    2 * place + digits.length + 1 < 2 ^ 64 →
    bytes line place digits = lift (Record.bytes line (2 + place * 2) digits)
  | _, [], _ => rfl
  | _, [_], _ => rfl
  | place, high :: low :: rest, fits => by
    simp only [List.length_cons] at fits
    have later := bytesRead line (place + 1) rest (by omega)
    have column : 2 + (place + 1) * 2 = 2 + place * 2 + 2 := by omega
    rw [column] at later
    rw [bytes, Record.bytes]
    have one : item [high, low] 0 = .ok high := rfl
    have two : item [high, low] 1 = .ok low := rfl
    simp only [mulFits (by omega : place * 2 < 2 ^ 64), okBind, one, two, digitRead,
      addFits (by omega : 2 + place * 2 < 2 ^ 64)]
    cases first : hexValue? high with
    | none => rfl
    | some h =>
      simp only [Option.map_some, addFits (by omega : 2 + place * 2 + 1 < 2 ^ 64), okBind]
      cases second : hexValue? low with
      | none => rfl
      | some l =>
        simp only [Option.map_some, byteRead first second, okBind,
          addFits (by omega : place + 1 < 2 ^ 64), later]
        cases Record.bytes line (2 + place * 2 + 2) rest <;> rfl

theorem ofBytesRow (line : Nat) {row : Row} (fits : row.bytes.length < 2 ^ 64) :
    ofBytes line row.bytes = lift (Record.ofBytes line row.bytes) := by
  have length : row.bytes.length = row.data.length + 5 := by simp [Row.bytes]
  have cut : row.bytes.length - 1 = row.data.length + 4 := by omega
  have actual : row.bytes.length - 5 = row.data.length := by omega
  have contents : slice row.bytes 0 (row.data.length + 4) =
      .ok (row.count :: row.high :: row.low :: row.kind :: row.data) :=
    slicePart [] [row.check] rfl rfl (by simp)
  have check : slice row.bytes (row.data.length + 4) row.bytes.length = .ok [row.check] :=
    slicePart (row.count :: row.high :: row.low :: row.kind :: row.data) []
      (by simp [Row.bytes]) (by simp) length
  have data : slice row.bytes 4 (4 + row.data.length) = .ok row.data :=
    slicePart [row.count, row.high, row.low, row.kind] [row.check] rfl rfl rfl
  have count : item row.bytes 0 = .ok row.count := rfl
  have high : item row.bytes 1 = .ok row.high := rfl
  have low : item row.bytes 2 = .ok row.low := rfl
  have kind : item row.bytes 3 = .ok row.kind := rfl
  have found : item [row.check] 0 = .ok row.check := rfl
  rw [ofBytes, if_neg (by omega), Row.ofBytesRow]
  simp only [count, okBind, subFits (by omega : 5 ≤ row.bytes.length), actual]
  split
  · rfl
  · simp only [subFits (by omega : 1 ≤ row.bytes.length), okBind, cut, contents, check, found]
    split
    · rfl
    · simp only [kind, okBind]
      cases Record.Kind.ofByte? row.kind with
      | none => rfl
      | some known =>
        dsimp only [Option.elim_some]
        split
        · rfl
        · simp only [high, low, okBind, addFits (by omega : 4 + row.data.length < 2 ^ 64), data]
          rfl

theorem ofBytesRead (line : Nat) {found : List UInt8} (fits : found.length < 2 ^ 64) :
    ofBytes line found = lift (Record.ofBytes line found) := by
  by_cases short : found.length < 5
  · rw [ofBytes, if_pos short, Row.bytesShort line short]
    rfl
  · obtain ⟨row, rfl⟩ := Row.bytesLong (Nat.le_of_not_lt short)
    exact ofBytesRow line fits

theorem bytesFewer {line : Nat} {body : List Char} {found : List UInt8}
    (even : (utf8 body).length % 2 = 0) (read : Record.bytes line 2 (utf8 body) = .ok found) :
    found.length ≤ (utf8 body).length := by
  have writes := (bodyWrites line 2).mp ⟨even, read⟩
  have length := writesLength writes
  rw [utf8Ascii (writesAscii writes), List.length_map]
  omega

theorem ofLineRead (line : Nat) {text : List Char} (fits : (utf8 text).length < 2 ^ 64) :
    ofLine line text = lift (Record.ofLine line text) := by
  by_cases colon : ∃ body, text = ':' :: body
  · obtain ⟨body, rfl⟩ := colon
    have size : (utf8 (':' :: body)).length = (utf8 body).length + 1 := by
      rw [utf8, List.flatMap_cons, List.length_append, Nat.add_comm]
      rfl
    rw [size] at fits
    rw [ofLine, Record.ofLine]
    by_cases odd : (utf8 body).length % 2 ≠ 0
    · rw [if_pos odd, if_pos odd]
      rfl
    · rw [if_neg odd, if_neg odd, bytesRead line 0 _ (by omega)]
      cases read : Record.bytes line 2 (utf8 body) with
      | error problem => rfl
      | ok found =>
        -- two digits make one byte, so the bytes are no more than the line has
        have fewer := bytesFewer (of_not_not odd) read
        exact ofBytesRead line (Nat.lt_of_le_of_lt fewer (by omega))
  · have other : ∀ body, text = ':' :: body → False := fun body same => colon ⟨body, same⟩
    rw [ofLine.eq_2 line text other, Record.ofLine.eq_2 line text other]
    rfl

/-! The records in their order. What they hold is small, and so is what is made of them. -/

theorem takeDataRead {limit : Nat} {p : Progress} {r : Record} (data : r.kind = .data)
    (low : p.upper ≤ 65536 * 65535) (few : r.data.length < 256) :
    takeRecord limit p r = lift (p.takeRecord limit r) := by
  have offset := r.offset.toNat_lt
  by_cases filled : r.data = []
  · simp only [takeRecord, data, Progress.takeRecord, filled]
    rfl
  · rw [Progress.takeFilled data filled]
    simp only [takeRecord, data, if_neg filled, okBind,
      addFits (by omega : p.upper + r.offset.toNat < 2 ^ 64),
      addFits (by omega : p.upper + r.offset.toNat + r.data.length < 2 ^ 64)]
    split <;> rfl

theorem pairRead (high low : UInt8) (rest : List UInt8) :
    pair (high :: low :: rest) = .ok (Record.pair high low).toNat := rfl

theorem takeBaseRead {limit : Nat} {p : Progress} {r : Record}
    (base : r.kind = .segmentBase ∨ r.kind = .linearBase) (length : r.data.length = 2) :
    takeRecord limit p r = lift (p.takeRecord limit r) := by
  obtain ⟨high, low, data⟩ := List.length_eq_two.mp length
  have small := (Record.pair high low).toNat_lt
  rcases base with kind | kind
  · simp only [takeRecord, kind, Progress.takeRecord, data, pairRead, okBind,
      shiftFits (by omega : (Record.pair high low).toNat * 2 ^ 4 < 2 ^ 64), Nat.mul_comm]
    rfl
  · simp only [takeRecord, kind, Progress.takeRecord, data, pairRead, okBind,
      shiftFits (by omega : (Record.pair high low).toNat * 2 ^ 16 < 2 ^ 64), Nat.mul_comm]
    rfl

theorem takeStartRead {limit : Nat} {p : Progress} {r : Record}
    (start : r.kind = .segmentStart ∨ r.kind = .linearStart) (length : r.data.length = 4) :
    takeRecord limit p r = lift (p.takeRecord limit r) := by
  obtain ⟨a, b, c, d, data⟩ : ∃ a b c d, r.data = [a, b, c, d] := by
    match r.data, length with
    | [a, b, c, d], _ => exact ⟨a, b, c, d, rfl⟩
  have segment := (Record.pair a b).toNat_lt
  have offset := (Record.pair c d).toNat_lt
  rcases start with kind | kind
  · have first : slice [a, b, c, d] 0 2 = .ok [a, b] := rfl
    have second : slice [a, b, c, d] 2 [a, b, c, d].length = .ok [c, d] := rfl
    have sum := startWord 16 (Record.pair a b) (Record.pair c d) (by show 16 * _ + _ < _; omega)
    have word : 16 * (Record.pair a b).toUInt32 + (Record.pair c d).toUInt32 =
        UInt32.ofNat ((Record.pair a b).toNat * 2 ^ 4 + (Record.pair c d).toNat) := by
      rw [← UInt32.ofNat_toNat (x := 16 * (Record.pair a b).toUInt32 + _), sum, Nat.mul_comm]
      rfl
    simp only [takeRecord, kind, Progress.takeRecord, data, first, second, pairRead, okBind,
      shiftFits (by omega : (Record.pair a b).toNat * 2 ^ 4 < 2 ^ 32),
      addFits (by omega :
        (Record.pair a b).toNat * 2 ^ 4 + (Record.pair c d).toNat < 2 ^ 32), ← word]
    rfl
  · simp only [takeRecord, kind, Progress.takeRecord, data]
    rfl

theorem takeRowRead {limit : Nat} {p : Progress} {row : Row} (sound : row.Sound)
    (low : p.upper ≤ 65536 * 65535) :
    takeRecord limit p row.record = lift (p.takeRecord limit row.record) := by
  have byte := Progress.recordKind sound
  cases kind : row.record.kind with
  | data => exact takeDataRead kind low sound.few
  | endOfFile =>
    simp only [takeRecord, kind, Progress.takeRecord]
    rfl
  | segmentBase =>
    rw [kind] at byte
    exact takeBaseRead (.inl kind) (sound.basing (.inl byte.symm))
  | linearBase =>
    rw [kind] at byte
    exact takeBaseRead (.inr kind) (sound.basing (.inr byte.symm))
  | segmentStart =>
    rw [kind] at byte
    exact takeStartRead (.inl kind) (sound.starting (.inl byte.symm))
  | linearStart =>
    rw [kind] at byte
    exact takeStartRead (.inr kind) (sound.starting (.inr byte.symm))

/- A record that no line writes may be stopped. -/
example : takeRecord 16 .start ⟨.segmentBase, 0, []⟩ = trap .index := rfl

theorem takeLineRead {limit : Nat} (line : Nat) {p : Progress} {raw : List Char}
    (low : p.upper ≤ 65536 * 65535) (fits : (utf8 raw).length < 2 ^ 64) :
    takeLine limit line p raw = lift (p.takeLine limit line raw) := by
  have part := utf8Part (trimPart raw)
  simp only [takeLine, Progress.takeLine]
  split
  · rfl
  · split
    · rfl
    · rw [ofLineRead line (by omega)]
      cases read : Record.ofLine line (trim raw) with
      | error problem => rfl
      | ok r =>
        obtain ⟨row, -, sound, rfl⟩ := (Row.ofLine line).mp read
        exact takeRowRead sound low

/- What is kept of the records so far is small: a base, and pieces under the limit. -/
structure Held (limit : Nat) (p : Progress) : Prop where
  upper : p.upper ≤ 65536 * 65535
  start : ∀ piece ∈ p.pieces, piece.start < 65536 * 65536
  few : ∀ piece ∈ p.pieces, piece.data.length < 256
  under : p.Under limit

theorem heldRow {limit : Nat} {p q : Progress} {row : Row} (sound : row.Sound)
    (taken : p.takeRecord limit row.record = .ok q) (held : Held limit p) : Held limit q := by
  have takes := takeRecordTakes taken
  have offset := row.record.offset.toNat_lt
  have upper := held.upper
  have pieces : ∀ piece ∈ q.pieces,
      piece.start < 65536 * 65536 ∧ piece.data.length < 256 := by
    intro piece member
    rw [takes.pieces] at member
    rcases List.mem_append.mp member with new | old
    · have made := Option.mem_toList.mp new
      unfold Record.piece? at made
      split at made
      · cases made
        exact ⟨by show p.upper + _ < _; omega, sound.few⟩
      · cases made
    · exact ⟨held.start piece old, held.few piece old⟩
  refine ⟨?_, fun piece member => (pieces piece member).1, fun piece member =>
    (pieces piece member).2, Progress.takeRecordUnder taken held.under⟩
  rw [takes.upper]
  cases set : row.record.base? with
  | none => exact upper
  | some base => exact baseBound set

theorem takeLinesRead {limit : Nat} {raws : List (List Char)} {index : Nat} {p : Progress}
    (held : Held limit p) (few : index + raws.length < 2 ^ 64)
    (fits : ∀ raw ∈ raws, (utf8 raw).length < 2 ^ 64) :
    takeLines limit index p raws = lift (p.takeLines limit (index + 1) raws) := by
  induction raws generalizing index p with
  | nil => rfl
  | cons raw rest ih =>
    rw [List.forall_mem_cons] at fits
    rw [List.length_cons] at few
    rw [takeLines, Progress.takeLines, addFits (by omega), okBind,
      takeLineRead (index + 1) held.upper fits.1]
    cases first : p.takeLine limit (index + 1) raw with
    | error problem => rfl
    | ok next => exact ih (Progress.takeLineKeep heldRow first held) (by omega) fits.2

/-! The image. -/

theorem sliceFits {xs : List α} {first last : Nat} (ordered : first ≤ last)
    (inside : last ≤ xs.length) : slice xs first last = .ok ((xs.take last).drop first) :=
  if_pos ⟨ordered, inside⟩

theorem putRead {base : Nat} {buffer : Array UInt8} {piece : Piece} (above : base ≤ piece.start)
    (inside : piece.finish ≤ base + buffer.size) (small : base + buffer.size < 2 ^ 64) :
    put base buffer piece = .ok (putBytes buffer (piece.start - base) piece.data) := by
  unfold Piece.finish at inside
  have length : buffer.toList.length = buffer.size := Array.length_toList
  rw [put, convertFits (by omega), okBind, subFits above, okBind, addFits (by omega), okBind,
    sliceFits (by omega) (by omega), okBind, if_neg]
  · rfl
  · simp only [List.length_drop, List.length_take, ne_eq, not_not]
    omega

theorem putsRead {base : Nat} {pieces : List Piece} {buffer : Array UInt8}
    (above : ∀ piece ∈ pieces, base ≤ piece.start)
    (inside : ∀ piece ∈ pieces, piece.finish ≤ base + buffer.size)
    (small : base + buffer.size < 2 ^ 64) : pieces.foldlM (put base) buffer =
      .ok (pieces.foldl (fun done p => putBytes done (p.start - base) p.data) buffer) := by
  induction pieces generalizing buffer with
  | nil => rfl
  | cons piece rest ih =>
    rw [List.forall_mem_cons] at above inside
    rw [List.foldlM_cons, putRead above.1 inside.1 small, okBind, List.foldl_cons]
    refine ih above.2 ?_ ?_
    · rw [putBytesSize]
      exact inside.2
    · rw [putBytesSize]
      exact small

theorem pairAt {bytes : Array UInt8} {place : Nat} (inside : place < bytes.size / 2) :
    slice bytes.toList (2 * place) (2 * place + 2) =
      .ok [bytes[2 * place]?.getD 0, bytes[2 * place + 1]?.getD 0] := by
  have length : bytes.toList.length = bytes.size := Array.length_toList
  have low : 2 * place < bytes.toList.length := by omega
  have high : 2 * place + 1 < bytes.toList.length := by omega
  rw [sliceFits (by omega) (by omega), List.drop_take, List.drop_eq_getElem_cons low,
    List.drop_eq_getElem_cons high]
  have count : 2 * place + 2 - 2 * place = 2 := by omega
  rw [count]
  simp [show 2 * place < bytes.size by omega, show 2 * place + 1 < bytes.size by omega]

theorem packRead (bytes : Array UInt8) : pack bytes = .ok (wordsOf bytes).toList := by
  have each : ∀ place ∈ List.range (bytes.size / 2), wordOf bytes place =
      .ok ((bytes[2 * place]?.getD 0).toUInt16 +
        256 * (bytes[2 * place + 1]?.getD 0).toUInt16) := by
    intro place inside
    rw [wordOf, pairAt (List.mem_range.mp inside)]
    rfl
  rw [pack, mapMOk each, wordsOf, Array.toList_ofFn]
  congr 1
  exact List.ext_getElem (by simp) (by simp)

theorem lowestRead (first : Piece) (more : List Piece) :
    ((first :: more).map (·.start)).min? = some (lowest first more) := by
  rw [List.map_cons, List.min?_cons', List.foldl_map, lowest]

theorem highestRead (first : Piece) (more : List Piece) :
    ((first :: more).map Piece.finish).max? = some (highest first more) := by
  rw [List.map_cons, List.max?_cons', List.foldl_map, highest]

def laid (first : Piece) (more : List Piece) (entry : Option UInt32) : Loaded :=
  let base := lowest first more / 2 * 2
  let size := (highest first more - base + 1) / 2 * 2
  ⟨memory base size (first :: more), ofPieces first more entry⟩

structure Span (limit : Nat) (first : Piece) (more : List Piece) : Prop where
  ordered : lowest first more ≤ highest first more
  low : lowest first more < 65536 * 65536
  high : highest first more < 65536 * 65536 + 256
  under : highest first more ≤ limit

section
variable {limit : Nat} {p : Progress} {first : Piece} {more : List Piece}

theorem heldSpan (held : Held limit p) (pieces : p.pieces.reverse = first :: more) :
    Span limit first more := by
  have mine : ∀ piece ∈ first :: more, piece ∈ p.pieces := fun piece member => by
    rwa [← pieces, List.mem_reverse] at member
  obtain ⟨above, low, lowMine, lowIs⟩ := lowestLeast first more
  obtain ⟨-, high, highMine, highIs⟩ := highestGreatest first more
  have lowSmall := held.start low (mine low lowMine)
  have highSmall := held.start high (mine high highMine)
  have few := held.few high (mine high highMine)
  have under := held.under high (mine high highMine)
  have ordered := Nat.le_trans (above high highMine) (Nat.le_add_right _ high.data.length)
  -- the last byte stands at most one payload above the greatest start
  unfold Piece.finish at highIs under
  exact ⟨by omega, by omega, by omega, by omega⟩

theorem finishRead (ended : p.ended = true) (pieces : p.pieces.reverse = first :: more)
    (held : Held limit p) (small : limit < 2 ^ 64) :
    finish p = .ok (laid first more p.entry) := by
  obtain ⟨ordered, low, high, -⟩ := heldSpan held pieces
  have ends : ∀ piece ∈ first :: more, add 64 piece.start piece.data.length = .ok piece.finish := by
    intro piece member
    rw [← pieces, List.mem_reverse] at member
    exact addFits (Nat.lt_of_le_of_lt (held.under piece member) small)
  have above : ∀ piece ∈ first :: more, lowest first more / 2 * 2 ≤ piece.start :=
    fun piece member => Nat.le_trans (by omega) ((lowestLeast first more).1 piece member)
  have below := (highestGreatest first more).1
  rw [finish, if_pos ended, pieces]
  dsimp only
  rw [mapMOk ends, okBind, lowestRead, highestRead]
  dsimp only
  -- a span of whole words from an even base reaches at most one byte past the last piece
  rw [convertFits (by omega), okBind, convertFits (by omega), okBind, subFits (by omega), okBind,
    roundUpFits (by omega), okBind, allocateFits (by omega), okBind, putsRead above, okBind,
    packRead, okBind, convertFits (by omega), okBind]
  · rfl
  · intro piece member
    have inside := below piece member
    rw [Array.size_replicate]
    omega
  · rw [Array.size_replicate]
    omega

theorem finishLift (held : Held limit p) (small : limit < 2 ^ 64) :
    (finish p).map Loaded.image = lift p.finish ∧
      ∀ loaded, finish p = .ok loaded → loaded.buffer.size ≤ limit + 1 := by
  unfold Progress.finish
  cases ended : p.ended with
  | false =>
    have stops : finish p = problem .missingEnd := by rw [finish, if_neg (by simp [ended])]
    rw [stops]
    exact ⟨rfl, nofun⟩
  | true =>
    cases pieces : p.pieces.reverse with
    | nil =>
      have stops : finish p = problem .noData := by
        rw [finish, if_pos ended, pieces]
        rfl
      rw [stops]
      exact ⟨rfl, nofun⟩
    | cons first more =>
      rw [finishRead ended pieces held small]
      refine ⟨rfl, ?_⟩
      rintro loaded ⟨⟩
      have under := (heldSpan held pieces).under
      rw [laid, memorySize]
      omega

end

end Guarded

theorem readLift (limit : UInt64) {text : String} (sized : text.utf8ByteSize < 2 ^ 64) :
    (Guarded.read limit text).map Guarded.Loaded.image = Guarded.lift (read limit.toNat text) ∧
      ∀ loaded, Guarded.read limit text = .ok loaded →
        loaded.buffer.size ≤ limit.toNat + 1 := by
  have held : Guarded.Held limit.toNat .start :=
    ⟨Nat.zero_le _, List.forall_mem_nil _, List.forall_mem_nil _, List.forall_mem_nil _⟩
  rw [← Guarded.utf8Size] at sized
  have few : 0 + (lines text.toList).length < 2 ^ 64 := by
    have fewer := linesFewer text.toList
    have longer := Guarded.utf8Longer text.toList
    omega
  have fits : ∀ raw ∈ lines text.toList, (utf8 raw).length < 2 ^ 64 := fun raw member =>
    Nat.lt_of_le_of_lt (Guarded.utf8Part (linesPart member)) sized
  unfold Guarded.read read
  rw [Guarded.takeLinesRead held few fits]
  cases whole : Progress.start.takeLines limit.toNat 1 (lines text.toList) with
  | error problem => exact ⟨rfl, nofun⟩
  | ok p =>
    exact Guarded.finishLift (Progress.takeLinesKeep Guarded.heldRow whole held) limit.toNat_lt

/- On a machine with words of 64 bits no guard stops the reading of a text, which gives the image or
the problem that is read without them. The bytes laid out are no more than the limit and one, and
the image ends where a word with the last byte under the limit would end. -/
theorem readGuarded (limit : UInt64) (text : String) (sized : text.utf8ByteSize < 2 ^ 64) :
    (∀ trap, Guarded.read limit text ≠ .error (.trap trap)) ∧
      (Guarded.read limit text).map Guarded.Loaded.image =
        (read limit.toNat text).mapError .problem ∧
      ∀ loaded, Guarded.read limit text = .ok loaded →
        loaded.buffer.size ≤ limit.toNat + 1 ∧
        loaded.image.base.toNat + loaded.image.byteLength ≤ (limit.toNat + 1) / 2 * 2 := by
  obtain ⟨same, bounded⟩ := readLift limit sized
  refine ⟨fun trap stopped => ?_, same, fun loaded ok => ⟨bounded loaded ok, ?_⟩⟩
  · rw [stopped] at same
    exact Guarded.liftPasses _ trap same.symm
  · rw [ok] at same
    exact (readUnder (Guarded.liftOk same.symm)).2

theorem sampleGuarded :
    let text := ":020003001122C8\n:00000001FF"
    let buffer : Array UInt8 := #[0, 0x11, 0x22, 0]
    text.utf8ByteSize < 2 ^ 64 ∧
      Guarded.read 5 text = .ok ⟨buffer, ⟨2, #[0x1100, 0x22], none⟩⟩ ∧
      (∀ trap, Guarded.read 5 text ≠ .error (.trap trap)) ∧
      read 5 text = .ok ⟨2, #[0x1100, 0x22], none⟩ ∧
      buffer.size ≤ 5 + 1 ∧ 2 + 4 ≤ (5 + 1) / 2 * 2 := by
  intro text buffer
  have sized : text.utf8ByteSize < 2 ^ 64 := by decide +kernel
  have ok : Guarded.read 5 text = .ok ⟨buffer, ⟨2, #[0x1100, 0x22], none⟩⟩ := by decide +kernel
  obtain ⟨passes, same, bounded⟩ := readGuarded 5 text sized
  rw [ok] at same
  have plain : read 5 text = .ok ⟨2, #[0x1100, 0x22], none⟩ := Guarded.liftOk same.symm
  obtain ⟨room, under⟩ := bounded _ ok
  exact ⟨sized, ok, passes, plain, room, under⟩

end VirtualBoard.Image
