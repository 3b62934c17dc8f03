import VirtualBoard.Proofs.Image.Layout

/-! Reading undoes encoding.

The bytes of some words are cut into chunks, the chunks are put into data records
in any order, and address records set a base near each of them. However that is
done and laid out as a text, the words are read back at their place. -/
namespace VirtualBoard.Image
open Text

def bytesOf (words : List UInt16) : List UInt8 :=
  words.flatMap fun word => [word.toUInt8, (word / 256).toUInt8]

def place (start : Nat) : List (List UInt8) → List Piece
  | [] => []
  | chunk :: rest => ⟨start, chunk⟩ :: place (start + chunk.length) rest

inductive Carries : Nat → List Piece → List Record → Prop where
  | nil (base : Nat) : Carries base [] []
  | data {base start : Nat} {data : List UInt8} {pieces : List Piece} {records : List Record}
      (above : base ≤ start) (near : start ≤ base + 65535) (later : Carries base pieces records) :
      Carries base (⟨start, data⟩ :: pieces)
        (⟨.data, UInt16.ofNat (start - base), data⟩ :: records)
  | base {base : Nat} (next : Nat) {r : Record} {pieces : List Piece} {records : List Record}
      (sets : r.base? = some next) (later : Carries next pieces records) :
      Carries base pieces (r :: records)

def closing (offset : UInt16) : Record := ⟨.endOfFile, offset, []⟩

/- One way to write words at a place as a text. -/
structure Encoding (base : Nat) (words : List UInt16) (text : String) where
  chunks : List (List UInt8)
  sized : ∀ chunk ∈ chunks, 1 ≤ chunk.length ∧ chunk.length ≤ 255
  whole : chunks.flatten = bytesOf words
  pieces : List Piece
  ordered : pieces.Perm (place base chunks)
  records : List Record
  carries : Carries 0 pieces records
  offset : UInt16
  lines : List (List Char)
  lays : Lays lines (records ++ [closing offset])
  parted : Parted text.toList lines

/-! The bytes of words. -/

theorem bytesOfLength (words : List UInt16) : (bytesOf words).length = 2 * words.length := by
  induction words with
  | nil => rfl
  | cons word rest ih =>
    simp only [bytesOf, List.flatMap_cons, List.length_append, List.length_cons,
      List.length_nil] at ih ⊢
    omega

theorem bytesOfAt (words : List UInt16) (k : Nat) :
    (bytesOf words)[k]? = (words[k / 2]?).map fun word =>
      if k % 2 = 0 then word.toUInt8 else (word / 256).toUInt8 := by
  induction words generalizing k with
  | nil => simp [bytesOf]
  | cons word rest ih =>
    match k with
    | 0 | 1 => simp [bytesOf]
    | k + 2 =>
      have half : (k + 2) / 2 = k / 2 + 1 := by omega
      have next : (bytesOf (word :: rest))[k + 2]? = (bytesOf rest)[k]? := rfl
      simp [next, ih, half]

theorem bytesAt {base : UInt32} (even : base.toNat % 2 = 0) (words : Array UInt16)
    (entry : Option UInt32) (k : Nat) :
    (Image.mk base words entry).byteAt? (base.toNat + k) = (bytesOf words.toList)[k]? := by
  have parity : (base.toNat + k) % 2 = k % 2 := by omega
  have reach : base.toNat ≤ base.toNat + k := Nat.le_add_right _ _
  simp [byteAt?, bytesOfAt, parity, reach]

theorem imageBytes {image : Image} {base : UInt32} {words : Array UInt16}
    (even : base.toNat % 2 = 0) (place : image.base = base)
    (finish : image.finish = base.toNat + 2 * words.size)
    (bytes : ∀ k < 2 * words.size, image.byteAt? (base.toNat + k) = (bytesOf words.toList)[k]?) :
    image = ⟨base, words, image.entry⟩ := by
  obtain ⟨at_, held, entry⟩ := image
  subst place
  have size : held.size = words.size := by
    simp only [Image.finish, byteLength] at finish
    omega
  have same : held = words := by
    apply Array.ext size
    intro i inside fits
    have low := bytes (2 * i) (by omega)
    have high := bytes (2 * i + 1) (by omega)
    have first : 2 * i / 2 = i := by omega
    have second : (2 * i + 1) / 2 = i := by omega
    have odd : (2 * i + 1) % 2 = 1 := by omega
    simp only [bytesAt even, bytesOfAt, first, second, odd, Array.getElem?_toList,
      Array.getElem?_eq_getElem inside, Array.getElem?_eq_getElem fits, Option.map_some,
      Nat.mul_mod_right, if_true, Option.some.injEq] at low high
    exact Record.offsetBytes (by simpa using high) low
  simp [same]

/-! The pieces: each covers its own stretch of the bytes, and together they cover all. -/

theorem placeBounds {start : Nat} {chunks : List (List UInt8)} {p : Piece}
    (member : p ∈ place start chunks) :
    start ≤ p.start ∧ p.finish ≤ start + chunks.flatten.length ∧ p.data ∈ chunks := by
  induction chunks generalizing start with
  | nil => simp [place] at member
  | cons chunk rest ih =>
    simp only [List.flatten_cons, List.length_append]
    rcases List.mem_cons.mp member with rfl | later
    · simp [Piece.finish]
    · obtain ⟨above, below, source⟩ := ih later
      exact ⟨by omega, by omega, by simp [source]⟩

theorem placeByte {start : Nat} {chunks : List (List UInt8)} {p : Piece} {k : Nat} {b : UInt8}
    (member : p ∈ place start chunks) (byte : p.byteAt? (start + k) = some b) :
    chunks.flatten[k]? = some b := by
  induction chunks generalizing start k with
  | nil => simp [place] at member
  | cons chunk rest ih =>
    rw [List.flatten_cons]
    rcases List.mem_cons.mp member with rfl | later
    · have inside : chunk[k]? = some b := by simpa [Piece.byteAt?] using byte
      obtain ⟨bound, -⟩ := List.getElem?_eq_some_iff.mp inside
      rw [List.getElem?_append_left bound]
      exact inside
    · obtain ⟨above, -⟩ := placeBounds later
      have beyond : chunk.length ≤ k := by
        unfold Piece.byteAt? at byte
        split at byte
        · omega
        · cases byte
      rw [List.getElem?_append_right beyond]
      apply ih later
      rwa [Nat.add_assoc, Nat.add_sub_of_le beyond]

theorem placeCovers (start : Nat) {chunks : List (List UInt8)} {k : Nat} {b : UInt8}
    (byte : chunks.flatten[k]? = some b) :
    ∃ p ∈ place start chunks, p.byteAt? (start + k) = some b := by
  induction chunks generalizing start k with
  | nil => simp at byte
  | cons chunk rest ih =>
    rw [List.flatten_cons] at byte
    by_cases inside : k < chunk.length
    · rw [List.getElem?_append_left inside] at byte
      exact ⟨⟨start, chunk⟩, by simp [place], by simpa [Piece.byteAt?] using byte⟩
    · have beyond : chunk.length ≤ k := Nat.le_of_not_lt inside
      rw [List.getElem?_append_right beyond] at byte
      obtain ⟨p, member, found⟩ := ih (start + chunk.length) byte
      rw [Nat.add_assoc, Nat.add_sub_of_le beyond] at found
      exact ⟨p, by simp [place, member], found⟩

theorem pieceReach {p : Piece} {address : Nat} {b : UInt8} (byte : p.byteAt? address = some b) :
    p.start ≤ address ∧ address < p.finish := by
  unfold Piece.byteAt? at byte
  split at byte
  · rename_i above
    obtain ⟨inside, -⟩ := List.getElem?_eq_some_iff.mp byte
    exact ⟨above, by unfold Piece.finish; omega⟩
  · cases byte

section Assembled

variable {base : Nat} {chunks : List (List UInt8)} {pieces : List Piece}

theorem lastPlaced (ordered : pieces.Perm (place base chunks)) {k : Nat} {b : UInt8}
    (byte : chunks.flatten[k]? = some b) : lastByte pieces (base + k) = b := by
  obtain ⟨p, member, covers⟩ := placeCovers base byte
  cases found : pieces.reverse.findSome? (·.byteAt? (base + k)) with
  | none =>
    have absent := List.findSome?_eq_none_iff.mp found p
      (List.mem_reverse.mpr (ordered.mem_iff.mpr member))
    rw [covers] at absent
    cases absent
  | some c =>
    obtain ⟨q, other, gives⟩ := List.exists_of_findSome?_eq_some found
    have same := placeByte (ordered.mem_iff.mp (List.mem_reverse.mp other)) gives
    rw [byte] at same
    simp [lastByte, found, Option.some.inj same]

theorem extentPlaced {first : Piece} {more : List Piece}
    (ordered : (first :: more).Perm (place base chunks)) (filled : chunks.flatten ≠ []) :
    lowest first more = base ∧ highest first more = base + chunks.flatten.length := by
  obtain ⟨least, low, lowMember, lowSame⟩ := lowestLeast first more
  obtain ⟨greatest, high, highMember, highSame⟩ := highestGreatest first more
  obtain ⟨above, -⟩ := placeBounds (ordered.mem_iff.mp lowMember)
  obtain ⟨-, below, -⟩ := placeBounds (ordered.mem_iff.mp highMember)
  have some : 0 < chunks.flatten.length := List.length_pos_iff.mpr filled
  obtain ⟨p, pMember, pCovers⟩ := placeCovers base (List.getElem?_eq_getElem some)
  obtain ⟨q, qMember, qCovers⟩ := placeCovers base
    (List.getElem?_eq_getElem (Nat.sub_one_lt_of_lt some))
  have reachLow := pieceReach pCovers
  have reachHigh := pieceReach qCovers
  have early := least p (ordered.mem_iff.mpr pMember)
  have late := greatest q (ordered.mem_iff.mpr qMember)
  omega

end Assembled

theorem ofPiecesPlaced {base : UInt32} {words : Array UInt16} {chunks : List (List UInt8)}
    {first : Piece} {more : List Piece} (even : base.toNat % 2 = 0) (some : words ≠ #[])
    (whole : chunks.flatten = bytesOf words.toList)
    (ordered : (first :: more).Perm (place base.toNat chunks)) (entry : Option UInt32) :
    ofPieces first more entry = ⟨base, words, entry⟩ := by
  have length : chunks.flatten.length = 2 * words.size := by
    rw [whole, bytesOfLength, Array.length_toList]
  have positive : 0 < words.size := Array.size_pos_iff.mpr some
  have filled : chunks.flatten ≠ [] := by
    intro none
    rw [none, List.length_nil] at length
    omega
  obtain ⟨low, high⟩ := extentPlaced ordered filled
  have small := base.toNat_lt
  have packs := ofPiecesPacks first more entry (by omega)
  have start : (ofPieces first more entry).base.toNat = base.toNat := by
    rw [packs.base]
    omega
  have stop : (ofPieces first more entry).finish = base.toNat + 2 * words.size := by
    rw [packs.finish]
    omega
  apply imageBytes even (UInt32.toNat_inj.mp start) stop
  intro k inside
  have bound : k < chunks.flatten.length := by omega
  have byte : chunks.flatten[k]? = Option.some chunks.flatten[k] := List.getElem?_eq_getElem bound
  rw [packs.byte _ (by omega) (by omega), lastPlaced ordered byte, ← whole, byte]

/-! The records: they are taken one after the other, and leave the pieces they carry. -/

theorem baseSized {r : Record} {next : Nat} (sets : r.base? = some next) : r.Sized := by
  obtain ⟨kind, offset, data⟩ := r
  unfold Record.base? at sets
  split at sets
  all_goals
    constructor <;> simp_all [Record.Kind.payload?]

theorem takeBase {limit next : Nat} {r : Record} (p : Progress) (sets : r.base? = some next) :
    p.takeRecord limit r = .ok {p with upper := next} := by
  obtain ⟨kind, offset, data⟩ := r
  unfold Record.base? at sets
  split at sets
  all_goals
    simp_all [Progress.takeRecord]

theorem takePiece {limit start : Nat} {data : List UInt8} (p : Progress) (filled : data ≠ [])
    (above : p.upper ≤ start) (near : start ≤ p.upper + 65535)
    (fits : (Piece.mk start data).finish ≤ limit) :
    p.takeRecord limit ⟨.data, UInt16.ofNat (start - p.upper), data⟩ =
      .ok {p with pieces := ⟨start, data⟩ :: p.pieces} := by
  have offset : p.upper + (UInt16.ofNat (start - p.upper)).toNat = start := by
    rw [UInt16.toNat_ofNat']
    omega
  cases data with
  | nil => exact absurd rfl filled
  | cons b rest =>
    simp only [Progress.takeRecord, offset]
    exact if_neg (Nat.not_lt_of_le fits)

theorem carriesTaken (limit : Nat) {base : Nat} {pieces : List Piece} {records : List Record}
    (offset : UInt16) (carries : Carries base pieces records)
    (sized : ∀ p ∈ pieces, 1 ≤ p.data.length ∧ p.data.length ≤ 255)
    (within : ∀ p ∈ pieces, p.finish ≤ limit) {p : Progress} (going : p.ended = false)
    (upper : p.upper = base) :
    ∃ q, p.Takings limit ((records ++ [closing offset]).map Record.row) q ∧
      q.ended = true ∧ q.entry = p.entry ∧ q.pieces = pieces.reverse ++ p.pieces := by
  induction carries generalizing p with
  | nil base =>
    have sound : (closing offset).row.Sound := by
      apply Record.rowSound
      constructor <;> simp [closing, Record.Kind.payload?]
    refine ⟨{p with ended := true}, .row going sound ?_ (.none _), rfl, rfl, rfl⟩
    rw [Record.rowRecord]
    rfl
  | @data base start data pieces records above near later ih =>
    simp only [List.forall_mem_cons] at sized within
    subst upper
    have filled : data ≠ [] := List.length_pos_iff.mp sized.1.1
    have sound : (Record.row ⟨.data, UInt16.ofNat (start - p.upper), data⟩).Sound :=
      Record.rowSound ⟨sized.1.2, by simp [Record.Kind.payload?]⟩
    have taken := takePiece p filled above near within.1
    obtain ⟨q, takings, ended, entry, held⟩ := ih sized.2 within.2
      (p := {p with pieces := ⟨start, data⟩ :: p.pieces}) going rfl
    refine ⟨q, .row going sound ?_ takings, ended, entry, by simp [held]⟩
    rw [Record.rowRecord]
    exact taken
  | base next sets later ih =>
    obtain ⟨q, takings, ended, entry, held⟩ := ih sized within
      (p := {p with upper := next}) going rfl
    refine ⟨q, .row going (Record.rowSound (baseSized sets)) ?_ takings, ended, entry, held⟩
    rw [Record.rowRecord]
    exact takeBase p sets

theorem encodingRead {base : UInt32} {words : Array UInt16} {limit : Nat} {text : String}
    (even : base.toNat % 2 = 0) (some : words ≠ #[])
    (within : base.toNat + 2 * words.size ≤ limit)
    (encoding : Encoding base.toNat words.toList text) :
    read limit text = .ok ⟨base, words, none⟩ := by
  obtain ⟨chunks, sized, whole, pieces, ordered, records, carries, offset, parts, lays, parted⟩ :=
    encoding
  have length : chunks.flatten.length = 2 * words.size := by
    rw [whole, bytesOfLength, Array.length_toList]
  have placed : ∀ p ∈ pieces, (1 ≤ p.data.length ∧ p.data.length ≤ 255) ∧ p.finish ≤ limit := by
    intro p member
    obtain ⟨-, below, source⟩ := placeBounds (ordered.mem_iff.mp member)
    exact ⟨sized _ source, by omega⟩
  obtain ⟨q, takings, ended, entry, held⟩ := carriesTaken limit offset carries
    (fun p member => (placed p member).1) (fun p member => (placed p member).2)
    (p := Progress.start) rfl rfl
  have taken : Progress.start.takeLines limit 1 (lines text.toList) = .ok q :=
    Progress.takeLinesRows.mpr ⟨_, partedRows parted lays, takings⟩
  have order : q.pieces.reverse = pieces := by simp [held, Progress.start]
  cases pieces with
  | nil =>
    have positive : 0 < words.size := Array.size_pos_iff.mpr some
    have reach : 0 < chunks.flatten.length := by omega
    obtain ⟨p, member, -⟩ := placeCovers base.toNat (List.getElem?_eq_getElem reach)
    exact absurd (ordered.mem_iff.mpr member) (by simp)
  | cons first more =>
    simp only [read, taken, Progress.finish, ended, order, if_true]
    rw [ofPiecesPlaced even some whole ordered, entry]
    rfl

/-! A builder that starts at address zero and puts sixteen bytes into each record. -/

def sixteens : List UInt8 → List (List UInt8)
  | [] => []
  | b :: rest => (b :: rest.take 15) :: sixteens (rest.drop 15)
termination_by bytes => bytes.length

def sixteenRecords (start : Nat) : List UInt8 → List Record
  | [] => []
  | b :: rest =>
    ⟨.data, UInt16.ofNat start, b :: rest.take 15⟩ :: sixteenRecords (start + 16) (rest.drop 15)
termination_by bytes => bytes.length

/- The text of some words, unless an offset would take more than two bytes. -/
def hexImage? (words : List UInt16) : Option String :=
  if (bytesOf words).length ≤ 65536 then
    some (String.ofList ((sixteenRecords 0 (bytesOf words) ++ [closing 0]).flatMap
      fun r => r.toLine ++ ['\n']))
  else none

theorem sixteensWhole (bytes : List UInt8) : (sixteens bytes).flatten = bytes ∧
    ∀ chunk ∈ sixteens bytes, 1 ≤ chunk.length ∧ chunk.length ≤ 16 := by
  induction bytes using sixteens.induct with
  | case1 => simp [sixteens]
  | case2 b rest ih =>
    obtain ⟨whole, sized⟩ := ih
    rw [sixteens]
    constructor
    · simp [whole]
    · simp only [List.forall_mem_cons, List.length_cons, List.length_take]
      exact ⟨by omega, sized⟩

theorem sixteensCarried (bytes : List UInt8) {start : Nat} (small : start + bytes.length ≤ 65536) :
    Carries 0 (place start (sixteens bytes)) (sixteenRecords start bytes) := by
  induction bytes using sixteens.induct generalizing start with
  | case1 =>
    rw [sixteens, sixteenRecords]
    exact .nil 0
  | case2 b rest ih =>
    rw [List.length_cons] at small
    rw [sixteens, sixteenRecords]
    apply Carries.data (Nat.zero_le _) (by omega)
    by_cases full : 15 ≤ rest.length
    · have length : (b :: rest.take 15).length = 16 := by simp [full]
      rw [length]
      apply ih
      rw [List.length_drop]
      omega
    · have none : rest.drop 15 = [] := List.drop_eq_nil_of_le (by omega)
      rw [none, sixteens, sixteenRecords]
      exact .nil 0

theorem byteTextSolid (b : UInt8) :
    ∀ c ∈ Record.byteText b, c.toUpper = c ∧ isBlank c = false := by
  have table : ∀ value < 16, (Record.capital value).toUpper = Record.capital value := by
    decide +kernel
  have digit : ∀ value < 16, (Record.capital value).toUpper = Record.capital value ∧
      isBlank (Record.capital value) = false :=
    fun value small => ⟨table value small, (capitalDigit small (table value small)).2⟩
  have bound := b.toNat_lt
  simpa [byteCapitalPair] using
    And.intro (digit (b.toNat / 16) (by omega)) (digit (b.toNat % 16) (by omega))

theorem toLineSolid (r : Record) : ∀ c ∈ r.toLine, c.toUpper = c ∧ isBlank c = false := by
  simp only [Record.toLine, List.forall_mem_cons, List.forall_mem_flatMap]
  exact ⟨by decide +kernel, fun b _ => byteTextSolid b⟩

theorem toLineDressed (r : Record) : Dressed r r.toLine := by
  have same : r.toLine.map Char.toUpper = r.toLine.map id :=
    List.map_congr_left fun c member => (toLineSolid r c member).1
  exact ⟨[], r.toLine, [], by simp, rfl, rfl, by simpa using same⟩

theorem toLineWhole (r : Record) : '\n' ∉ r.toLine := by
  intro member
  have solid := (toLineSolid r _ member).2
  revert solid
  decide +kernel

theorem builtParted (records : List Record) :
    Parted (records.flatMap fun r => r.toLine ++ ['\n']) (records.map Record.toLine ++ [[]]) := by
  induction records with
  | nil => exact .last (by simp)
  | cons r rest ih =>
    simpa using Parted.more (toLineWhole r) (.inl rfl) ih

theorem builtLaid (records : List Record) : Lays (records.map Record.toLine ++ [[]]) records := by
  induction records with
  | nil => exact .blank rfl .nil
  | cons r rest ih => exact .record (toLineDressed r) ih

def built {words : List UInt16} {text : String} (made : hexImage? words = some text) :
    Encoding 0 words text where
  chunks := sixteens (bytesOf words)
  sized := by
    intro chunk member
    have bounds := (sixteensWhole (bytesOf words)).2 chunk member
    omega
  whole := (sixteensWhole _).1
  pieces := place 0 (sixteens (bytesOf words))
  ordered := .refl _
  records := sixteenRecords 0 (bytesOf words)
  carries := by
    unfold hexImage? at made
    split at made
    · exact sixteensCarried _ (by omega)
    · cases made
  offset := 0
  lines := (sixteenRecords 0 (bytesOf words) ++ [closing 0]).map Record.toLine ++ [[]]
  lays := builtLaid _
  parted := by
    unfold hexImage? at made
    split at made
    · cases made
      simpa using builtParted (sixteenRecords 0 (bytesOf words) ++ [closing 0])
    · cases made

theorem builtSome (words : List UInt16) : (hexImage? words).isSome ↔ words.length ≤ 32768 := by
  unfold hexImage?
  rw [bytesOfLength]
  split <;> simp <;> omega

/- Reading undoes every way of writing, and the builder's way is one of them. -/
theorem readEncoded :
    (∀ (base : UInt32) (words : Array UInt16) (limit : Nat) (text : String),
      base.toNat % 2 = 0 → words ≠ #[] → base.toNat + 2 * words.size ≤ limit →
      Encoding base.toNat words.toList text → read limit text = .ok ⟨base, words, none⟩) ∧
    ∀ (words : List UInt16) (limit : Nat), words ≠ [] → 2 * words.length ≤ limit →
      ((hexImage? words).isSome ↔ words.length ≤ 32768) ∧
      ∀ text, hexImage? words = some text → read limit text = .ok ⟨0, words.toArray, none⟩ := by
  constructor
  · intro base words limit text even some within encoding
    exact encodingRead even some within encoding
  · intro words limit some within
    refine ⟨builtSome words, fun text made => ?_⟩
    have held : words.toArray ≠ #[] := by simpa using some
    have fits : (0 : UInt32).toNat + 2 * words.toArray.size ≤ limit := by simpa using within
    exact encodingRead rfl held fits (built made)

def sampleText : String :=
  "\t:020000040001f9\r\n\n:0300030011443372 \n:020000021000EC\r\n:0100020022db\n:00000001fF"

def sample : Encoding 0x10002 [0x1122, 0x3344] sampleText where
  chunks := [[0x22], [0x11, 0x44, 0x33]]
  sized := by decide
  whole := by decide +kernel
  pieces := [⟨0x10003, [0x11, 0x44, 0x33]⟩, ⟨0x10002, [0x22]⟩]
  ordered := .swap _ _ _
  records := [⟨.linearBase, 0, [0, 1]⟩, ⟨.data, 3, [0x11, 0x44, 0x33]⟩,
    ⟨.segmentBase, 0, [0x10, 0]⟩, ⟨.data, 2, [0x22]⟩]
  carries := .base 0x10000 rfl (.data (by omega) (by omega)
    (.base 0x10000 rfl (.data (by omega) (by omega) (.nil _))))
  offset := 0
  lines := ["\t:020000040001f9".toList, [], ":0300030011443372 ".toList, ":020000021000EC".toList,
    ":0100020022db".toList, ":00000001fF".toList]
  lays := .record ⟨['\t'], ":020000040001f9".toList, [], by decide +kernel⟩ (.blank rfl
    (.record ⟨[], ":0300030011443372".toList, [' '], by decide +kernel⟩
    (.record ⟨[], ":020000021000EC".toList, [], by decide +kernel⟩
    (.record ⟨[], ":0100020022db".toList, [], by decide +kernel⟩
    (.record ⟨[], ":00000001fF".toList, [], by decide +kernel⟩ .nil)))))
  parted := by
    have cut : sampleText.toList = "\t:020000040001f9".toList ++ (['\r', '\n'] ++ ([] ++ (['\n'] ++
        (":0300030011443372 ".toList ++ (['\n'] ++ (":020000021000EC".toList ++ (['\r', '\n'] ++
        (":0100020022db".toList ++ (['\n'] ++ ":00000001fF".toList))))))))) := by
      decide +kernel
    rw [cut]
    exact .more (by decide +kernel) (.inr rfl) (.more (by decide +kernel) (.inl rfl)
      (.more (by decide +kernel) (.inl rfl) (.more (by decide +kernel) (.inr rfl)
      (.more (by decide +kernel) (.inl rfl) (.last (by decide +kernel))))))

theorem readSample : read 70000 sampleText = .ok ⟨0x10002, #[0x1122, 0x3344], none⟩ ∧
    (∃ text, hexImage? [0x1122] = some text ∧ read 2 text = .ok ⟨0, #[0x1122], none⟩) := by
  obtain ⟨encoded, builder⟩ := readEncoded
  constructor
  · exact encoded 0x10002 #[0x1122, 0x3344] 70000 sampleText (by decide) (by decide) (by decide)
      sample
  · obtain ⟨builds, reads⟩ := builder [0x1122] 2 (by decide) (by decide)
    obtain ⟨text, made⟩ := Option.isSome_iff_exists.mp (builds.mpr (by decide))
    exact ⟨text, made, reads text made⟩

end VirtualBoard.Image
