import VirtualBoard.Image.Memory

/-! The bytes of an image made of pieces.

Writing pieces one after the other leaves at each address the byte of the last
piece that covers it, or zero; packing into words loses no byte. -/
namespace VirtualBoard.Image

def byteAt? (i : Image) (address : Nat) : Option UInt8 :=
  if i.base.toNat ≤ address then
    (i.words[(address - i.base.toNat) / 2]?).map fun word =>
      if address % 2 = 0 then word.toUInt8 else (word / 256).toUInt8
  else none

theorem putBytesSize (m : Array UInt8) (place : Nat) (data : List UInt8) :
    (putBytes m place data).size = m.size := by
  induction data generalizing m place with
  | nil => rfl
  | cons b rest ih =>
    rw [putBytes, ih]
    exact Array.size_setIfInBounds

theorem putBytesAt (m : Array UInt8) (place : Nat) (data : List UInt8) {k : Nat}
    (inside : k < m.size) : (putBytes m place data)[k]? =
      (if place ≤ k then data[k - place]? else none).or m[k]? := by
  induction data generalizing m place with
  | nil => simp [putBytes]
  | cons b rest ih =>
    have there : k < (m.setIfInBounds place b).size := by simpa using inside
    rw [putBytes, ih _ _ there, Array.getElem?_setIfInBounds]
    rcases Nat.lt_trichotomy k place with before | rfl | after
    · have no : ¬ place + 1 ≤ k := by omega
      have no' : ¬ place ≤ k := by omega
      have other : place ≠ k := by omega
      simp [no, no', other]
    · have no : ¬ k + 1 ≤ k := by omega
      simp [inside, no]
    · have yes : place + 1 ≤ k := after
      have yes' : place ≤ k := by omega
      have other : place ≠ k := by omega
      have next : k - place = k - (place + 1) + 1 := by omega
      simp [yes, yes', other, next]

theorem piecesAt (base : Nat) {pieces : List Piece} (above : ∀ p ∈ pieces, base ≤ p.start)
    (m : Array UInt8) {k : Nat} (inside : k < m.size) :
    (pieces.foldl (fun done p => putBytes done (p.start - base) p.data) m)[k]? =
      (pieces.reverse.findSome? (·.byteAt? (base + k))).or m[k]? := by
  induction pieces generalizing m with
  | nil => simp
  | cons p rest ih =>
    have low := above p (by simp)
    have there : k < (putBytes m (p.start - base) p.data).size := by
      rw [putBytesSize]
      exact inside
    have shift : p.byteAt? (base + k) =
        if p.start - base ≤ k then p.data[k - (p.start - base)]? else none := by
      have same : (p.start ≤ base + k) = (p.start - base ≤ k) := by
        apply propext
        omega
      have place : base + k - p.start = k - (p.start - base) := by omega
      rw [Piece.byteAt?, place]
      simp only [same]
    rw [List.foldl_cons, ih (fun q member => above q (List.mem_cons_of_mem _ member)) _ there,
      putBytesAt _ _ _ inside, List.reverse_cons, List.findSome?_append, Option.or_assoc, ← shift]
    congr 2
    cases found : p.byteAt? (base + k) with
    | none => simp [found]
    | some b => simp [found]

theorem memoryAt {base size : Nat} {pieces : List Piece} (above : ∀ p ∈ pieces, base ≤ p.start)
    {k : Nat} (inside : k < size) :
    (memory base size pieces)[k]? = some (lastByte pieces (base + k)) := by
  have blank : k < (Array.replicate size (0 : UInt8)).size := by simpa using inside
  rw [memory, piecesAt base above _ blank, lastByte, Array.getElem?_replicate, if_pos inside]
  cases pieces.reverse.findSome? (·.byteAt? (base + k)) <;> rfl

theorem memorySize (base size : Nat) (pieces : List Piece) :
    (memory base size pieces).size = size := by
  have kept : ∀ m : Array UInt8,
      (pieces.foldl (fun done p => putBytes done (p.start - base) p.data) m).size = m.size := by
    induction pieces with
    | nil => exact fun m => rfl
    | cons p rest ih => exact fun m => (ih _).trans (putBytesSize _ _ _)
  rw [memory, kept, Array.size_replicate]

theorem wordNat (low high : UInt8) :
    (low.toUInt16 + 256 * high.toUInt16).toNat = low.toNat + 256 * high.toNat := by
  have one := low.toNat_lt
  have two := high.toNat_lt
  have product : (256 * high.toUInt16).toNat = 256 * high.toNat := by
    rw [UInt16.toNat_mul, UInt8.toNat_toUInt16]
    exact Nat.mod_eq_of_lt (by show 256 * high.toNat < 65536; omega)
  rw [UInt16.toNat_add, product, UInt8.toNat_toUInt16]
  omega

theorem lowByte (low high : UInt8) : (low.toUInt16 + 256 * high.toUInt16).toUInt8 = low := by
  have bound := low.toNat_lt
  apply UInt8.toNat_inj.mp
  rw [UInt16.toNat_toUInt8, wordNat]
  omega

theorem highByte (low high : UInt8) :
    ((low.toUInt16 + 256 * high.toUInt16) / 256).toUInt8 = high := by
  have one := low.toNat_lt
  have two := high.toNat_lt
  apply UInt8.toNat_inj.mp
  rw [UInt16.toNat_toUInt8, UInt16.toNat_div, wordNat]
  show (low.toNat + 256 * high.toNat) / 256 % 256 = high.toNat
  omega

theorem wordsSize (bytes : Array UInt8) : (wordsOf bytes).size = bytes.size / 2 := Array.size_ofFn

theorem wordsAt (bytes : Array UInt8) {place : Nat} (inside : place < bytes.size / 2) :
    (wordsOf bytes)[place]? = some ((bytes[2 * place]?.getD 0).toUInt16
      + 256 * (bytes[2 * place + 1]?.getD 0).toUInt16) := by
  rw [Array.getElem?_eq_getElem (by rw [wordsSize]; exact inside)]
  simp only [wordsOf, Array.getElem_ofFn]

theorem packedAt (base : UInt32) (bytes : Array UInt8) (entry : Option UInt32)
    (even : base.toNat % 2 = 0) (whole : bytes.size % 2 = 0) {k : Nat} (inside : k < bytes.size) :
    (Image.mk base (wordsOf bytes) entry).byteAt? (base.toNat + k) = bytes[k]? := by
  have word : k / 2 < bytes.size / 2 := by omega
  have place : base.toNat + k - base.toNat = k := by omega
  have there : bytes[k]? = some bytes[k] := Array.getElem?_eq_getElem inside
  rw [byteAt?, if_pos (by exact Nat.le_add_right _ _)]
  simp only [place, wordsAt bytes word, Option.map_some]
  rcases Nat.mod_two_eq_zero_or_one k with low | high
  · have first : 2 * (k / 2) = k := by omega
    have parity : (base.toNat + k) % 2 = 0 := by omega
    rw [if_pos parity, lowByte, first, there]
    rfl
  · have second : 2 * (k / 2) + 1 = k := by omega
    have parity : ¬ (base.toNat + k) % 2 = 0 := by omega
    rw [if_neg parity, highByte, second, there]
    rfl

theorem foldExtreme (before : Nat → Nat → Prop) (pick : Nat → Nat → Nat)
    (trans : ∀ {a b c}, before a b → before b c → before a c) (refl : ∀ a, before a a)
    (left : ∀ a b, before (pick a b) a) (right : ∀ a b, before (pick a b) b)
    (one : ∀ a b, pick a b = a ∨ pick a b = b) (f : Piece → Nat) (first : Piece)
    (more : List Piece) :
    let out := more.foldl (fun done p => pick done (f p)) (f first)
    (∀ p ∈ first :: more, before out (f p)) ∧ ∃ p ∈ first :: more, out = f p := by
  have all : ∀ init, let out := more.foldl (fun done p => pick done (f p)) init
      before out init ∧ (∀ p ∈ more, before out (f p)) ∧ (out = init ∨ ∃ p ∈ more, out = f p) := by
    induction more with
    | nil => exact fun init => ⟨refl init, by simp, .inl rfl⟩
    | cons p rest ih =>
      intro init
      obtain ⟨low, bound, found⟩ := ih (pick init (f p))
      refine ⟨trans low (left _ _), fun q member => ?_, ?_⟩
      · rcases List.mem_cons.mp member with rfl | later
        · exact trans low (right _ _)
        · exact bound q later
      · rcases found with same | ⟨q, member, same⟩
        · rcases one init (f p) with here | there
          · exact .inl (same.trans here)
          · exact .inr ⟨p, by simp, same.trans there⟩
        · exact .inr ⟨q, List.mem_cons_of_mem _ member, same⟩
  obtain ⟨low, bound, found⟩ := all (f first)
  refine ⟨fun q member => ?_, ?_⟩
  · rcases List.mem_cons.mp member with rfl | later
    · exact low
    · exact bound q later
  · rcases found with same | ⟨q, member, same⟩
    · exact ⟨first, by simp, same⟩
    · exact ⟨q, List.mem_cons_of_mem _ member, same⟩

theorem lowestLeast (first : Piece) (more : List Piece) :
    (∀ p ∈ first :: more, lowest first more ≤ p.start) ∧
      ∃ p ∈ first :: more, lowest first more = p.start :=
  foldExtreme (· ≤ ·) min Nat.le_trans Nat.le_refl Nat.min_le_left Nat.min_le_right
    (fun a b => by omega) Piece.start first more

theorem highestGreatest (first : Piece) (more : List Piece) :
    (∀ p ∈ first :: more, p.finish ≤ highest first more) ∧
      ∃ p ∈ first :: more, highest first more = p.finish :=
  foldExtreme (· ≥ ·) max (fun early late => Nat.le_trans late early) Nat.le_refl
    Nat.le_max_left Nat.le_max_right (fun a b => by omega) Piece.finish first more

/- What an image made of pieces holds: its place, and at each address the last byte written. -/
structure Packs (pieces : List Piece) (low high : Nat) (image : Image) : Prop where
  base : image.base.toNat = low / 2 * 2
  finish : image.finish = (high + 1) / 2 * 2
  byte : ∀ address, image.base.toNat ≤ address → address < image.finish →
    image.byteAt? address = some (lastByte pieces address)

theorem ofPiecesPacks (first : Piece) (more : List Piece) (entry : Option UInt32)
    (small : lowest first more < 65536 * 65536) :
    Packs (first :: more) (lowest first more) (highest first more) (ofPieces first more entry) := by
  obtain ⟨above, -⟩ := lowestLeast first more
  obtain ⟨below, -⟩ := highestGreatest first more
  have ordered : lowest first more ≤ highest first more := by
    have nonneg : first.start ≤ first.finish := Nat.le_add_right _ _
    have early := above first (by simp)
    have late := below first (by simp)
    omega
  generalize low_eq : lowest first more = low at *
  generalize high_eq : highest first more = high at *
  let base := low / 2 * 2
  let size := (high - base + 1) / 2 * 2
  let bytes := memory base size (first :: more)
  have fits : (UInt32.ofNat base).toNat = base := by
    rw [UInt32.toNat_ofNat']
    omega
  have aligned : (UInt32.ofNat base - UInt32.ofNat base % 2).toNat = base := by
    have parity : (UInt32.ofNat base % 2).toNat = 0 := by
      rw [UInt32.toNat_mod, fits]
      show low / 2 * 2 % 2 = 0
      omega
    rw [UInt32.toNat_sub_of_le, parity, fits, Nat.sub_zero]
    rw [UInt32.le_iff_toNat_le, parity]
    exact Nat.zero_le _
  have made : ofPieces first more entry =
      ⟨UInt32.ofNat base - UInt32.ofNat base % 2, wordsOf bytes, entry⟩ := by
    simp only [ofPieces, low_eq, high_eq]
    rfl
  have whole : bytes.size = size := memorySize _ _ _
  rw [made]
  have finish : finish ⟨UInt32.ofNat base - UInt32.ofNat base % 2, wordsOf bytes, entry⟩ =
      base + size := by
    show (UInt32.ofNat base - UInt32.ofNat base % 2).toNat + 2 * (wordsOf bytes).size = _
    rw [aligned, wordsSize, whole]
    omega
  refine ⟨aligned, by rw [finish]; omega, fun address after before => ?_⟩
  rw [finish] at before
  obtain ⟨k, rfl⟩ := Nat.exists_eq_add_of_le after
  dsimp only at before
  have inside : k < size := by omega
  have packed := packedAt (UInt32.ofNat base - UInt32.ofNat base % 2) bytes entry (by omega)
    (by omega) (by omega : k < bytes.size)
  have written : bytes[k]? = some (lastByte (first :: more) (base + k)) :=
    memoryAt (fun p member => Nat.le_trans (by omega) (above p member)) inside
  rw [packed, written]
  exact congrArg (fun place => some (lastByte (first :: more) (place + k))) aligned.symm

end VirtualBoard.Image
