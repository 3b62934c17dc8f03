import VirtualBoard.Proofs.Image.Spelling

/-! An image is the memory its records describe.

Records are taken as they stand in the text, in order: a data record gives bytes
to addresses from its offset on, over the base that the last address record
before it has set. Nothing is said here of texts that are refused. -/
namespace VirtualBoard.Image
open Text

namespace Record

def base? (r : Record) : Option Nat :=
  match r.kind, r.data with
  | .segmentBase, [high, low] => some (16 * (pair high low).toNat)
  | .linearBase, [high, low] => some (65536 * (pair high low).toNat)
  | _, _ => none

def start? (r : Record) : Option Nat :=
  match r.kind, r.data with
  | .segmentStart, [a, b, c, d] => some (16 * (pair a b).toNat + (pair c d).toNat)
  | .linearStart, [a, b, c, d] => some (65536 * (pair a b).toNat + (pair c d).toNat)
  | _, _ => none

end Record

def baseAfter (rs : List Record) : Nat := (rs.filterMap Record.base?).getLast?.getD 0

def Gives (rs : List Record) (i address : Nat) (b : UInt8) : Prop :=
  ∃ r k, rs[i]? = some r ∧ r.kind = .data ∧ r.data[k]? = some b ∧
    address = baseAfter (rs.take i) + r.offset.toNat + k

def Latest (rs : List Record) (address : Nat) : Option UInt8 → Prop
  | some b => ∃ i, Gives rs i address b ∧ ∀ j c, Gives rs j address c → j ≤ i
  | none => ∀ i b, ¬ Gives rs i address b

structure Describes (rs : List Record) (image : Image) : Prop where
  base : ∃ low, (∃ i b, Gives rs i low b) ∧ (∀ i a b, Gives rs i a b → low ≤ a) ∧
    image.base.toNat = low / 2 * 2
  finish : ∃ high, (∃ i b, Gives rs i high b) ∧ (∀ i a b, Gives rs i a b → a ≤ high) ∧
    image.finish = (high + 1 + 1) / 2 * 2
  byte : ∀ a, image.base.toNat ≤ a → a < image.finish →
    ∃ given, Latest rs a given ∧ image.byteAt? a = some (given.getD 0)
  entry : image.entry.map UInt32.toNat = (rs.filterMap Record.start?).getLast?

def recordLines (text : String) : List (List Char) :=
  ((lines text.toList).map trim).filter (· ≠ [])

/- A text spells records, line by line and up to the case of letters. -/
def Spells (text : String) (rs : List Record) : Prop :=
  (recordLines text).map (·.map Char.toUpper) = rs.map Record.toLine

def Record.piece? (base : Nat) (r : Record) : Option Piece :=
  if r.kind = .data ∧ r.data ≠ [] then some ⟨base + r.offset.toNat, r.data⟩ else none

theorem pieceByte {base : Nat} {r : Record} {address : Nat} {b : UInt8} :
    (r.piece? base).bind (·.byteAt? address) = some b ↔
      r.kind = .data ∧ ∃ k, r.data[k]? = some b ∧ address = base + r.offset.toNat + k := by
  constructor
  · intro given
    obtain ⟨piece, made, found⟩ := Option.bind_eq_some_iff.mp given
    simp only [Record.piece?] at made
    split at made
    · rename_i writes
      cases made
      simp only [Piece.byteAt?] at found
      split at found
      · exact ⟨writes.1, _, found, by omega⟩
      · cases found
    · cases made
  · rintro ⟨kind, k, found, rfl⟩
    have some : r.data ≠ [] := by
      intro none
      rw [none] at found
      cases found
    have place : base + r.offset.toNat + k - (base + r.offset.toNat) = k := by omega
    simp [Record.piece?, kind, some, Piece.byteAt?, place, found]

theorem baseAfterSnoc (rs : List Record) (r : Record) :
    baseAfter (rs ++ [r]) = r.base?.getD (baseAfter rs) := by
  rw [baseAfter, List.filterMap_append]
  cases set : r.base? with
  | none => simp [set, baseAfter]
  | some base => simp [set]

theorem givesSnoc {rs : List Record} {r : Record} {i address : Nat} {b : UInt8} :
    Gives (rs ++ [r]) i address b ↔ Gives rs i address b ∨
      i = rs.length ∧ (r.piece? (baseAfter rs)).bind (·.byteAt? address) = some b := by
  rw [pieceByte]
  constructor
  · rintro ⟨q, k, found, kind, byte, place⟩
    rcases Nat.lt_trichotomy i rs.length with early | rfl | late
    · rw [List.getElem?_append_left early] at found
      rw [List.take_append_of_le_length (Nat.le_of_lt early)] at place
      exact .inl ⟨q, k, found, kind, byte, place⟩
    · rw [List.getElem?_concat_length] at found
      rw [List.take_left] at place
      cases found
      exact .inr ⟨rfl, kind, k, byte, place⟩
    · rw [List.getElem?_eq_none (by rw [List.length_append]; exact late)] at found
      cases found
  · rintro (⟨q, k, found, kind, byte, place⟩ | ⟨rfl, kind, k, byte, place⟩)
    · obtain ⟨early, -⟩ := List.getElem?_eq_some_iff.mp found
      refine ⟨q, k, ?_, kind, byte, ?_⟩
      · rw [List.getElem?_append_left early]
        exact found
      · rw [List.take_append_of_le_length (Nat.le_of_lt early)]
        exact place
    · exact ⟨r, k, List.getElem?_concat_length, kind, byte, by rw [List.take_left]; exact place⟩

theorem givesInside {rs : List Record} {i address : Nat} {b : UInt8}
    (gives : Gives rs i address b) : i < rs.length := by
  obtain ⟨r, k, found, -⟩ := gives
  obtain ⟨inside, -⟩ := List.getElem?_eq_some_iff.mp found
  exact inside

theorem latestSnoc {rs : List Record} {r : Record} {address : Nat} {given : Option UInt8}
    (latest : Latest rs address given) :
    Latest (rs ++ [r]) address
      (((r.piece? (baseAfter rs)).bind (·.byteAt? address)).or given) := by
  cases found : (r.piece? (baseAfter rs)).bind (·.byteAt? address) with
  | some b =>
    refine ⟨rs.length, givesSnoc.mpr (.inr ⟨rfl, found⟩), fun j c other => ?_⟩
    have inside := givesInside other
    rw [List.length_append] at inside
    exact Nat.le_of_lt_succ inside
  | none =>
    have same : ∀ i b, Gives (rs ++ [r]) i address b ↔ Gives rs i address b := by
      intro i b
      rw [givesSnoc, found]
      simp
    cases given with
    | some b =>
      obtain ⟨i, here, last⟩ := latest
      exact ⟨i, (same i b).mpr here, fun j c other => last j c ((same j c).mp other)⟩
    | none => exact fun i b other => latest i b ((same i b).mp other)

/- What a reading amounts to after some records. -/
structure Progress.After (rs : List Record) (p : Progress) : Prop where
  upper : p.upper = baseAfter rs
  bound : p.upper ≤ 65536 * 65535
  entry : p.entry.map UInt32.toNat = (rs.filterMap Record.start?).getLast?
  latest : ∀ a, Latest rs a (p.pieces.findSome? (·.byteAt? a))
  solid : ∀ piece ∈ p.pieces, piece.data ≠ [] ∧ piece.start < 65536 * 65536

structure Progress.Takes (r : Record) (p q : Progress) : Prop where
  upper : q.upper = r.base?.getD p.upper
  entry : q.entry.map UInt32.toNat = r.start?.or (p.entry.map UInt32.toNat)
  pieces : q.pieces = (r.piece? p.upper).toList ++ p.pieces

theorem baseBound {r : Record} {base : Nat} (set : r.base? = some base) : base ≤ 65536 * 65535 := by
  unfold Record.base? at set
  split at set
  · rename_i high low _ _
    have small := (Record.pair high low).toNat_lt
    cases set
    omega
  · rename_i high low _ _
    have small := (Record.pair high low).toNat_lt
    cases set
    omega
  · cases set

theorem startWord (factor : UInt32) (high low : UInt16)
    (fits : factor.toNat * high.toNat + low.toNat < 65536 * 65536) :
    (factor * high.toUInt32 + low.toUInt32).toNat = factor.toNat * high.toNat + low.toNat := by
  rw [UInt32.toNat_add, UInt32.toNat_mul, UInt16.toNat_toUInt32, UInt16.toNat_toUInt32]
  omega

theorem takeRecordTakes {limit : Nat} {p q : Progress} {r : Record}
    (taken : p.takeRecord limit r = .ok q) : Progress.Takes r p q := by
  unfold Progress.takeRecord at taken
  split at taken
  · rename_i kind data
    cases taken
    refine ⟨by simp [Record.base?, kind], by simp [Record.start?, kind], ?_⟩
    simp [Record.piece?, data]
  · rename_i kind some
    have filled : r.data ≠ [] := some
    dsimp only at taken
    split at taken
    · cases taken
    · cases taken
      refine ⟨by simp [Record.base?, kind], by simp [Record.start?, kind], ?_⟩
      simp [Record.piece?, kind, filled]
  · rename_i kind
    cases taken
    refine ⟨by simp [Record.base?, kind], by simp [Record.start?, kind], ?_⟩
    simp [Record.piece?, kind]
  · rename_i high low kind data
    cases taken
    refine ⟨by simp [Record.base?, kind, data], by simp [Record.start?, kind], ?_⟩
    simp [Record.piece?, kind]
  · rename_i high low kind data
    cases taken
    refine ⟨by simp [Record.base?, kind, data], by simp [Record.start?, kind], ?_⟩
    simp [Record.piece?, kind]
  · rename_i a b c d kind data
    have one := (Record.pair a b).toNat_lt
    have two := (Record.pair c d).toNat_lt
    have start := startWord 16 (Record.pair a b) (Record.pair c d)
      (by show 16 * _ + _ < _; omega)
    cases taken
    refine ⟨by simp [Record.base?, kind], ?_, by simp [Record.piece?, kind]⟩
    simp [Record.start?, kind, data, start]
  · rename_i a b c d kind data
    have one := (Record.pair a b).toNat_lt
    have two := (Record.pair c d).toNat_lt
    have start := startWord 65536 (Record.pair a b) (Record.pair c d)
      (by show 65536 * _ + _ < _; omega)
    cases taken
    refine ⟨by simp [Record.base?, kind], ?_, by simp [Record.piece?, kind]⟩
    simp [Record.start?, kind, data, start]
  · rename_i other _ _ segment linear segmentStart linearStart
    have base : r.base? = none := by
      unfold Record.base?
      split
      · exact (segment _ _ (by assumption) (by assumption)).elim
      · exact (linear _ _ (by assumption) (by assumption)).elim
      · rfl
    have start : r.start? = none := by
      unfold Record.start?
      split
      · exact (segmentStart _ _ _ _ (by assumption) (by assumption)).elim
      · exact (linearStart _ _ _ _ (by assumption) (by assumption)).elim
      · rfl
    have piece : r.piece? p.upper = none := if_neg fun writes => other writes.1
    cases taken
    exact ⟨by rw [base]; rfl, by rw [start]; rfl, by rw [piece]; rfl⟩

theorem afterRecord {rs : List Record} {r : Record} {p q : Progress} (after : p.After rs)
    (takes : Progress.Takes r p q) : q.After (rs ++ [r]) where
  upper := by rw [takes.upper, baseAfterSnoc, after.upper]
  bound := by
    rw [takes.upper]
    cases set : r.base? with
    | none => exact after.bound
    | some base => exact baseBound set
  entry := by
    rw [takes.entry, after.entry, List.filterMap_append]
    cases given : r.start? with
    | none => simp [given]
    | some start => simp [given]
  latest a := by
    have latest := latestSnoc (r := r) (after.latest a)
    rw [takes.pieces, List.findSome?_append, after.upper]
    cases made : r.piece? (baseAfter rs) with
    | none =>
      rw [made] at latest
      exact latest
    | some piece =>
      rw [made] at latest
      simpa using latest
  solid piece member := by
    rw [takes.pieces] at member
    rcases List.mem_append.mp member with new | old
    · have bound := after.bound
      have small := r.offset.toNat_lt
      have made := Option.mem_toList.mp new
      simp only [Record.piece?] at made
      split at made
      · rename_i writes
        cases made
        refine ⟨writes.2, ?_⟩
        show p.upper + r.offset.toNat < 65536 * 65536
        omega
      · cases made
    · exact after.solid piece old

theorem afterStart : Progress.start.After [] where
  upper := rfl
  bound := Nat.zero_le _
  entry := rfl
  latest a := by
    intro i b gives
    obtain ⟨r, k, found, -⟩ := gives
    cases found
  solid := by simp [Progress.start]

theorem takeLinesAfter {limit : Nat} {raws : List (List Char)} {line : Nat} {p q : Progress}
    {rs : List Record} (after : p.After rs) (taken : p.takeLines limit line raws = .ok q) :
    ∃ more, ((raws.map trim).filter (· ≠ [])).map (·.map Char.toUpper) = more.map Record.toLine ∧
      q.After (rs ++ more) := by
  induction raws generalizing line p rs with
  | nil =>
    cases taken
    exact ⟨[], rfl, by rw [List.append_nil]; exact after⟩
  | cons raw rest ih =>
    simp only [Progress.takeLines] at taken
    cases first : p.takeLine limit line raw with
    | error problem =>
      rw [first] at taken
      cases taken
    | ok next =>
      rw [first] at taken
      simp only [Progress.takeLine] at first
      split at first
      · rename_i blank
        cases first
        obtain ⟨more, spelled, last⟩ := ih after taken
        exact ⟨more, by simpa [blank] using spelled, last⟩
      · rename_i solid
        split at first
        · cases first
        · split at first
          · cases first
          · rename_i r read
            obtain ⟨more, spelled, last⟩ := ih (afterRecord after (takeRecordTakes first)) taken
            refine ⟨r :: more, ?_, by rw [List.append_cons]; exact last⟩
            rw [List.map_cons, List.filter_cons_of_pos (by simpa using solid), List.map_cons,
              spelled, Record.ofLineSpell read]
            rfl

theorem byteCovered {piece : Piece} {address : Nat} :
    (∃ b, piece.byteAt? address = some b) ↔ piece.start ≤ address ∧ address < piece.finish := by
  unfold Piece.byteAt? Piece.finish
  constructor
  · rintro ⟨b, found⟩
    split at found
    · obtain ⟨inside, -⟩ := List.getElem?_eq_some_iff.mp found
      omega
    · cases found
  · rintro ⟨low, high⟩
    have inside : address - piece.start < piece.data.length := by omega
    exact ⟨_, by rw [if_pos low]; exact List.getElem?_eq_getElem inside⟩

theorem Progress.After.covered {rs : List Record} {p : Progress} (after : p.After rs)
    (address : Nat) : (∃ i b, Gives rs i address b) ↔
      ∃ piece ∈ p.pieces, piece.start ≤ address ∧ address < piece.finish := by
  have latest := after.latest address
  constructor
  · rintro ⟨i, b, gives⟩
    cases found : p.pieces.findSome? (·.byteAt? address) with
    | none =>
      rw [found] at latest
      exact (latest i b gives).elim
    | some c =>
      obtain ⟨piece, member, byte⟩ := List.exists_of_findSome?_eq_some found
      exact ⟨piece, member, byteCovered.mp ⟨c, byte⟩⟩
  · rintro ⟨piece, member, covers⟩
    obtain ⟨b, byte⟩ := byteCovered.mpr covers
    cases found : p.pieces.findSome? (·.byteAt? address) with
    | none =>
      have missed := List.findSome?_eq_none_iff.mp found piece member
      rw [byte] at missed
      cases missed
    | some c =>
      rw [found] at latest
      obtain ⟨i, gives, -⟩ := latest
      exact ⟨i, c, gives⟩

theorem Progress.After.spans {rs : List Record} {p : Progress} (after : p.After rs)
    {first : Piece} {more : List Piece} (pieces : p.pieces.reverse = first :: more) :
    lowest first more < 65536 * 65536 ∧ (∃ i b, Gives rs i (lowest first more) b) ∧
    (∃ high, highest first more = high + 1 ∧ ∃ i b, Gives rs i high b) ∧
    ∀ i a b, Gives rs i a b → lowest first more ≤ a ∧ a < highest first more := by
  have member : ∀ piece, piece ∈ first :: more ↔ piece ∈ p.pieces := by
    intro piece
    rw [← pieces, List.mem_reverse]
  have covered := after.covered
  simp only [← member] at covered
  have solid : ∀ piece ∈ first :: more,
      piece.start < piece.finish ∧ piece.start < 65536 * 65536 := by
    intro piece mine
    obtain ⟨filled, small⟩ := after.solid piece ((member piece).mp mine)
    exact ⟨Nat.lt_add_of_pos_right (List.length_pos_iff.mpr filled), small⟩
  obtain ⟨above, low, lowMine, lowIs⟩ := lowestLeast first more
  obtain ⟨below, high, highMine, highIs⟩ := highestGreatest first more
  have lowSolid := solid low lowMine
  have highSolid := solid high highMine
  refine ⟨by omega, ?_, ⟨highest first more - 1, by omega, ?_⟩, fun i a b gives => ?_⟩
  · exact (covered _).mpr ⟨low, lowMine, by omega, by omega⟩
  · exact (covered _).mpr ⟨high, highMine, by omega, by omega⟩
  · obtain ⟨piece, mine, early, late⟩ := (covered a).mp ⟨i, b, gives⟩
    exact ⟨Nat.le_trans (above piece mine) early, Nat.lt_of_lt_of_le late (below piece mine)⟩

theorem finishDescribes {rs : List Record} {p : Progress} {image : Image} (after : p.After rs)
    (done : p.finish = .ok image) : Describes rs image := by
  unfold Progress.finish at done
  split at done
  · cases pieces : p.pieces.reverse with
    | nil =>
      rw [pieces] at done
      cases done
    | cons first more =>
      rw [pieces] at done
      cases done
      obtain ⟨small, lowGiven, ⟨high, highIs, highGiven⟩, inside⟩ := after.spans pieces
      have packs := ofPiecesPacks first more p.entry small
      refine ⟨⟨_, lowGiven, fun i a b gives => (inside i a b gives).1, packs.base⟩,
        ⟨high, highGiven, fun i a b gives => ?_, ?_⟩, fun a low below => ?_, after.entry⟩
      · have within := (inside i a b gives).2
        omega
      · rw [packs.finish, highIs]
      · refine ⟨_, after.latest a, ?_⟩
        rw [packs.byte a low below, lastByte, ← pieces, List.reverse_reverse]
  · cases done

theorem spellsOnce {text : String} {rs qs : List Record} (these : Spells text rs)
    (those : Spells text qs) : rs = qs :=
  (List.map_inj_right fun _ _ => Record.toLineInjective).mp (these.symm.trans those)

/- A text that is read spells records, and its image is the memory that they describe. -/
theorem readDescribes {limit : Nat} {text : String} {image : Image}
    (ok : read limit text = .ok image) :
    (∃ rs, Spells text rs) ∧ ∀ rs, Spells text rs → Describes rs image := by
  unfold read at ok
  cases taken : Progress.start.takeLines limit 1 (lines text.toList) with
  | error problem =>
    rw [taken] at ok
    cases ok
  | ok p =>
    rw [taken] at ok
    obtain ⟨rs, spelled, after⟩ := takeLinesAfter afterStart taken
    refine ⟨⟨rs, spelled⟩, fun qs these => ?_⟩
    rw [spellsOnce these spelled]
    exact finishDescribes after ok

theorem overlapDescribes :
    let text := ":020003001122C8\n:01000400AA51\n:0400000500000004F3\n:00000001FF\n"
    let image : Image := ⟨2, #[0x1100, 0x00AA], some 4⟩
    read 16 text = .ok image ∧ (∃ rs, Spells text rs) ∧
      ∀ rs, Spells text rs → Describes rs image := by
  intro text image
  have ok : read 16 text = .ok image := by
    have known : (read 16 text).toOption = some image := by decide +kernel
    cases given : read 16 text with
    | error problem =>
      rw [given] at known
      cases known
    | ok other =>
      rw [given] at known
      cases known
      rfl
  exact ⟨ok, readDescribes ok⟩

end VirtualBoard.Image
