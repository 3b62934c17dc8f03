import VirtualBoard.Proofs.Image.Grammar

/-! An image that was read, in program memory.

Data is held against the limit as it stands in the records, an image has whole
words: it may end past its last byte. Under an even limit this makes no
difference, and the memory that the limit allows has a place for every word. -/
namespace VirtualBoard.Image
open Text

namespace Progress

/- What every sound row keeps, a line keeps, and so does a whole text. -/
section
variable {limit : Nat} {holds : Progress → Prop}
  (keeps : ∀ {p q : Progress} {row : Row}, row.Sound → p.takeRecord limit row.record = .ok q →
    holds p → holds q)
include keeps

theorem takeLineKeep {line : Nat} {raw : List Char} {p q : Progress}
    (taken : p.takeLine limit line raw = .ok q) (before : holds p) : holds q := by
  by_cases blank : trim raw = []
  · rw [takeLineBlank blank] at taken
    cases taken
    exact before
  · obtain ⟨row, -, -, sound, one⟩ := (takeLineRow blank).mp taken
    exact keeps sound one before

theorem takeLinesKeep {line : Nat} {raws : List (List Char)} {p q : Progress}
    (taken : p.takeLines limit line raws = .ok q) (before : holds p) : holds q := by
  induction raws generalizing line p with
  | nil =>
    cases taken
    exact before
  | cons raw rest ih =>
    simp only [takeLines] at taken
    cases first : p.takeLine limit line raw with
    | error problem =>
      rw [first] at taken
      cases taken
    | ok next =>
      rw [first] at taken
      exact ih taken (takeLineKeep keeps first before)

end

def Under (limit : Nat) (p : Progress) : Prop := ∀ piece ∈ p.pieces, piece.finish ≤ limit

theorem takeRecordUnder {limit : Nat} {p q : Progress} {r : Record}
    (taken : p.takeRecord limit r = .ok q) (under : p.Under limit) : q.Under limit := by
  intro piece member
  rw [(takeRecordTakes taken).pieces] at member
  rcases List.mem_append.mp member with new | old
  · have made := Option.mem_toList.mp new
    unfold Record.piece? at made
    split at made
    · rename_i writes
      cases made
      exact (takeData writes.1).mp ⟨q, taken⟩ writes.2
    · cases made
  · exact under piece old

end Progress

theorem finishUnder {limit : Nat} {rs : List Record} {p : Progress} {image : Image}
    (after : p.After rs) (under : p.Under limit) (done : p.finish = .ok image) :
    image.base.toNat % 2 = 0 ∧ image.finish ≤ (limit + 1) / 2 * 2 := by
  unfold Progress.finish at done
  split at done
  · cases pieces : p.pieces.reverse with
    | nil =>
      rw [pieces] at done
      cases done
    | cons first more =>
      rw [pieces] at done
      cases done
      obtain ⟨small, -⟩ := after.spans pieces
      have packs := ofPiecesPacks first more p.entry small
      obtain ⟨-, last, mine, highest⟩ := highestGreatest first more
      have within : last.finish ≤ limit := by
        rw [← pieces, List.mem_reverse] at mine
        exact under last mine
      refine ⟨by rw [packs.base]; omega, ?_⟩
      rw [packs.finish, highest]
      omega
  · cases done

theorem readUnder {limit : Nat} {text : String} {image : Image}
    (ok : read limit text = .ok image) :
    image.base.toNat % 2 = 0 ∧ image.finish ≤ (limit + 1) / 2 * 2 := by
  unfold read at ok
  cases taken : Progress.start.takeLines limit 1 (Text.lines text.toList) with
  | error problem =>
    rw [taken] at ok
    cases ok
  | ok p =>
    rw [taken] at ok
    have none : Progress.start.Under limit := fun piece member => by cases member
    obtain ⟨rs, -, after⟩ := takeLinesAfter afterStart taken
    have under := Progress.takeLinesKeep (fun _ => Progress.takeRecordUnder) taken none
    exact finishUnder after under ok

theorem wordCovered (image : Image) (address : UInt32) :
    image.wordAt? address = none ↔
      address.toNat < image.base.toNat ∨ image.finish ≤ address.toNat := by
  simp only [wordAt?, finish, byteLength, UInt32.le_iff_toNat_le]
  split
  · rw [Array.getElem?_eq_none_iff]
    omega
  · exact iff_of_true rfl (by omega)

theorem flashFits {image : Image} {size : Nat}
    (fits : image.base.toNat / 2 + image.words.size ≤ size) :
    ∃ memory, image.flash? size = some memory := ⟨_, if_pos fits⟩

theorem flashAt {image : Image} {size : Nat} {memory : Array UInt16}
    (whole : image.base.toNat % 2 = 0) (laid : image.flash? size = some memory)
    {address : UInt32} (inside : address.toNat / 2 < size) :
    memory[address.toNat / 2]? = some ((image.wordAt? address).getD 0) := by
  -- a base in the middle of a word would put addresses of one word on both sides of it
  have same : image.base.toNat / 2 ≤ address.toNat / 2 ↔ image.base.toNat ≤ address.toNat := by
    omega
  have place : address.toNat / 2 - image.base.toNat / 2 =
      (address.toNat - image.base.toNat) / 2 := by omega
  rw [flashCell laid inside]
  simp only [wordAt?, UInt32.le_iff_toNat_le, same, place]
  split <;> rfl

/- A memory of the size of a limit, with an image in its place and zeros elsewhere. -/
structure Laid (image : Image) (limit : Nat) (memory : Array UInt16) : Prop where
  size : memory.size = limit / 2
  word : ∀ address : UInt32, address.toNat < limit →
    memory[address.toNat / 2]? = some ((image.wordAt? address).getD 0)
  blank : ∀ address : UInt32, image.wordAt? address = none ↔
    address.toNat < image.base.toNat ∨ image.finish ≤ address.toNat

theorem readLaid {limit : Nat} (even : limit % 2 = 0) {text : String} {image : Image}
    (ok : read limit text = .ok image) :
    ∃ memory, image.flash? (limit / 2) = some memory ∧ Laid image limit memory := by
  obtain ⟨whole, under⟩ := readUnder ok
  have fits : image.base.toNat / 2 + image.words.size ≤ limit / 2 := by
    unfold finish byteLength at under
    omega
  obtain ⟨memory, laid⟩ := flashFits fits
  refine ⟨memory, laid, flashSize laid, fun address inside => ?_, wordCovered image⟩
  exact flashAt whole laid (by omega)

end VirtualBoard.Image
