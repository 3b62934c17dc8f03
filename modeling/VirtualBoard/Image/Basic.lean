/-! Program images: instruction words at a place in program memory.

Addresses count bytes and a word has two of them, the low one first. An image
can be asked for the word at an address, and laid into a whole memory. -/
namespace VirtualBoard

/-- Instruction words from a byte address on, and the address where execution starts if one is
given. -/
structure Image where
  base : UInt32
  words : Array UInt16
  entry : Option UInt32
  deriving DecidableEq, Repr

namespace Image

def defaultLimit : Nat := 32 * 1024

/-- An image of words; its base is the even address at or just below the given one. -/
def ofWords (base : UInt32) (words : Array UInt16) (entry : Option UInt32) : Image :=
  ⟨base - base % 2, words, entry⟩

def byteLength (i : Image) : Nat := 2 * i.words.size

def finish (i : Image) : Nat := i.base.toNat + i.byteLength

def wordAt? (i : Image) (address : UInt32) : Option UInt16 :=
  if i.base ≤ address then i.words[(address.toNat - i.base.toNat) / 2]? else none

/-- A memory of `size` words with the image in its place and zeros elsewhere, if the image fits. -/
def flash? (i : Image) (size : Nat) : Option (Array UInt16) :=
  let start := i.base.toNat / 2
  if start + i.words.size ≤ size then
    some (Array.ofFn fun place : Fin size =>
      if start ≤ place.val then i.words[place.val - start]?.getD 0 else 0)
  else none

theorem flashSize {i : Image} {size : Nat} {memory} (fits : i.flash? size = some memory) :
    memory.size = size := by
  simp only [flash?] at fits
  split at fits
  · cases Option.some.inj fits; simp
  · cases fits

theorem flashRoom {i : Image} {size : Nat} {memory} (fits : i.flash? size = some memory) :
    i.base.toNat / 2 + i.words.size ≤ size := by
  simp only [flash?] at fits
  split at fits
  · assumption
  · cases fits

theorem flashCell {i : Image} {size : Nat} {memory} (fits : i.flash? size = some memory)
    {place : Nat} (inside : place < size) : memory[place]? = some
      (if i.base.toNat / 2 ≤ place then i.words[place - i.base.toNat / 2]?.getD 0 else 0) := by
  simp only [flash?, if_pos (flashRoom fits)] at fits
  cases Option.some.inj fits
  rw [Array.getElem?_ofFn, dif_pos inside]

end Image
end VirtualBoard
