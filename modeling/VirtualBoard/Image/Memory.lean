import VirtualBoard.Image.Basic

/-! Bytes written to memory piece by piece.

A later piece overwrites an earlier one, and what no piece covers is zero. The
words of a memory take two bytes each, the low one first. -/
namespace VirtualBoard.Image

structure Piece where
  start : Nat
  data : List UInt8
  deriving DecidableEq, Repr

namespace Piece

def finish (p : Piece) : Nat := p.start + p.data.length

def byteAt? (p : Piece) (address : Nat) : Option UInt8 :=
  if p.start ≤ address then p.data[address - p.start]? else none

end Piece

def lastByte (pieces : List Piece) (address : Nat) : UInt8 :=
  (pieces.reverse.findSome? (·.byteAt? address)).getD 0

def putBytes (memory : Array UInt8) (place : Nat) : List UInt8 → Array UInt8
  | [] => memory
  | b :: rest => putBytes (memory.setIfInBounds place b) (place + 1) rest

/-- A memory of `size` bytes that starts at `base` and holds the pieces in their order. -/
def memory (base size : Nat) (pieces : List Piece) : Array UInt8 :=
  pieces.foldl (fun done p => putBytes done (p.start - base) p.data) (Array.replicate size 0)

def wordsOf (bytes : Array UInt8) : Array UInt16 :=
  Array.ofFn fun place : Fin (bytes.size / 2) =>
    (bytes[2 * place.val]?.getD 0).toUInt16 + 256 * (bytes[2 * place.val + 1]?.getD 0).toUInt16

def lowest (first : Piece) (more : List Piece) : Nat :=
  more.foldl (fun low p => min low p.start) first.start

def highest (first : Piece) (more : List Piece) : Nat :=
  more.foldl (fun high p => max high p.finish) first.finish

/-- The smallest image that holds all pieces: it starts at the even address at or below the lowest
byte, and a missing last byte is zero. -/
def ofPieces (first : Piece) (more : List Piece) (entry : Option UInt32) : Image :=
  let base := lowest first more / 2 * 2
  let size := (highest first more - base + 1) / 2 * 2
  ofWords (UInt32.ofNat base) (wordsOf (memory base size (first :: more))) entry

end VirtualBoard.Image
