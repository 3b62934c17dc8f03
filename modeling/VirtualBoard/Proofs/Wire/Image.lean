import VirtualBoard.Wire.Board

/-! An image read from a form, by its words and in a memory.

The base of an image is even when the image is made of words, and is as it was
written when the image is read from a form. Over an even base a word stands in
the memory where its addresses say. Over an odd base it stands one place before
that of its even address. That the image fits the memory is taken for granted. -/
namespace VirtualBoard
open Wire

namespace Image

variable {i : Image} {size : Nat} {memory : Array UInt16} {address : UInt32} {word : UInt16}

theorem flashPlace (laid : i.flash? size = some memory) (there : i.wordAt? address = some word) :
    (address.toNat - i.base.toNat % 2) / 2 < size ∧
      memory[(address.toNat - i.base.toNat % 2) / 2]? = some word := by
  have room := flashRoom laid
  simp only [wordAt?, UInt32.le_iff_toNat_le] at there
  split at there
  · rename_i after
    obtain ⟨inside, -⟩ := Array.getElem?_eq_some_iff.mp there
    have place : (address.toNat - i.base.toNat % 2) / 2 =
        i.base.toNat / 2 + (address.toNat - i.base.toNat) / 2 := by omega
    refine ⟨by omega, ?_⟩
    rw [place, flashCell laid (by omega), if_pos (Nat.le_add_right _ _),
      Nat.add_sub_cancel_left, there]
    rfl
  · cases there

end Image

/- An image keeps the base of its form. So the word at an address is in the memory at half of the
address if that base is even, and at half of the address before if it is odd. -/
theorem formViews {w : Wire} {i : Image} (read : ofWire? w = some i) :
    w.required UInt32 "base_address" = some i.base ∧
      ∀ {size memory}, i.flash? size = some memory → ∀ {address word},
        i.wordAt? address = some word →
        (i.base.toNat % 2 = 0 →
          address.toNat / 2 < size ∧ memory[address.toNat / 2]? = some word) ∧
        (i.base.toNat % 2 = 1 →
          (address.toNat - 1) / 2 < size ∧ memory[(address.toNat - 1) / 2]? = some word) := by
  refine ⟨?_, fun laid address word there => ?_⟩
  · simp only [ofWire?, Option.bind_eq_bind, Option.bind_eq_some_iff] at read
    obtain ⟨base, given, words, _, entry, _, made⟩ := read
    cases made
    exact given
  · have view := Image.flashPlace laid there
    refine ⟨fun even => ?_, fun odd => ?_⟩
    · rwa [even, Nat.sub_zero] at view
    · rwa [odd] at view

def oddForm : Wire :=
  record [("base_address", int 1), ("words", list [int 5, int 7]), ("entry_point", null)]

theorem oddFormRead : ofWire? oddForm = some (Image.mk 1 #[5, 7] none) := by decide

theorem oddFormViews : ofWire? oddForm = some (Image.mk 1 #[5, 7] none) ∧
    oddForm.required UInt32 "base_address" = some 1 ∧
    (Image.mk 1 #[5, 7] none).flash? 2 = some #[5, 7] ∧
    (Image.mk 1 #[5, 7] none).wordAt? 2 = some 5 ∧
    (#[5, 7] : Array UInt16)[(2 - 1) / 2]? = some 5 := by
  have laid : (Image.mk 1 #[5, 7] none).flash? 2 = some #[5, 7] := by decide
  have there : (Image.mk 1 #[5, 7] none).wordAt? 2 = some 5 := by decide
  obtain ⟨base, views⟩ := formViews oddFormRead
  exact ⟨oddFormRead, base, laid, there, ((views laid there).2 rfl).2⟩

/- In memory the address two has the second word, by the image it has the first. -/
theorem oddBaseApart : ¬ ∀ (w : Wire) (i : Image), ofWire? w = some i →
    ∀ (size : Nat) (memory : Array UInt16), i.flash? size = some memory →
    ∀ (address : UInt32) (word : UInt16), i.wordAt? address = some word →
      address.toNat / 2 < size ∧ memory[address.toNat / 2]? = some word := by
  intro all
  obtain ⟨-, same⟩ := all oddForm _ oddFormRead 2 #[5, 7] (by decide) 2 5 (by decide)
  have second : (#[5, 7] : Array UInt16)[(2 : UInt32).toNat / 2]? = some 7 := by decide
  cases second.symm.trans same

end VirtualBoard
