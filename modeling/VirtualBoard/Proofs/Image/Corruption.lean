import VirtualBoard.Proofs.Image.Digits
import VirtualBoard.Proofs.Text.Lines

/-! One digit of a record changed.

Where the line stays one line of digits its sum shows the change. White space or
a line end in place of a digit either stands inside a record or leaves an odd
number of digits, and a line end inside a record begins a line without a colon. -/
namespace VirtualBoard.Image
open Text

def Sealed (line : List Char) : Prop :=
  ∃ digits bytes, line = ':' :: digits ∧ Writes digits bytes ∧
    (bytes.map UInt8.toNat).sum % 256 = 0

theorem lineSealed {limit : Nat} {early line later : List Char} {image : Image}
    (ok : read limit (String.ofList (early ++ (line ++ later))) = .ok image)
    (whole : Whole early) (one : '\n' ∉ line) (ends : Ends later) (solid : trim line ≠ []) :
    Sealed (trim line) := by
  obtain ⟨rows, grammar⟩ := (readAccepts limit _).mp ⟨image, ok⟩
  have member : trim line ∈ recordLines (String.ofList (early ++ (line ++ later))) := by
    have some : line ++ later ≠ [] := by
      intro none
      obtain ⟨rfl, -⟩ := List.append_eq_nil_iff.mp none
      exact solid rfl
    obtain ⟨kept, same, cut⟩ := linesCut one ends some
    rw [recordLines, String.toList_ofList, linesWhole whole, cut]
    simp [same, solid]
  obtain ⟨place, inside, same⟩ := List.getElem_of_mem member
  have row := grammar.written.get inside (grammar.written.length_eq ▸ inside)
  obtain ⟨digits, spelled, writes⟩ := row
  refine ⟨digits, _, same ▸ spelled, writes, (grammar.sound _ (List.getElem_mem _)).sum⟩

theorem sealedEven {front : List Char} (line : Sealed (':' :: front)) : front.length % 2 = 0 := by
  obtain ⟨digits, bytes, spelled, writes, -⟩ := line
  cases spelled
  exact writesEven writes

theorem sealedSolid {digits : List Char} (line : Sealed (':' :: digits)) :
    ∀ c ∈ digits, isBlank c = false ∧ c ≠ ':' := by
  obtain ⟨digits, bytes, spelled, writes, -⟩ := line
  cases spelled
  intro c member
  obtain ⟨value, is⟩ := writesDigits writes c member
  exact digitSolid is

theorem sealedOther {d c : Char} {front back : List Char} {v : Nat} (is : digit? d = some v)
    (before : Sealed (':' :: (front ++ d :: back))) (after : Sealed (':' :: (front ++ c :: back))) :
    digit? c = digit? d := by
  obtain ⟨digits, these, spelled, one, sum⟩ := before
  cases spelled
  obtain ⟨digits, those, spelled, two, otherSum⟩ := after
  cases spelled
  obtain ⟨w, other⟩ := writesDigits two c (by simp)
  rw [other, is, writesSum is other one two (sum.trans otherSum.symm)]

theorem changedLine {d c : Char} {head tail front : List Char} {v : Nat} (is : digit? d = some v)
    (opens : trimStart head = ':' :: front) (alone : trim head = ':' :: front)
    (before : Sealed (':' :: (front ++ d :: trimEnd tail)))
    (after : Sealed (trim (head ++ c :: tail))) : digit? c = digit? d := by
  by_cases solid : isBlank c = false ∨ trimEnd tail ≠ []
  · -- the character stands inside the line
    have inside : trim (head ++ c :: tail) = ':' :: (front ++ c :: trimEnd tail) := by
      rcases solid with solid | closes
      · rw [trimAround solid, opens]
        rfl
      · have kept : trimEnd (c :: tail) = c :: trimEnd tail := by
          have parts := trimEndAppend [c] tail
          rwa [if_neg closes] at parts
        rw [trimJoin (by simp [opens]) (by simp [kept]), opens, kept]
        rfl
    rw [inside] at after
    exact sealedOther is before after
  · -- the character is white space at the end of the line
    obtain ⟨blank, none⟩ := not_or.mp solid
    have all : (c :: tail).all isBlank = true := by
      simpa using ⟨by simpa using blank, by simpa using trimEndBlank.mp (of_not_not none)⟩
    rw [trimAfter all, alone] at after
    have one := sealedEven before
    have two := sealedEven after
    rw [of_not_not none] at one
    simp only [List.length_append, List.length_cons, List.length_nil] at one
    omega

theorem sealedApart {d : Char} {front back : List Char}
    (line : Sealed (':' :: (front ++ d :: back))) (first : Sealed (':' :: front)) : back ≠ [] ∧ ¬ Sealed back := by
  have all := sealedEven line
  have part := sealedEven first
  rw [List.length_append, List.length_cons] at all
  constructor
  · rintro rfl
    simp only [List.length_nil] at all
    omega
  · rintro ⟨digits, bytes, spelled, -⟩
    exact (sealedSolid line ':' (by simp [spelled])).2 rfl

theorem digitLine {limit : Nat} {early head tail later : List Char} {d : Char} {v : Nat}
    {image : Image} (is : digit? d = some v)
    (ok : read limit (String.ofList (early ++ (head ++ d :: tail ++ later))) = .ok image)
    (whole : Whole early) (oneHead : '\n' ∉ head) (oneTail : '\n' ∉ tail) (ends : Ends later) :
    ∃ front, trimStart head = ':' :: front ∧ trim head = ':' :: front ∧
      Sealed (':' :: (front ++ d :: trimEnd tail)) := by
  obtain ⟨solid, apart⟩ := digitSolid is
  have one : '\n' ∉ head ++ d :: tail := by
    have other : d ≠ '\n' := by
      rintro rfl
      rw [feedBlank] at solid
      cases solid
    simp [oneHead, oneTail, other.symm]
  have line := lineSealed ok whole one ends (by simp [trimAround solid])
  rw [trimAround solid] at line
  obtain ⟨front, opens⟩ : ∃ front, trimStart head = ':' :: front := by
    obtain ⟨digits, bytes, spelled, -⟩ := line
    cases start : trimStart head with
    | nil =>
      rw [start] at spelled
      exact absurd (List.cons.inj spelled).1 apart
    | cons colon front =>
      rw [start] at spelled
      exact ⟨front, by rw [(List.cons.inj spelled).1]⟩
  rw [opens, List.cons_append] at line
  have inner : ∀ c ∈ ':' :: front, isBlank c = false := by
    rw [List.forall_mem_cons]
    exact ⟨by decide +kernel, fun c member => (sealedSolid line c (by simp [member])).1⟩
  have alone : trim head = ':' :: front := by
    rw [← trimOfStart, opens, trimSolid inner]
  exact ⟨front, opens, alone, line⟩

theorem feedUnread {limit : Nat} {early head tail later front : List Char} {d : Char} {image : Image}
    (alone : trim head = ':' :: front) (line : Sealed (':' :: (front ++ d :: trimEnd tail)))
    (whole : Whole early) (oneHead : '\n' ∉ head) (oneTail : '\n' ∉ tail) (ends : Ends later) :
    read limit (String.ofList (early ++ (head ++ '\n' :: (tail ++ later)))) ≠ .ok image := by
  intro upper
  have first := lineSealed upper whole oneHead (.inr ⟨tail ++ later, rfl⟩) (by simp [alone])
  rw [alone] at first
  obtain ⟨some, unsealed⟩ := sealedApart line first
  have back : trim tail = trimEnd tail := by
    rw [← trimOfEnd]
    exact trimSolid fun c member => (sealedSolid line c (by simp [member])).1
  have lower : read limit (String.ofList (early ++ head ++ ['\n'] ++ (tail ++ later))) =
      .ok image := by
    simpa using upper
  have second := lineSealed lower (wholeEnded _) oneTail ends (by rwa [back])
  rw [back] at second
  exact unsealed second

/- A digit of an image that is replaced, by anything but itself in either letter case, makes the
text no image any more. -/
theorem corruptionCaught {limit : Nat} {before after : List Char} {d c : Char} {image : Image}
    (ok : read limit (String.ofList (before ++ d :: after)) = .ok image)
    (digit : (digit? d).isSome) (other : digit? c ≠ digit? d) :
    ∃ problem, read limit (String.ofList (before ++ c :: after)) = .error problem := by
  obtain ⟨v, is⟩ := Option.isSome_iff_exists.mp digit
  cases changed : read limit (String.ofList (before ++ c :: after)) with
  | error problem => exact ⟨problem, rfl⟩
  | ok misread =>
    -- the line of the digit, with the lines before it and what follows it
    obtain ⟨early, head, rfl, whole, oneHead⟩ := cutLast before
    obtain ⟨tail, later, rfl, oneTail, ends⟩ := cutFirst after
    obtain ⟨front, opens, alone, line⟩ :=
      digitLine is (by simpa using ok) whole oneHead oneTail ends
    by_cases feed : c = '\n'
    · subst feed
      have upper : read limit (String.ofList (early ++ (head ++ '\n' :: (tail ++ later)))) =
          .ok misread := by
        simpa using changed
      exact absurd upper (feedUnread alone line whole oneHead oneTail ends)
    · have one : '\n' ∉ head ++ c :: tail := by simp [oneHead, oneTail, Ne.symm feed]
      have solid : trim (head ++ c :: tail) ≠ [] := by
        intro none
        have blank := trimNone.mp none
        rw [List.all_append, Bool.and_eq_true] at blank
        rw [trimNone.mpr blank.1] at alone
        cases alone
      have after := lineSealed (by simpa using changed) whole one ends solid
      exact absurd (changedLine is opens alone line after) other

theorem brokenCaught : ∃ problem, read 16 (String.ofList
    (":01000000".toList ++ '\n' :: "5AA\n:00000001FF\n".toList)) = .error problem := by
  have ok : read 16 (String.ofList (":01000000".toList ++ '5' :: "5AA\n:00000001FF\n".toList)) =
      .ok ⟨0, #[0x55], none⟩ := by
    decide +kernel
  exact corruptionCaught ok (by decide) (by decide)

end VirtualBoard.Image
