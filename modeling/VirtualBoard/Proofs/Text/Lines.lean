import Mathlib.Data.List.TakeWhile
import VirtualBoard.Text.Blank
import VirtualBoard.Text.Lines

/-! Where a text may be cut.

After a line end it may be cut without any effect on its lines. Within a line a
cut may fall before the white space at the line's end or between the two
characters of a line end, and trimming makes up for that. -/
namespace VirtualBoard.Text

/-! White space at the ends of a line. -/

theorem feedBlank : isBlank '\n' = true := by decide +kernel

theorem dropBlank {cs : List Char} (blank : cs.all isBlank = true) : cs.dropWhile isBlank = [] :=
  List.dropWhile_eq_nil_iff.mpr (List.all_eq_true.mp blank)

theorem trimEndAppend (front back : List Char) : trimEnd (front ++ back) =
    if trimEnd back = [] then trimEnd front else front ++ trimEnd back := by
  simp only [trimEnd, List.reverse_append, List.dropWhile_append, List.reverse_eq_nil_iff,
    List.isEmpty_iff]
  split <;> simp

theorem trimEndBlank {cs : List Char} : trimEnd cs = [] ↔ cs.all isBlank = true := by
  simp [trimEnd, List.dropWhile_eq_nil_iff]

theorem trimNone {cs : List Char} : trim cs = [] ↔ cs.all isBlank = true := by
  refine ⟨fun none => ?_, trimBlank⟩
  have rest : (cs.dropWhile isBlank).all isBlank = true := trimEndBlank.mp none
  cases left : cs.dropWhile isBlank with
  | nil => exact List.all_eq_true.mpr (List.dropWhile_eq_nil_iff.mp left)
  | cons c others =>
    -- the first character that is not dropped is not blank
    have head := List.head?_dropWhile_not isBlank cs
    rw [left] at head rest
    simp_all

theorem trimAfter {line blanks : List Char} (blank : blanks.all isBlank = true) :
    trim (line ++ blanks) = trim line := by
  simp only [trim, trimStart, List.dropWhile_append]
  split
  · rename_i none
    have nothing : line.dropWhile isBlank = [] := by simpa using none
    simp [dropBlank blank, nothing]
  · rw [trimEndAppend, if_pos (trimEndBlank.mpr blank)]

theorem trimBefore {line blanks : List Char} (blank : blanks.all isBlank = true) :
    trim (blanks ++ line) = trim line := by
  have start : trimStart (blanks ++ line) = trimStart line := by
    simp [trimStart, List.dropWhile_append, dropBlank blank]
  simp only [trim, start]

theorem trimSolid {line : List Char} (solid : ∀ c ∈ line, isBlank c = false) :
    trim line = line := by
  have drop : ∀ cs : List Char, (∀ c ∈ cs, isBlank c = false) → cs.dropWhile isBlank = cs := by
    intro cs all
    cases cs with
    | nil => rfl
    | cons c rest => simp [all c (by simp)]
  have back : ∀ c ∈ line.reverse, isBlank c = false := by simpa using solid
  simp [trim, trimStart, trimEnd, drop line solid, drop _ back]

theorem trimOfStart (cs : List Char) : trim (trimStart cs) = trim cs := by
  have parts : cs.takeWhile isBlank ++ trimStart cs = cs := List.takeWhile_append_dropWhile
  have blank : (cs.takeWhile isBlank).all isBlank = true := List.all_takeWhile
  calc trim (trimStart cs) = trim (cs.takeWhile isBlank ++ trimStart cs) := (trimBefore blank).symm
    _ = trim cs := by rw [parts]

theorem trimOfEnd (cs : List Char) : trim (trimEnd cs) = trim cs := by
  have parts : trimEnd cs ++ (cs.reverse.takeWhile isBlank).reverse = cs := by
    rw [trimEnd, ← List.reverse_append, List.takeWhile_append_dropWhile, List.reverse_reverse]
  have blank : (cs.reverse.takeWhile isBlank).reverse.all isBlank = true := by
    rw [List.all_reverse, List.all_takeWhile]
  calc trim (trimEnd cs) = trim (trimEnd cs ++ (cs.reverse.takeWhile isBlank).reverse) :=
        (trimAfter blank).symm
    _ = trim cs := by rw [parts]

theorem trimAround {d : Char} (solid : isBlank d = false) (head tail : List Char) :
    trim (head ++ d :: tail) = trimStart head ++ d :: trimEnd tail := by
  have start : trimStart (head ++ d :: tail) = (trimStart head ++ [d]) ++ tail := by
    simp only [trimStart, List.dropWhile_append, List.isEmpty_iff]
    split <;> simp_all
  have last : trimEnd (trimStart head ++ [d]) = trimStart head ++ [d] := by
    simp [trimEnd, solid]
  rw [trim, start, trimEndAppend, last]
  split <;> simp_all

theorem trimJoin {line more : List Char} (opens : trimStart line ≠ [])
    (closes : trimEnd more ≠ []) : trim (line ++ more) = trimStart line ++ trimEnd more := by
  have start : trimStart (line ++ more) = trimStart line ++ more := by
    have solid : line.dropWhile isBlank ≠ [] := opens
    simp [trimStart, List.dropWhile_append, solid]
  rw [trim, start, trimEndAppend, if_neg closes]

theorem trimFront (line : List Char) : trim line <+: trimStart line := by
  have suffix := List.dropWhile_suffix isBlank (l := (trimStart line).reverse)
  simpa [trim, trimEnd] using List.reverse_prefix.mpr suffix

theorem trimLonger {line more : List Char} (solid : trim line ≠ [])
    (further : more.all isBlank ≠ true) :
    ∃ extra, extra ≠ [] ∧ trim (line ++ more) = trim line ++ extra := by
  have opens : trimStart line ≠ [] := by
    intro none
    exact solid (by rw [trim, none]; rfl)
  have closes : trimEnd more ≠ [] := fun none => further (trimEndBlank.mp none)
  obtain ⟨blanks, parts⟩ := trimFront line
  exact ⟨blanks ++ trimEnd more, by simp [closes],
    by rw [trimJoin opens closes, ← parts, List.append_assoc]⟩

/-! Cutting a text into lines. -/

theorem linesOne {line : List Char} (whole : '\n' ∉ line) :
    lines line = if line = [] then [] else [line] := by
  induction line with
  | nil => rfl
  | cons c rest ih =>
    simp only [List.mem_cons, not_or] at whole
    have later := ih whole.2
    unfold lines
    split
    · rename_i same
      cases same
    · rename_i same
      exact absurd (List.cons.inj same).1.symm whole.1
    · rename_i same
      obtain ⟨-, rfl⟩ := List.cons.inj same
      simp at whole
    · rename_i same
      obtain ⟨rfl, rfl⟩ := List.cons.inj same
      cases rest <;> simp_all

theorem linesMore {line : List Char} (text : List Char) (whole : '\n' ∉ line) :
    ∃ kept, (line = kept ∨ line = kept ++ ['\r']) ∧
      lines (line ++ '\n' :: text) = kept :: lines text := by
  induction line with
  | nil => exact ⟨[], .inl rfl, by simp [lines]⟩
  | cons c rest ih =>
    simp only [List.mem_cons, not_or] at whole
    obtain ⟨kept, ends, cut⟩ := ih whole.2
    by_cases back : c = '\r' ∧ rest = []
    · obtain ⟨rfl, rfl⟩ := back
      exact ⟨[], .inr rfl, by simp [lines]⟩
    · refine ⟨c :: kept, by simpa using ends, ?_⟩
      rw [List.cons_append, lines.eq_4, cut]
      · exact fun same => whole.1 same.symm
      · intro more same next
        cases rest with
        | nil => exact back ⟨same, rfl⟩
        | cons d others =>
          obtain ⟨first, -⟩ := List.cons.inj next
          simp [first] at whole

theorem trimReturn (line : List Char) : trim (line ++ ['\r']) = trim line :=
  trimAfter (by decide +kernel)

def Inside (c : Char) (rest : List Char) : Prop :=
  c ≠ '\n' ∧ ∀ others, c = '\r' → rest ≠ '\n' :: others

theorem linesInside {c : Char} {rest : List Char} (inside : Inside c rest) :
    lines (c :: rest) = (c :: (lines rest).headD []) :: (lines rest).tail := by
  rw [lines.eq_4 c rest inside.1 fun others back same => inside.2 others back same]
  cases lines rest <;> rfl

@[elab_as_elim]
theorem byLines {motive : List Char → Prop} (none : motive [])
    (feed : ∀ rest, motive rest → motive ('\n' :: rest))
    (back : ∀ rest, motive rest → motive ('\r' :: '\n' :: rest))
    (inside : ∀ c rest, Inside c rest → motive rest → motive (c :: rest)) :
    ∀ text, motive text := by
  intro text
  induction text using lines.induct with
  | case1 => exact none
  | case2 rest ih => exact feed rest ih
  | case3 rest ih => exact back rest ih
  | case4 c rest one apart _ ih | case5 c rest one apart _ _ _ ih =>
    exact inside c rest ⟨one, fun others back same => apart others back same⟩ ih

def Whole (text : List Char) : Prop := text = [] ∨ text.getLast? = some '\n'

theorem wholeCons {c : Char} {rest : List Char} (whole : Whole (c :: rest)) :
    Whole rest ∧ (rest = [] → c = '\n') := by
  rcases whole with none | last
  · cases none
  · cases rest with
    | nil => exact ⟨.inl rfl, fun _ => by simpa using last⟩
    | cons d others =>
      rw [List.getLast?_cons_cons] at last
      exact ⟨.inr last, fun none => by cases none⟩

theorem wholeEnded (text : List Char) : Whole (text ++ ['\n']) := .inr List.getLast?_concat

theorem linesNone {text : List Char} : lines text = [] ↔ text = [] := by
  fun_cases lines text <;> simp_all

theorem linesWhole {early : List Char} (whole : Whole early) (late : List Char) :
    lines (early ++ late) = lines early ++ lines late := by
  induction early using byLines with
  | none => rfl
  | feed rest ih => simp [lines, ih (wholeCons whole).1]
  | back rest ih => simp [lines, ih (wholeCons (wholeCons whole).1).1]
  | inside c rest inside ih =>
    obtain ⟨wholeRest, ended⟩ := wholeCons whole
    cases rest with
    | nil => exact absurd (ended rfl) inside.1
    | cons d rest =>
      have still : Inside c ((d :: rest) ++ late) :=
        ⟨inside.1, fun others back same => inside.2 rest back (by rw [(List.cons.inj same).1])⟩
      obtain ⟨line, more, cut⟩ := List.exists_cons_of_ne_nil
        (mt linesNone.mp (List.cons_ne_nil d rest))
      rw [List.cons_append, linesInside still, linesInside inside, ih wholeRest, cut]
      rfl

theorem cutLast (text : List Char) :
    ∃ early last, text = early ++ last ∧ Whole early ∧ '\n' ∉ last := by
  induction text with
  | nil => exact ⟨[], [], rfl, .inl rfl, by simp⟩
  | cons c rest ih =>
    obtain ⟨early, last, rfl, whole, one⟩ := ih
    by_cases ends : c = '\n' ∨ early ≠ []
    · refine ⟨c :: early, last, rfl, .inr ?_, one⟩
      cases early with
      | nil => simpa using ends
      | cons d others =>
        rw [List.getLast?_cons_cons]
        exact whole.resolve_left (by simp)
    · obtain ⟨other, rfl⟩ : c ≠ '\n' ∧ early = [] := by simpa using ends
      exact ⟨[], c :: last, rfl, .inl rfl, by simp [one, other.symm]⟩

def Ends (later : List Char) : Prop := later = [] ∨ ∃ rest, later = '\n' :: rest

theorem endsBlank {later : List Char} (ends : Ends later) :
    later.tail.all isBlank = true ↔ later.all isBlank = true := by
  rcases ends with rfl | ⟨rest, rfl⟩ <;> simp [feedBlank]

theorem cutFirst (text : List Char) :
    ∃ line later, text = line ++ later ∧ '\n' ∉ line ∧ Ends later := by
  induction text with
  | nil => exact ⟨[], [], rfl, by simp, .inl rfl⟩
  | cons c rest ih =>
    by_cases feed : c = '\n'
    · exact ⟨[], c :: rest, rfl, by simp, .inr ⟨rest, by rw [feed]⟩⟩
    · obtain ⟨line, later, rfl, one, ends⟩ := ih
      exact ⟨c :: line, later, rfl, by simp [one, Ne.symm feed], ends⟩

theorem linesCut {line later : List Char} (one : '\n' ∉ line) (ends : Ends later)
    (some : line ++ later ≠ []) :
    ∃ kept, trim kept = trim line ∧ lines (line ++ later) = kept :: lines later.tail := by
  rcases ends with rfl | ⟨rest, rfl⟩
  · have solid : line ≠ [] := by simpa using some
    refine ⟨line, rfl, ?_⟩
    rw [List.append_nil, linesOne one, if_neg solid]
    rfl
  · obtain ⟨kept, same, cut⟩ := linesMore rest one
    refine ⟨kept, ?_, cut⟩
    rcases same with rfl | rfl
    · rfl
    · exact (trimReturn kept).symm

def firstLines : Nat → List Char → List Char
  | 0, _ => []
  | _ + 1, [] => []
  | n + 1, '\n' :: rest => '\n' :: firstLines n rest
  | n + 1, c :: rest => c :: firstLines (n + 1) rest

theorem firstLinesPart (n : Nat) (text : List Char) : firstLines n text <+: text := by
  fun_induction firstLines n text <;> simp_all

theorem linesFirst (n : Nat) (text : List Char) :
    lines (firstLines n text) = (lines text).take n := by
  induction text using byLines generalizing n with
  | none => cases n <;> simp [firstLines, lines]
  | feed rest ih => cases n <;> simp [firstLines, lines, ih]
  | back rest ih => cases n <;> simp [firstLines, lines, ih]
  | inside c rest inside ih =>
    cases n with
    | zero => simp [firstLines, lines]
    | succ n =>
      have still : Inside c (firstLines (n + 1) rest) := by
        refine ⟨inside.1, fun others back same => ?_⟩
        obtain ⟨more, parts⟩ := firstLinesPart (n + 1) rest
        rw [same] at parts
        exact inside.2 _ back parts.symm
      rw [firstLines.eq_4 _ _ _ inside.1, linesInside still, linesInside inside, ih]
      cases lines rest <;> simp

theorem blankLines {text : List Char} :
    (∀ line ∈ lines text, trim line = []) ↔ text.all isBlank = true := by
  have back : isBlank '\r' = true := by decide +kernel
  simp only [trimNone]
  induction text using byLines with
  | none => simp [lines]
  | feed rest ih => simpa [lines, feedBlank] using ih
  | back rest ih => simpa [lines, feedBlank, back] using ih
  | inside c rest inside ih =>
    rw [linesInside inside, List.all_cons, Bool.and_eq_true]
    refine Iff.trans ?_ (and_congr_right fun _ => ih)
    cases lines rest <;> simp [and_assoc]

/-! Lines as parts of their text. -/

theorem trimPart (line : List Char) : (trim line).Sublist line := by
  have back := (List.dropWhile_sublist isBlank (l := (trimStart line).reverse)).reverse
  rw [List.reverse_reverse] at back
  exact back.trans (List.dropWhile_sublist isBlank)

theorem linesPart {text line : List Char} (member : line ∈ lines text) : line.Sublist text := by
  induction text using byLines generalizing line with
  | none => simp [lines] at member
  | feed rest ih =>
    rw [lines] at member
    rcases List.mem_cons.mp member with rfl | later
    · exact List.nil_sublist _
    · exact (ih later).cons _
  | back rest ih =>
    rw [lines] at member
    rcases List.mem_cons.mp member with rfl | later
    · exact List.nil_sublist _
    · exact ((ih later).cons _).cons _
  | inside c rest inside ih =>
    rw [linesInside inside] at member
    rcases List.mem_cons.mp member with rfl | later
    · refine List.Sublist.cons_cons c ?_
      cases cut : lines rest with
      | nil => exact List.nil_sublist _
      | cons line more => exact ih (by simp [cut])
    · exact (ih (List.mem_of_mem_tail later)).cons _

theorem linesFewer (text : List Char) : (lines text).length ≤ text.length := by
  induction text using byLines with
  | none => exact Nat.le_refl _
  | feed rest ih =>
    simp only [lines, List.length_cons]
    omega
  | back rest ih =>
    simp only [lines, List.length_cons]
    omega
  | inside c rest inside ih =>
    simp only [linesInside inside, List.length_cons, List.length_tail]
    omega

end VirtualBoard.Text
