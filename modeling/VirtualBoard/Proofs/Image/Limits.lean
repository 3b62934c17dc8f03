import VirtualBoard.Proofs.Image.FirstProblem
import VirtualBoard.Proofs.Image.Flash

/-! One text under two limits.

A limit refuses data that ends above it and decides nothing else. So under a
tighter limit a text is read as under a looser one, up to the first data that
ends above the tighter one. That the limits are those of a real memory is not
needed here. -/
namespace VirtualBoard.Image
open Text

/-! A line writes one row, and lines write one list of rows. -/

theorem writtenOnce {line : List Char} {row other : Row} (one : row.Written line)
    (two : other.Written line) : row = other := by
  obtain ⟨digits, rfl, writes⟩ := one
  obtain ⟨same, spelled, others⟩ := two
  cases spelled
  have bytes := writesOnce writes others
  obtain ⟨count, high, low, kind, data, check⟩ := row
  obtain ⟨_, _, _, _, others, last⟩ := other
  simp only [Row.bytes, List.cons.injEq] at bytes
  obtain ⟨rfl, rfl, rfl, rfl, rest⟩ := bytes
  obtain ⟨rfl, checks⟩ := List.append_inj' rest rfl
  cases checks
  rfl

theorem rowsOnce {texts : List (List Char)} {rows others : List Row}
    (these : List.Forall₂ Row.Written texts rows) (those : List.Forall₂ Row.Written texts others) :
    rows = others := by
  have one : Relator.RightUnique fun line row => Row.Written line row := fun _ _ _ => writtenOnce
  exact one.forall₂ these those

structure Precede (text : String) (place : Nat) (rows : List Row) : Prop where
  written : List.Forall₂ Row.Written
    ((((lines text.toList).take place).map trim).filter (· ≠ [])) rows
  sound : ∀ row ∈ rows, row.Sound
  going : ∀ row ∈ rows, row.kind ≠ 1

/- A line, counted from zero, that is a record with data, and the address where this data ends over
the base that the records before it have set. -/
def EndsAt (text : String) (place finish : Nat) : Prop :=
  ∃ (rows : List Row) (row : Row) (raw : List Char), Precede text place rows ∧
    (lines text.toList)[place]? = some raw ∧ row.Written (trim raw) ∧ row.Sound ∧ row.Filled ∧
    finish = baseFrom 0 rows + row.offset + row.data.length

/- The first line with data that ends above a limit. -/
structure Beyond (limit : Nat) (text : String) (place finish : Nat) : Prop where
  ends : EndsAt text place finish
  above : limit < finish
  first : ∀ early other, early < place → EndsAt text early other → other ≤ limit

namespace Progress

theorem Takings.stands {limit : Nat} {p q : Progress} {rows : List Row}
    (takings : Takings limit p rows q) : q.upper = baseFrom p.upper rows ∧
      (q.ended = false → ∀ row ∈ rows, row.kind ≠ 1) := by
  induction takings with
  | none => exact ⟨rfl, by simp⟩
  | @row p next q row rest going sound taken later ih =>
    obtain ⟨upper, others⟩ := ih
    have effect := took sound taken
    refine ⟨by rw [upper, baseFromCons, effect.upper], fun still => ?_⟩
    refine List.forall_mem_cons.mpr ⟨fun ends => ?_, others still⟩
    -- nothing is taken after the row that ends the image
    have closed : next.ended = true := effect.ended.mpr (.inr ends)
    cases later with
    | none =>
      rw [closed] at still
      cases still
    | row goes =>
      rw [closed] at goes
      cases goes

theorem takeUnfilled {limit most : Nat} {p : Progress} {r : Record}
    (unfilled : ¬ (r.kind = .data ∧ r.data ≠ [])) :
    p.takeRecord limit r = p.takeRecord most r := by
  obtain ⟨kind, offset, bytes⟩ := r
  match bytes with
  | [] | [_] | [_, _] | [_, _, _] | [_, _, _, _] | _ :: _ :: _ :: _ :: _ :: _ =>
    cases kind <;> first | rfl | simp at unfilled

def Passes (limit : Nat) (p : Progress) (text : List Char) (finish : Nat) : Prop :=
  ∃ row : Row, row.Written text ∧ row.Sound ∧ row.Filled ∧ p.ended = false ∧
    finish = p.upper + row.offset + row.data.length ∧ limit < finish

variable {limit most : Nat}

theorem takeLineTighter (tighter : limit ≤ most) (line : Nat) (p : Progress) (raw : List Char) :
    p.takeLine limit line raw = p.takeLine most line raw ∨
      ∃ finish, p.Passes limit (trim raw) finish ∧
        p.takeLine limit line raw = .error (.tooLarge finish limit) := by
  unfold takeLine
  dsimp only
  split
  · exact .inl rfl
  · split
    · exact .inl rfl
    · rename_i going
      cases read : Record.ofLine line (trim raw) with
      | error problem => exact .inl rfl
      | ok r =>
        obtain ⟨row, written, sound, rfl⟩ := (Row.ofLine line).mp read
        dsimp only
        by_cases filled : row.record.kind = .data ∧ row.record.data ≠ []
        · obtain ⟨data, some⟩ := filled
          rw [takeFilled data some, takeFilled data some]
          by_cases above : limit < p.upper + row.record.offset.toNat + row.record.data.length
          · refine .inr ⟨_, ⟨row, written, sound, (recordFilled sound).mp ⟨data, some⟩,
              by simpa using going, ?_, above⟩, by rw [if_pos above]⟩
            rw [← pairOffset]
            rfl
          · exact .inl (by rw [if_neg above, if_neg (by omega)])
        · exact .inl (takeUnfilled filled)

theorem takeLinesTighter (tighter : limit ≤ most) (line : Nat) (p : Progress)
    (raws : List (List Char)) : p.takeLines limit line raws = p.takeLines most line raws ∨
      ∃ early raw late q finish, raws = early ++ raw :: late ∧
        p.takeLines limit line early = .ok q ∧ p.takeLines most line early = .ok q ∧
        q.Passes limit (trim raw) finish ∧
        p.takeLines limit line raws = .error (.tooLarge finish limit) := by
  induction raws generalizing line p with
  | nil => exact .inl rfl
  | cons raw rest ih =>
    rcases takeLineTighter tighter line p raw with same | ⟨finish, passes, refused⟩
    · simp only [takeLines, same]
      cases first : p.takeLine most line raw with
      | error problem => exact .inl rfl
      | ok next =>
        dsimp only
        rcases ih (line + 1) next with
          later | ⟨early, bad, late, q, finish, rfl, tight, loose, stops⟩
        · exact .inl later
        · refine .inr ⟨raw :: early, bad, late, q, finish, rfl, ?_, ?_, stops⟩
          · rw [takeLines, same, first]
            exact tight
          · rw [takeLines, first]
            exact loose
    · exact .inr ⟨[], raw, rest, p, finish, rfl, rfl, rfl, passes, by rw [takeLines, refused]⟩

variable {text : String} {place : Nat} {q : Progress}

theorem takenPrecede (taken : start.takeLines limit 1 ((lines text.toList).take place) = .ok q)
    (going : q.ended = false) : ∃ rows, Precede text place rows ∧ q.upper = baseFrom 0 rows := by
  obtain ⟨rows, written, takings⟩ := takeLinesRows.mp taken
  obtain ⟨upper, others⟩ := takings.stands
  exact ⟨rows, ⟨written, takings.sound, others going⟩, upper⟩

theorem Passes.endsAt {finish : Nat} {raw : List Char}
    (taken : start.takeLines most 1 ((lines text.toList).take place) = .ok q)
    (here : (lines text.toList)[place]? = some raw) (passes : q.Passes limit (trim raw) finish) :
    EndsAt text place finish := by
  obtain ⟨row, written, sound, filled, going, rfl, -⟩ := passes
  obtain ⟨rows, precede, upper⟩ := takenPrecede taken going
  exact ⟨rows, row, raw, precede, here, written, sound, filled, by rw [upper]⟩

theorem takeRecordSome {p q : Progress} {r : Record} (taken : p.takeRecord limit r = .ok q)
    (some : p.pieces ≠ []) : q.pieces ≠ [] := by
  simp [(takeRecordTakes taken).pieces, some]

theorem takenWithin {count finish : Nat}
    (taken : start.takeLines limit 1 ((lines text.toList).take count) = .ok q)
    (inside : place < count) (ends : EndsAt text place finish) :
    finish ≤ limit ∧ q.pieces ≠ [] := by
  obtain ⟨rows, row, raw, precede, here, written, sound, filled, rfl⟩ := ends
  obtain ⟨bound, there⟩ := List.getElem?_eq_some_iff.mp here
  have parts : (lines text.toList).take count = (lines text.toList).take place ++
      raw :: ((lines text.toList).take count).drop (place + 1) := by
    have cut := List.take_append_drop place ((lines text.toList).take count)
    rw [List.take_take, Nat.min_eq_left (Nat.le_of_lt inside), List.drop_eq_getElem_cons
      (by rw [List.length_take]; omega), List.getElem_take, there] at cut
    exact cut.symm
  rw [parts, takeLinesAppend] at taken
  obtain ⟨p, early, rest⟩ := bindOk.mp taken
  rw [takeLines] at rest
  cases first : p.takeLine limit (1 + ((lines text.toList).take place).length) raw with
  | error problem =>
    rw [first] at rest
    cases rest
  | ok next =>
    rw [first] at rest
    have solid : trim raw ≠ [] := by
      obtain ⟨digits, spelled, -⟩ := written
      simp [spelled]
    obtain ⟨same, writes, going, -, one⟩ := (takeLineRow solid).mp first
    obtain rfl := writtenOnce written writes
    obtain ⟨others, before, upper⟩ := takenPrecede early going
    obtain rfl := rowsOnce precede.written before.written
    rw [← upper]
    refine ⟨(takeRow sound).mp ⟨next, one⟩ filled, ?_⟩
    exact takeLinesKeep (fun _ => takeRecordSome) rest ((took sound one).pieces.mpr (.inr filled))

theorem LineProblem.placed {line : Nat} {raw : List Char} {problem : Problem}
    (why : LineProblem limit line raw problem) : problem ≠ .missingEnd ∧ problem ≠ .noData := by
  cases why with
  | after | large => exact ⟨nofun, nofun⟩
  | record failed =>
    have named := ofLineLine failed
    constructor <;> rintro rfl <;> cases named

theorem finishNoData {p : Progress} (failed : p.finish = .error .noData) : p.pieces = [] := by
  unfold finish at failed
  split at failed
  · split at failed
    · rename_i none
      exact List.reverse_eq_nil_iff.mp none
    · cases failed
  · cases failed

end Progress

theorem readTighter {limit most : Nat} (tighter : limit ≤ most) (text : String) :
    read limit text = read most text ∨ ∃ place finish q, Beyond limit text place finish ∧
      Progress.start.takeLines most 1 ((lines text.toList).take place) = .ok q ∧
      read limit text = .error (.tooLarge finish limit) := by
  rcases Progress.takeLinesTighter tighter 1 .start (lines text.toList) with
    same | ⟨early, raw, late, q, finish, parts, tight, loose, passes, refused⟩
  · exact .inl (by rw [read, same, ← read])
  · have first : (lines text.toList).take early.length = early := by rw [parts, List.take_left]
    have here : (lines text.toList)[early.length]? = some raw := by simp [parts]
    rw [← first] at tight loose
    obtain ⟨row, -, -, -, -, -, above⟩ := id passes
    refine .inr ⟨early.length, finish, q, ⟨passes.endsAt loose here, above, ?_⟩, loose,
      readStops refused⟩
    exact fun place other before ends => (Progress.takenWithin tight before ends).1

theorem wholeWithin {limit : Nat} {text : String} {p : Progress}
    (taken : Progress.start.takeLines limit 1 (lines text.toList) = .ok p) {place finish : Nat}
    (ends : EndsAt text place finish) : finish ≤ limit ∧ p.pieces ≠ [] := by
  have inside : place < (lines text.toList).length := by
    obtain ⟨_, _, raw, -, here, -⟩ := ends
    exact (List.getElem?_eq_some_iff.mp here).1
  rw [← List.take_length (l := lines text.toList)] at taken
  exact Progress.takenWithin taken inside ends

theorem namesLast {limit : Nat} {text : String} {problem : Problem} {place stop : Nat}
    {q : Progress} (names : Names limit text problem stop)
    (placed : problem ≠ .missingEnd ∧ problem ≠ .noData)
    (taken : Progress.start.takeLines limit 1 ((lines text.toList).take place) = .ok q) :
    place ≤ stop := by
  by_contra further
  have stops := (readProblem names.through).resolve_right (not_or.mpr placed)
  rw [String.toList_ofList, linesFirst] at stops
  have parts := List.take_append_drop (stop + 1) ((lines text.toList).take place)
  rw [List.take_take, Nat.min_eq_left (by omega)] at parts
  rw [← parts, Progress.takeLinesAppend, stops] at taken
  cases taken

/- The limit decides only whether data is too large: a text that is read under a looser one is read
as the same image, or its first data beyond the limit is refused. A text with a problem has the same
problem, or it has such data no later than in the line of that problem. -/
theorem limitDecides {limit most : Nat} (tighter : limit ≤ most) (text : String) :
    (∀ image, read most text = .ok image →
      ((∀ place finish, EndsAt text place finish → finish ≤ limit) → read limit text = .ok image) ∧
      (¬ (∀ place finish, EndsAt text place finish → finish ≤ limit) →
        ∃ place finish, Beyond limit text place finish ∧
          read limit text = .error (.tooLarge finish limit))) ∧
    ∀ problem, read most text = .error problem →
      read limit text = .error problem ∨ ∃ place finish, Beyond limit text place finish ∧
        read limit text = .error (.tooLarge finish limit) ∧
        (problem = .missingEnd ∨ ∃ stop, Names most text problem stop ∧ place ≤ stop) := by
  rcases readTighter tighter text with same | ⟨place, finish, q, beyond, taken, refused⟩
  · refine ⟨fun image ok => ⟨fun _ => same.trans ok, fun some => ?_⟩,
      fun problem failed => .inl (same.trans failed)⟩
    obtain ⟨p, whole, -⟩ := readOk.mp (same.trans ok)
    exact absurd (fun place finish ends => (wholeWithin whole ends).1) some
  · refine ⟨fun image ok => ⟨fun all => ?_, fun _ => ⟨place, finish, beyond, refused⟩⟩,
      fun problem failed => .inr ⟨place, finish, beyond, refused, ?_⟩⟩
    · exact absurd (all place finish beyond.ends) (Nat.not_le_of_lt beyond.above)
    · cases whole : Progress.start.takeLines most 1 (lines text.toList) with
      | error other =>
        cases (readStops whole).symm.trans failed
        obtain ⟨stop, raw, -, why, names⟩ := readNames whole
        exact .inr ⟨stop, names, namesLast names why.placed taken⟩
      | ok p =>
        rw [read, whole] at failed
        rcases Progress.finishProblem failed with rfl | rfl
        · exact .inl rfl
        · exact absurd (Progress.finishNoData failed) (wholeWithin whole beyond.ends).2

theorem sampleLimited :
    let text := ":0100000055AA\n:010008006691\n"
    read 16 (text ++ ":00000001FF") = .ok ⟨0, #[0x55, 0, 0, 0, 0x66], none⟩ ∧
      (∃ place, Beyond 4 (text ++ ":00000001FF") place 9 ∧
        read 4 (text ++ ":00000001FF") = .error (.tooLarge 9 4)) ∧
      ∃ place stop, Beyond 4 (text ++ ":00") place 9 ∧
        Names 16 (text ++ ":00") (.truncated 3) stop ∧ place ≤ stop := by
  intro text
  have ok : read 16 (text ++ ":00000001FF") = .ok ⟨0, #[0x55, 0, 0, 0, 0x66], none⟩ := by
    decide +kernel
  have large : read 4 (text ++ ":00000001FF") = .error (.tooLarge 9 4) := by decide +kernel
  have cut : read 16 (text ++ ":00") = .error (.truncated 3) := by decide +kernel
  have cutLarge : read 4 (text ++ ":00") = .error (.tooLarge 9 4) := by decide +kernel
  obtain ⟨within, refused⟩ := (limitDecides (by decide : 4 ≤ 16) (text ++ ":00000001FF")).1 _ ok
  have some : ¬ ∀ place finish, EndsAt (text ++ ":00000001FF") place finish → finish ≤ 4 := by
    intro all
    cases large.symm.trans (within all)
  obtain ⟨place, finish, beyond, same⟩ := refused some
  cases large.symm.trans same
  refine ⟨ok, ⟨place, beyond, large⟩, ?_⟩
  rcases (limitDecides (by decide : 4 ≤ 16) (text ++ ":00")).2 _ cut with
    same | ⟨place, finish, beyond, same, none | ⟨stop, names, before⟩⟩
  · cases cutLarge.symm.trans same
  · cases none
  · cases cutLarge.symm.trans same
    exact ⟨place, stop, beyond, names, before⟩

end VirtualBoard.Image
