import VirtualBoard.Log
import VirtualBoard.Pin

/-! The turns of a signal as the log tells them.

A turn is told by a debug record of the signal's name and the side it turned to, and
an info record tells that all signals were cleared. Nothing else the controller
writes ends like one of these, whatever names and numbers stand in it. -/
namespace VirtualBoard.Log

def endings : List String := [" on", " off", "reset to idle"]

def Entry.Plain : Entry → Prop
  | .record .debug text | .record .info text =>
    ∀ ending ∈ endings, ¬ ending.toList <:+ text.toList
  | _ => True

def Entry.turn? (name : String) : Entry → Option Bool
  | .record .debug text =>
    if text = name ++ " on" then some true
    else if text = name ++ " off" then some false
    else none
  | _ => none

def turned (name : String) (on : Bool) : Entry :=
  .record .debug (name ++ if on then " on" else " off")

def cleared : Entry := .record .info "reset to idle"

def turns (name : String) (log : List Entry) : List Bool :=
  ((log.takeWhile fun entry => entry ≠ cleared).filterMap (Entry.turn? name)).reverse

theorem Entry.plainWarn (text : String) : Plain (.record .warn text) := trivial

theorem Entry.plainTrace (text : String) : Plain (.record .trace text) := trivial

theorem Entry.plainText {text : String} (unlike : ∀ ending ∈ endings,
    ¬ ending.toList <:+ text.toList) (severity : Severity) : Plain (.record severity text) := by
  cases severity <;> first | exact unlike | trivial

theorem Entry.plainEnd {last : String} (apart : ∀ ending ∈ endings,
    ¬ ending.toList <:+ last.toList ∧ ¬ last.toList <:+ ending.toList) (severity : Severity)
    (front : String) : Plain (.record severity (front ++ last)) := by
  refine plainText (fun ending member ends => ?_) severity
  have own : last.toList <:+ (front ++ last).toList := by
    rw [String.toList_append]
    exact List.suffix_append _ _
  rcases Nat.le_total ending.toList.length last.toList.length with short | long
  · exact (apart ending member).1 (List.suffix_of_suffix_length_le ends own short)
  · exact (apart ending member).2 (List.suffix_of_suffix_length_le own ends long)

theorem Entry.plainPin (severity : Severity) (front : String) (pin : Pin) :
    Plain (.record severity (front ++ pin.text)) := by
  let digits := Nat.toDigits 10 pin.bit.toNat
  have some : digits ≠ [] := Nat.toDigits_ne_nil
  have digit : (digits.getLast some).isDigit = true :=
    Nat.isDigit_of_mem_toDigits (by decide) (by decide) (List.getLast_mem some)
  have spelled : (front ++ pin.text).toList = (front.toList ++ ['P', pin.port]) ++ digits := by
    simp [Pin.text, Text.digits, digits]
  have letters : ∀ ending ∈ endings, ending.toList.getLast?.map Char.isDigit = .some false := by
    decide +kernel
  refine plainText ?_ severity
  rintro ending member ⟨before, same⟩
  obtain ⟨c, last, letter⟩ := Option.map_eq_some_iff.mp (letters ending member)
  have lasts := congrArg List.getLast? (same.trans spelled)
  rw [List.getLast?_append, List.getLast?_append, last, List.getLast?_eq_some_getLast some] at lasts
  have equal : c = digits.getLast some := Option.some.inj lasts
  rw [equal, digit] at letter
  cases letter

theorem turnPlain {entry : Entry} (plain : entry.Plain) (name : String) :
    entry.turn? name = none ∧ entry ≠ cleared := by
  have told : ∀ front ending : String, ending.toList <:+ (front ++ ending).toList := by
    intro front ending
    rw [String.toList_append]
    exact List.suffix_append _ _
  cases entry with
  | remark text => exact ⟨rfl, nofun⟩
  | record severity text =>
    cases severity with
    | debug =>
      have on : text ≠ name ++ " on" := by
        rintro rfl
        exact plain " on" (by simp [endings]) (told name _)
      have off : text ≠ name ++ " off" := by
        rintro rfl
        exact plain " off" (by simp [endings]) (told name _)
      exact ⟨by rw [Entry.turn?, if_neg on, if_neg off], nofun⟩
    | info =>
      refine ⟨rfl, fun same => ?_⟩
      cases same
      exact plain "reset to idle" (by simp [endings]) (List.suffix_refl _)
    | _ => exact ⟨rfl, nofun⟩

theorem turnOwn (name : String) (on : Bool) : (turned name on).turn? name = some on := by
  cases on <;> simp [turned, Entry.turn?]

theorem turnOther {name other : String} (apart : other ≠ name) (on : Bool) :
    (turned other on).turn? name = none := by
  have crossed : ∀ front back : String, front ++ " on" ≠ back ++ " off" := by
    intro front back same
    have last := congrArg (fun text => text.toList.getLast?) same
    simp at last
  cases on with
  | true =>
    have on : other ++ " on" ≠ name ++ " on" := fun same => apart ((String.append_left_inj _).mp same)
    simp [turned, Entry.turn?, on, crossed]
  | false =>
    have off : other ++ " off" ≠ name ++ " off" :=
      fun same => apart ((String.append_left_inj _).mp same)
    simp [turned, Entry.turn?, off, (crossed _ _).symm]

theorem turnsPlain {entry : Entry} (plain : entry.Plain) (name : String) (log : List Entry) :
    turns name (entry :: log) = turns name log := by
  obtain ⟨none, apart⟩ := turnPlain plain name
  simp [turns, none, apart]

theorem turnsOwn (name : String) (on : Bool) (log : List Entry) :
    turns name (turned name on :: log) = turns name log ++ [on] := by
  have apart : turned name on ≠ cleared := nofun
  simp [turns, turnOwn, apart]

theorem turnsOther {name other : String} (apart : other ≠ name) (on : Bool) (log : List Entry) :
    turns name (turned other on :: log) = turns name log := by
  have uncleared : turned other on ≠ cleared := nofun
  simp [turns, turnOther apart, uncleared]

theorem turnsCleared (name : String) (log : List Entry) : turns name (cleared :: log) = [] := by
  simp [turns]

end VirtualBoard.Log
