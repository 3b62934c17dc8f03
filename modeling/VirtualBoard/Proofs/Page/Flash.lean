import VirtualBoard.Proofs.Controller.Calls
import VirtualBoard.Proofs.Image.Flash
import VirtualBoard.Proofs.Page.Answers

/-! Every image that a harness makes a model of fits its program memory.

The limit of an image and the size of that memory come from one setting, which
usable settings have even. So no model is refused because its image is too large;
the page itself may still refuse one. -/
namespace VirtualBoard

theorem Settings.limitEven {s : Settings} (usable : s.problem? = none) :
    s.imageLimit.toNat % 2 = 0 := ((problemNone s).mp usable).wholeWords

namespace Page
open Controller

variable {π κ : Type}

def given (p : Page π κ) (memory : Array UInt16) : Act (Tab π) (Except CpuFault (Model κ)) := do
  match ← act (p.construct memory) with
  | .error thrown => return .error ⟨.construction, p.codec.describe thrown⟩
  | .ok none => return .error ⟨.construction, "CPU factory returned no model"⟩
  | .ok (some cpu) => return .ok ⟨cpu, []⟩

theorem makeFitting (p : Page π κ) {size : Nat} {image : Image} {memory : Array UInt16}
    (fits : image.flash? size = some memory) : p.make size image = p.given memory := by
  rw [make, fits]
  rfl

/- The calls made in a run of a harness. -/
def Harness.history (page : Page π κ) (h : Harness π κ) (entries : List (Entry π)) :
    List (VirtualBoard.Call (Model κ)) :=
  h.controller.history (h.env page) (h.passed page entries)

/- An image has its place in a memory, and the page is given that memory to make a model of. -/
structure Fits (page : Page π κ) (limit : Nat) (image : Image) (memory : Array UInt16)
    (result : Except CpuFault (Model κ)) : Prop where
  flash : image.flash? (limit / 2) = some memory
  laid : image.Laid limit memory
  made : page.make (limit / 2) image = page.given memory
  answer : ∃ tab, result = (page.given memory tab).value

/- What is read under the limit of usable settings fits the memory of that size, word by word, and
no run of a harness ever asks for a model of anything else. -/
theorem imagesFit {settings : Settings} (usable : settings.problem? = none) :
    (∀ text image, Image.read settings.imageLimit.toNat text = .ok image →
      ∃ memory, image.flash? (settings.imageLimit.toNat / 2) = some memory ∧
        image.Laid settings.imageLimit.toNat memory) ∧
    ∀ (π κ : Type) (page : Page π κ) (config : Script) (world : π),
      Harness.settings? page config = some settings →
      ∃ ready : Harness π κ, Harness.new page config world = .ok ready ∧
        ∀ entries image result, .constructed image result ∈ ready.history page entries →
          ∃ memory, page.Fits settings.imageLimit.toNat image memory result := by
  have even := Settings.limitEven usable
  refine ⟨fun text image ok => Image.readLaid even ok, fun π κ page config world read => ?_⟩
  obtain ⟨ready, made, -, filed⟩ := Harness.newReady usable page read world
  refine ⟨ready, made, fun entries image result asked => ?_⟩
  have orderly := filed.orderly
  obtain ⟨⟨text, ok⟩, tab, answer⟩ := historyBuilt orderly _ _ asked
  obtain ⟨memory, flash, laid⟩ := Image.readLaid even ok
  have makes := page.makeFitting flash
  refine ⟨memory, flash, laid, makes, tab, ?_⟩
  rw [answer, ← makes, ← orderly.same]
  rfl

theorem plainFits : ∃ ready : Harness Unit Unit, Harness.new plain .undefined () = .ok ready ∧
    let text := ":017FFF00AAD7\n:00000001FF"
    let image : Image := ⟨0x7FFE, #[0xAA00], none⟩
    let entries : List (Entry Unit) :=
      [.start "", .completeCompile ⟨1⟩ (.object [("hex", .text text)])]
    Image.read 0x8000 text = .ok image ∧
    ∃ result memory, .constructed image result ∈ ready.history plain entries ∧
      plain.Fits 0x8000 image memory result ∧
      memory[0x3FFF]? = some 0xAA00 ∧ memory[0]? = some 0 := by
  let text := ":017FFF00AAD7\n:00000001FF"
  let image : Image := ⟨0x7FFE, #[0xAA00], none⟩
  let entries : List (Entry Unit) :=
    [.start "", .completeCompile ⟨1⟩ (.object [("hex", .text text)])]
  obtain ⟨texts, pages⟩ := imagesFit (show Settings.standard.problem? = none by decide)
  obtain ⟨ready, made, all⟩ := pages Unit Unit plain .undefined () rfl
  have ok : Image.read 0x8000 text = .ok image := by
    have known : (Image.read 0x8000 text).toOption = some image := by decide +kernel
    cases given : Image.read 0x8000 text with
    | error problem =>
      rw [given] at known
      cases known
    | ok other =>
      rw [given] at known
      cases known
      rfl
  have known : (Harness.new plain .undefined ()).toOption.map (fun ready : Harness Unit Unit =>
      (ready.history plain entries).filterMap VirtualBoard.Call.image?) = some [image] := by
    decide +kernel
  rw [made] at known
  have images : (ready.history plain entries).filterMap VirtualBoard.Call.image? = [image] :=
    Option.some.inj known
  obtain ⟨call, member, same⟩ := List.mem_filterMap.mp
    (by rw [images]; exact List.mem_singleton_self image)
  cases call with
  | constructed image' result =>
    cases same
    obtain ⟨memory, fits⟩ := all entries image result member
    have top := fits.laid.word 0x7FFF (by decide)
    have bottom := fits.laid.word 0 (by decide)
    rw [show image.wordAt? 0x7FFF = some 0xAA00 by decide] at top
    rw [show image.wordAt? 0 = none by decide] at bottom
    exact ⟨ready, made, ok, result, memory, member, fits, top, bottom⟩
  | _ => cases same

end Page
end VirtualBoard
