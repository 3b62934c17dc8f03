import VirtualBoard.Image.Reader
import VirtualBoard.Proofs.Image.Memory

/-! A line that is read spells the record that is read from it.

Up to the case of its letters the line is the one the record writes, checksum
included; so what a line says of offset, kind and payload is what is taken. -/
namespace VirtualBoard.Image.Record
open Text

def capital (value : Nat) : Char := (Nat.digitChar value).toUpper
def upper (digit : UInt8) : Char := (Char.ofNat digit.toNat).toUpper

theorem hexTable : ∀ n < 256, (hexValue? (UInt8.ofNat n)).all (fun value =>
    n < 128 && value.toNat < 16 && upper (UInt8.ofNat n) == capital value.toNat) = true := by
  decide +kernel

theorem hexDigit {digit value : UInt8} (read : hexValue? digit = some value) :
    digit.toNat < 128 ∧ value.toNat < 16 ∧ upper digit = capital value.toNat := by
  have row := hexTable digit.toNat digit.toNat_lt
  rw [UInt8.ofNat_toNat, read] at row
  simpa [and_assoc] using row

theorem byteCapitals {high low : UInt8} (highSmall : high.toNat < 16) (lowSmall : low.toNat < 16) :
    byteText (16 * high + low) = [capital high.toNat, capital low.toNat] := by
  have value : (16 * high + low).toNat = 16 * high.toNat + low.toNat := by
    rw [UInt8.toNat_add, UInt8.toNat_mul]
    show (16 * high.toNat % 256 + low.toNat) % 256 = _
    omega
  have first : (16 * high.toNat + low.toNat) / 16 = high.toNat := by omega
  have second : (16 * high.toNat + low.toNat) % 16 = low.toNat := by omega
  rw [byteText, value, first, second]
  rfl

theorem bytesSpell {line column : Nat} {digits found : List UInt8} (even : digits.length % 2 = 0)
    (read : bytes line column digits = .ok found) :
    (∀ digit ∈ digits, digit.toNat < 128) ∧ digits.map upper = found.flatMap byteText := by
  induction column, digits using bytes.induct line generalizing found with
  | case1 column high low rest bad =>
    simp only [bytes, bad] at read
    cases read
  | case2 column high low rest value bad good =>
    simp only [bytes, bad, good] at read
    cases read
  | case3 column high low rest h l lowRead highRead problem failed ih =>
    simp only [bytes, lowRead, highRead, failed] at read
    cases read
  | case4 column high low rest h l lowRead highRead tail done ih =>
    simp only [bytes, lowRead, highRead, done, Except.ok.injEq] at read
    subst read
    have evenRest : rest.length % 2 = 0 := by
      simp only [List.length_cons] at even
      omega
    obtain ⟨ascii, spelled⟩ := ih evenRest done
    obtain ⟨highAscii, highSmall, highUpper⟩ := hexDigit highRead
    obtain ⟨lowAscii, lowSmall, lowUpper⟩ := hexDigit lowRead
    refine ⟨?_, ?_⟩
    · intro digit member
      rcases List.mem_cons.mp member with rfl | member
      · exact highAscii
      · rcases List.mem_cons.mp member with rfl | member
        · exact lowAscii
        · exact ascii digit member
    · rw [List.map_cons, List.map_cons, List.flatMap_cons, spelled, highUpper, lowUpper,
        byteCapitals highSmall lowSmall]
      rfl
  | case5 digits column short =>
    match digits, even, short with
    | [], _, _ =>
      have none : bytes line column [] = .ok [] := by simp [bytes]
      rw [none] at read
      cases read
      simp
    | [_], odd, _ => simp at odd
    | high :: low :: rest, _, short => exact (short high low rest rfl).elim

theorem asciiFirst {c : Char}
    (ascii : ∀ byte ∈ (String.utf8EncodeChar c).head?, byte.toNat < 128) :
    String.utf8EncodeChar c = [UInt8.ofNat c.toNat] ∧ c.toNat < 128 := by
  unfold String.utf8EncodeChar at ascii ⊢
  dsimp only at ascii ⊢
  split at ascii
  · rename_i small
    rw [if_pos small]
    exact ⟨rfl, Nat.lt_succ_of_le small⟩
  · split at ascii
    · have first := ascii _ rfl
      rw [UInt8.toNat_ofNat'] at first
      omega
    · split at ascii
      · have first := ascii _ rfl
        rw [UInt8.toNat_ofNat'] at first
        omega
      · have first := ascii _ rfl
        rw [UInt8.toNat_ofNat'] at first
        omega

theorem asciiByte {c : Char} (ascii : ∀ byte ∈ String.utf8EncodeChar c, byte.toNat < 128) :
    String.utf8EncodeChar c = [UInt8.ofNat c.toNat] ∧ c.toNat < 128 :=
  asciiFirst fun byte first => ascii byte (List.mem_of_mem_head? first)

theorem asciiUpper {body : List Char} (ascii : ∀ byte ∈ utf8 body, byte.toNat < 128) :
    (utf8 body).map upper = body.map Char.toUpper := by
  induction body with
  | nil => rfl
  | cons c rest ih =>
    simp only [utf8, List.flatMap_cons, List.mem_append] at ascii
    obtain ⟨one, small⟩ := asciiByte fun byte member => ascii byte (.inl member)
    have later := ih fun byte member => ascii byte (.inr member)
    have same : upper (UInt8.ofNat c.toNat) = c.toUpper := by
      rw [upper, UInt8.toNat_ofNat', Nat.mod_eq_of_lt (by omega), Char.ofNat_toNat]
    rw [utf8, List.flatMap_cons, List.map_append, one, ← utf8, later]
    simp [same]

theorem kindByte {raw : UInt8} {kind : Kind} (known : Kind.ofByte? raw = some kind) :
    kind.byte = raw := by
  unfold Kind.ofByte? at known
  repeat' split at known
  all_goals cases known
  all_goals subst_vars; rfl

theorem pairBytes (high low : UInt8) :
    (pair high low / 256).toUInt8 = high ∧ (pair high low).toUInt8 = low := by
  have same : pair high low = low.toUInt16 + 256 * high.toUInt16 := UInt16.add_comm _ _
  rw [same]
  exact ⟨highByte low high, lowByte low high⟩

theorem ofBytesSpell {line : Nat} {found : List UInt8} {r : Record}
    (read : ofBytes line found = .ok r) : found = r.toBytes := by
  match found, read with
  | declared :: high :: low :: kind :: last :: rest, read =>
    simp only [ofBytes, ne_eq, ite_not] at read
    split at read
    · rename_i counted
      split at read
      · rename_i summed
        cases known : Kind.ofByte? kind with
        | none =>
          rw [known] at read
          cases read
        | some k =>
          rw [known] at read
          dsimp only at read
          split at read
          · cases read
          · cases read
            have count : UInt8.ofNat (last :: rest).dropLast.length = declared := by
              rw [← counted, UInt8.ofNat_toNat]
            obtain ⟨first, second⟩ := pairBytes high low
            simp only [toBytes, count, first, second, kindByte known, summed, List.cons_append]
            rw [List.dropLast_concat_getLast]
      · cases read
    · cases read
  | [], read | [_], read | [_, _], read | [_, _, _], read | [_, _, _, _], read => cases read

theorem ofLineSpell {line : Nat} {text : List Char} {r : Record}
    (read : ofLine line text = .ok r) : text.map Char.toUpper = r.toLine := by
  unfold ofLine at read
  split at read
  · rename_i body
    dsimp only at read
    split at read
    · cases read
    · rename_i odd
      have even : (utf8 body).length % 2 = 0 := by omega
      cases decoded : bytes line 2 (utf8 body) with
      | error problem =>
        rw [decoded] at read
        cases read
      | ok found =>
        rw [decoded] at read
        obtain ⟨ascii, spelled⟩ := bytesSpell even decoded
        rw [List.map_cons, ← asciiUpper ascii, spelled, ofBytesSpell read]
        rfl
  · cases read

theorem capitalInjective : ∀ a < 16, ∀ b < 16, capital a = capital b → a = b := by
  decide +kernel

theorem bytesInjective {these those : List UInt8}
    (same : these.flatMap byteText = those.flatMap byteText) : these = those := by
  induction these generalizing those with
  | nil =>
    cases those with
    | nil => rfl
    | cons b rest => cases same
  | cons a rest ih =>
    cases those with
    | nil => cases same
    | cons b others =>
      obtain ⟨first, later⟩ := List.cons.inj same
      obtain ⟨second, later⟩ := List.cons.inj later
      have aSmall := a.toNat_lt
      have bSmall := b.toNat_lt
      have high := capitalInjective (a.toNat / 16) (by omega) (b.toNat / 16) (by omega) first
      have low := capitalInjective (a.toNat % 16) (by omega) (b.toNat % 16) (by omega) second
      have one : a = b := UInt8.toNat_inj.mp (by omega)
      rw [one, ih later]

theorem offsetBytes {a b : UInt16} (high : (a / 256).toUInt8 = (b / 256).toUInt8)
    (low : a.toUInt8 = b.toUInt8) : a = b := by
  have one := a.toNat_lt
  have two := b.toNat_lt
  have upper := congrArg UInt8.toNat high
  have lower := congrArg UInt8.toNat low
  rw [UInt16.toNat_toUInt8, UInt16.toNat_toUInt8] at lower
  rw [UInt16.toNat_toUInt8, UInt16.toNat_toUInt8, UInt16.toNat_div, UInt16.toNat_div] at upper
  change a.toNat / 256 % 256 = b.toNat / 256 % 256 at upper
  exact UInt16.toNat_inj.mp (by omega)

theorem toLineInjective {r q : Record} (same : r.toLine = q.toLine) : r = q := by
  have bytes : r.toBytes = q.toBytes := bytesInjective (List.cons.inj same).2
  simp only [toBytes, List.cons_append, List.cons.injEq] at bytes
  obtain ⟨-, high, low, kind, rest⟩ := bytes
  have offset := offsetBytes high low
  have data := congrArg List.dropLast rest
  rw [List.dropLast_concat, List.dropLast_concat] at data
  have kinds := congrArg Kind.ofByte? kind
  rw [Kind.ofByteByte, Kind.ofByteByte] at kinds
  obtain ⟨k, o, d⟩ := r
  cases offset
  cases data
  cases kinds
  rfl

end VirtualBoard.Image.Record
