import SignalLights.Enumerated

/-!
# Status codes

The status display owns its animations and is told which one to show by a small number, sent in
ASCII decimal without a terminator.
-/

namespace SignalLights

inductive StatusCode where
  | off
  | blueYellowAlternating
  | yellow
  | flashingYellow
  | fadeGreen
  | flashingGreen
  | flashingRed
  | red
  | blue
  | flashingBlue
  | fadeBlue
  | yellowChasingBlue
deriving DecidableEq, Repr

instance : Enumerated StatusCode where
  all := [.off, .blueYellowAlternating, .yellow, .flashingYellow, .fadeGreen, .flashingGreen,
    .flashingRed, .red, .blue, .flashingBlue, .fadeBlue, .yellowChasingBlue]
  name
    | .off => "Off"
    | .blueYellowAlternating => "BlueYellowAlternating"
    | .yellow => "Yellow"
    | .flashingYellow => "FlashingYellow"
    | .fadeGreen => "FadeGreen"
    | .flashingGreen => "FlashingGreen"
    | .flashingRed => "FlashingRed"
    | .red => "Red"
    | .blue => "Blue"
    | .flashingBlue => "FlashingBlue"
    | .fadeBlue => "FadeBlue"
    | .yellowChasingBlue => "YellowChasingBlue"
  mem_all a := by cases a <;> decide
  name_injective a b := by cases a <;> cases b <;> decide

/-- A text of ASCII characters has a byte for each. -/
theorem toUTF8_ofList {cs : List Char} (h : ∀ c ∈ cs, c.toNat < 128) :
    (String.ofList cs).toUTF8.data.toList = cs.map fun c => UInt8.ofNat c.toNat := by
  have hbytes : cs.flatMap String.utf8EncodeChar = cs.map fun c => UInt8.ofNat c.toNat := by
    induction cs with
    | nil => rfl
    | cons c cs ih =>
      obtain ⟨hc, hcs⟩ := List.forall_mem_cons.1 h
      have hsize : c.utf8Size = 1 := by
        rw [Char.utf8Size_eq_one_iff, UInt32.le_iff_toNat_le]
        exact Nat.le_of_lt_succ hc
      rw [List.flatMap_cons, String.utf8EncodeChar_eq_singleton hsize, ih hcs]
      rfl
  rw [String.toUTF8_eq_toByteArray, String.toByteArray_ofList, List.utf8Encode, hbytes,
    List.data_toByteArray]

namespace StatusCode

def name (c : StatusCode) : String := Enumerated.name c
def code (c : StatusCode) : Nat := Enumerated.index c
def ofCode? (n : Nat) : Option StatusCode := Enumerated.ofIndex? n

theorem ofCode?_code (c : StatusCode) : ofCode? c.code = some c := Enumerated.ofIndex?_index c

theorem code_injective {c d : StatusCode} (h : c.code = d.code) : c = d :=
  Option.some.inj (by rw [← ofCode?_code, h, ofCode?_code])

/-! ## Frames -/

/-- The decimal digits of the code. -/
def digits (c : StatusCode) : List Char := Nat.toDigits 10 c.code

/-- The frame that makes the display show the code: its digits, a byte for each. -/
def frame (c : StatusCode) : List UInt8 := c.digits.map fun d => UInt8.ofNat d.toNat

theorem length_frame_le (c : StatusCode) : c.frame.length ≤ 2 := by cases c <;> decide

theorem toNat_lt_of_mem_digits {c : StatusCode} {d : Char} (h : d ∈ c.digits) : d.toNat < 128 := by
  have hdigit := Nat.isDigit_of_mem_toDigits (by decide) (by decide) h
  rw [Char.isDigit, Bool.and_eq_true, decide_eq_true_eq, decide_eq_true_eq] at hdigit
  have hle : d.toNat ≤ 57 := hdigit.2
  omega

/-- A frame is the code as a decimal number in ASCII. -/
theorem frame_eq_toUTF8 (c : StatusCode) : c.frame = (toString c.code).toUTF8.data.toList := by
  rw [Nat.toString_eq_ofList_toDigits]
  exact (toUTF8_ofList fun d hd => toNat_lt_of_mem_digits hd).symm

theorem frame_injective {c d : StatusCode} (h : c.frame = d.frame) : c = d := by
  rw [frame_eq_toUTF8, frame_eq_toUTF8] at h
  have htext : toString c.code = toString d.code :=
    String.toByteArray_inj.1 (ByteArray.ext (Array.toList_inj.1 h))
  rw [Nat.toString_eq_ofList_toDigits, Nat.toString_eq_ofList_toDigits, String.ofList_inj] at htext
  apply code_injective
  rw [← Nat.ofDigitChars_ten_toDigits (n := c.code), htext, Nat.ofDigitChars_ten_toDigits]

end StatusCode
end SignalLights
