import Mathlib.Algebra.Group.Nat.Defs
import SignalLights.Json.Writer
import SignalLights.Proofs.Decimal.Shortest
import SignalLights.Proofs.Json.Numerals

/-!
# Numbers read back

A whole number of 64 bits is read back from its digits. A finite double is written as a numeral
that is rounded as its shortest decimal, in every layout of the style of JSON (`Denotes`), and so is
read back bit for bit (`number_write`).
-/

namespace SignalLights.Json

variable {s : List Char}

/-! ## Lists of digits -/

theorem areDigits_digits (m : Nat) : AreDigits (Decimal.digits m) :=
  ⟨Decimal.digits_ne_nil m, fun _ => Decimal.isDigit_of_mem_digits⟩

theorem areDigits_zero : AreDigits ['0'] := by
  refine ⟨List.cons_ne_nil _ _, fun c hc => ?_⟩
  rw [List.mem_singleton.1 hc]
  rfl

/-- Zeros around the digits of a number, and a part of them, are digits. -/
theorem areDigits_of_mem {ds : List Char} {m : Nat} (hne : 0 < ds.length)
    (h : ∀ c ∈ ds, c = '0' ∨ c ∈ Decimal.digits m) : AreDigits ds := by
  refine ⟨List.length_pos_iff.1 hne, fun c hc => ?_⟩
  rcases h c hc with rfl | hc
  · decide
  · exact Decimal.isDigit_of_mem_digits hc

namespace Numeral

/-! ## Layouts of a decimal -/

/-- A numeral that stands for a decimal, with a point or a power of ten. -/
structure Denotes (n : Numeral) (d : Decimal) : Prop where
  proper : n.Proper
  fractional : n.fraction.isSome ∨ n.power.isSome
  nearest : n.decimal.nearest = d.nearest

variable {n : Numeral} {d : Decimal}

theorem Denotes.number? (h : n.Denotes d) (hd : d.nearest < Binary64.infinityWord) :
    n.number? = some (.double (.ofMagnitude n.negative d.nearest)) := by
  have hdouble : n.number? = n.double? := by
    have hfractional := h.fractional
    unfold Numeral.number?
    split
    · next hfraction hpower => simp [hfraction, hpower] at hfractional
    · rfl
  rw [hdouble, double?, h.nearest, if_neg (Nat.ne_of_lt hd), Decimal.toBinary64, h.nearest]

/-- The digits of a numeral may end in zeros that its decimal does not have. -/
theorem nearest_of_value (j : Nat) (hfew : n.allDigits.length ≤ toldApart)
    (hvalue : value n.allDigits = d.coefficient * 10 ^ j)
    (hexponent : n.exponent - (n.fraction.getD []).length + j = d.exponent) :
    n.decimal.nearest = d.nearest := by
  rw [nearest_decimal hfew, hvalue, Decimal.nearest_shift, hexponent]

/-- A decimal in the range of the doubles, zero in one form only. -/
structure Moderate (d : Decimal) : Prop where
  zero : d.coefficient = 0 → d.exponent = 0
  exponent : -324 ≤ d.exponent
  length : (Decimal.digits d.coefficient).length + d.exponent ≤ 309

theorem Moderate.head?_digits (hd : Moderate d) (h : d.exponent ≠ 0) :
    (Decimal.digits d.coefficient).head? ≠ some '0' :=
  Decimal.head?_digits_ne (Nat.pos_of_ne_zero fun hzero => h (hd.zero hzero))

/-- A whole number with a zero after its point. -/
theorem denotes_whole (negative : Bool) (hd : Moderate d) (h : 0 ≤ d.exponent) :
    Denotes ⟨negative, Decimal.digits d.coefficient ++ List.replicate d.exponent.toNat '0',
      some ['0'], none⟩ d := by
  have hlength := hd.length
  have hpos := Decimal.length_digits_pos d.coefficient
  refine ⟨⟨?_, ?_, fun h => Option.some.inj h ▸ areDigits_zero, nofun⟩, .inl rfl, ?_⟩
  · exact areDigits_of_mem (m := d.coefficient) (by rw [List.length_append]; omega) (by grind)
  · rcases Nat.eq_zero_or_pos d.coefficient with hzero | hsome
    · left
      rw [hzero, hd.zero hzero]
      rfl
    · right
      rw [← Decimal.digits_mul_pow hsome]
      exact Decimal.head?_digits_ne (Nat.mul_pos hsome (Nat.pow_pos (by decide)))
  · refine nearest_of_value (d.exponent.toNat + 1) ?_ ?_ ?_
    · simp only [allDigits, toldApart, Option.getD_some, List.length_append, List.length_replicate,
        List.length_singleton]
      omega
    · rw [allDigits, Option.getD_some, List.append_assoc, ← List.replicate_succ',
        value_append_zeros, value_digits]
    · simp only [exponent, Option.getD_some, List.length_singleton]
      omega

/-- A point among the digits. -/
theorem denotes_split (negative : Bool) (hd : Moderate d) {k : Nat} (hk : d.exponent = -k)
    (hpos : 0 < k) (hinside : k < (Decimal.digits d.coefficient).length) :
    Denotes ⟨negative,
      (Decimal.digits d.coefficient).take ((Decimal.digits d.coefficient).length - k),
      some ((Decimal.digits d.coefficient).drop ((Decimal.digits d.coefficient).length - k)),
      none⟩ d := by
  have hlength := hd.length
  have hlow := hd.exponent
  have hlead := hd.head?_digits (by omega)
  refine ⟨⟨?_, .inr ?_, fun h => Option.some.inj h ▸ ?_, nofun⟩, .inl rfl, ?_⟩
  · exact areDigits_of_mem (m := d.coefficient) (by rw [List.length_take]; omega)
      fun c hc => .inr (List.mem_of_mem_take hc)
  · rwa [List.head?_take, if_neg (by omega)]
  · exact areDigits_of_mem (m := d.coefficient) (by rw [List.length_drop]; omega)
      fun c hc => .inr (List.mem_of_mem_drop hc)
  · refine nearest_of_value 0 ?_ ?_ ?_
    · rw [allDigits, Option.getD_some, List.take_append_drop, toldApart]
      omega
    · rw [allDigits, Option.getD_some, List.take_append_drop, value_digits, Nat.pow_zero,
        Nat.mul_one]
    · simp only [exponent, Option.getD_some, List.length_drop]
      omega

/-- Zeros between the point and the digits. -/
theorem denotes_below (negative : Bool) (hd : Moderate d) {k : Nat} (hk : d.exponent = -k)
    (hbelow : (Decimal.digits d.coefficient).length ≤ k) :
    Denotes ⟨negative, ['0'],
      some (List.replicate (k - (Decimal.digits d.coefficient).length) '0' ++
        Decimal.digits d.coefficient), none⟩ d := by
  have hlow := hd.exponent
  have hpos := Decimal.length_digits_pos d.coefficient
  refine ⟨⟨areDigits_zero, .inl rfl, fun h => Option.some.inj h ▸ ?_, nofun⟩, .inl rfl, ?_⟩
  · exact areDigits_of_mem (m := d.coefficient) (by rw [List.length_append]; omega) (by grind)
  · refine nearest_of_value 0 ?_ ?_ ?_
    · simp only [allDigits, toldApart, Option.getD_some, List.length_append, List.length_replicate,
        List.length_singleton]
      omega
    · rw [allDigits, Option.getD_some, ← List.replicate_one, value_zeros, value_zeros,
        value_digits, Nat.pow_zero, Nat.mul_one]
    · simp only [exponent, Option.getD_some, List.length_append, List.length_replicate]
      omega

theorem exponent_power {negative : Bool} {whole : List Char} {fraction : Option (List Char)}
    (m : Int) :
    exponent ⟨negative, whole, fraction, some (decide (m < 0), Decimal.digits m.natAbs)⟩ = m := by
  by_cases h : m < 0 <;> simp only [exponent, h, decide_true, decide_false, value_digits] <;> omega

/-- A point after the first digit, and a power of ten. -/
theorem denotes_power (negative : Bool) (hd : Moderate d) (hcoefficient : 0 < d.coefficient) :
    Denotes ⟨negative, (Decimal.digits d.coefficient).take 1,
      if (Decimal.digits d.coefficient).length = 1 then none
        else some ((Decimal.digits d.coefficient).drop 1),
      some (decide (d.scale - 1 < 0), Decimal.digits (d.scale - 1).natAbs)⟩ d := by
  have hlength := hd.length
  have hlow := hd.exponent
  have hpos := Decimal.length_digits_pos d.coefficient
  have hlead := Decimal.head?_digits_ne hcoefficient
  have hfraction : (if (Decimal.digits d.coefficient).length = 1 then none
      else some ((Decimal.digits d.coefficient).drop 1)).getD [] =
        (Decimal.digits d.coefficient).drop 1 := by
    split
    · next hone => rw [Option.getD_none, List.drop_eq_nil_of_le (by omega)]
    · rfl
  refine ⟨⟨?_, .inr ?_, fun h => ?_, fun h => ?_⟩, .inr rfl, ?_⟩
  · exact areDigits_of_mem (m := d.coefficient) (by rw [List.length_take]; omega)
      fun c hc => .inr (List.mem_of_mem_take hc)
  · rwa [List.head?_take, if_neg (by decide)]
  · rw [Option.ite_none_left_eq_some] at h
    obtain ⟨hmore, hdrop⟩ := h
    refine Option.some.inj hdrop ▸ areDigits_of_mem (m := d.coefficient) ?_ ?_
    · rw [List.length_drop]
      omega
    · exact fun c hc => .inr (List.mem_of_mem_drop hc)
  · simp only [Option.some.injEq, Prod.mk.injEq] at h
    exact h.2 ▸ areDigits_digits _
  · refine nearest_of_value 0 ?_ ?_ ?_
    · rw [allDigits, hfraction, List.take_append_drop, toldApart]
      omega
    · rw [allDigits, hfraction, List.take_append_drop, value_digits, Nat.pow_zero, Nat.mul_one]
    · rw [hfraction, List.length_drop, exponent_power, Decimal.scale, ← Decimal.digits]
      omega

/-! ## Texts -/

theorem exists_positional (negative : Bool) (hd : Moderate d) :
    ∃ n : Numeral, n.negative = negative ∧ n.Denotes d ∧
      n.text = signText negative ++ numberStyle.positional d := by
  have hpos := Decimal.length_digits_pos d.coefficient
  unfold Decimal.Style.positional
  dsimp only
  split
  · refine ⟨_, rfl, denotes_whole negative hd (by omega), ?_⟩
    simp [text, fractionText, powerText, numberStyle]
  split
  · refine ⟨_, rfl, denotes_split negative hd (k := (-d.exponent).toNat) ?_ ?_ ?_, ?_⟩
    · omega
    · omega
    · assumption
    · simp [text, fractionText, powerText]
  · refine ⟨_, rfl, denotes_below negative hd (k := (-d.exponent).toNat) ?_ ?_, ?_⟩
    · omega
    · omega
    · simp [text, fractionText, powerText]

theorem exists_scientific (negative : Bool) (hd : Moderate d) (hcoefficient : 0 < d.coefficient) :
    ∃ n : Numeral, n.negative = negative ∧ n.Denotes d ∧
      n.text = signText negative ++ Decimal.Style.scientific d := by
  refine ⟨_, rfl, denotes_power negative hd hcoefficient, ?_⟩
  unfold Decimal.Style.scientific
  by_cases hone : (Decimal.digits d.coefficient).length = 1 <;>
    simp [text, hone, fractionText, powerText]

end Numeral

/-! ## Doubles and whole numbers -/

theorem moderate_shortest (tie : Decimal.TieRule) {w : Nat} (hw : 0 < w)
    (hw' : w < Binary64.infinityWord) : Numeral.Moderate (Decimal.shortest tie w) where
  zero h := absurd h (Nat.ne_of_gt (Decimal.coefficient_shortest_pos tie hw))
  exponent := Decimal.exponent_shortest_ge tie hw
  length := Decimal.scale_shortest_le tie hw hw'

/-- A finite double is written as a numeral that is rounded to its magnitude. -/
theorem exists_numeral_write {x : Binary64} (hx : x.isFinite) :
    ∃ n : Numeral, ∃ d : Decimal, n.negative = x.negative ∧ n.Denotes d ∧
      d.nearest = x.magnitude ∧ n.text = numberStyle.write x := by
  have hfinite : x.magnitude < Binary64.infinityWord := of_decide_eq_true hx
  change ∃ n : Numeral, ∃ d : Decimal, n.negative = x.negative ∧ n.Denotes d ∧
    d.nearest = x.magnitude ∧
      n.text = Numeral.signText x.negative ++ numberStyle.magnitude x.magnitude
  unfold Decimal.Style.magnitude
  split
  · next hzero =>
    obtain ⟨n, hsign, hn, htext⟩ := Numeral.exists_positional (d := ⟨0, 0⟩) x.negative
      ⟨fun _ => rfl, by decide, by decide⟩
    exact ⟨n, _, hsign, hn, by rw [hzero]; rfl, htext⟩
  · next hzero =>
    have hpos := Nat.pos_of_ne_zero hzero
    have hd := moderate_shortest numberStyle.tie hpos hfinite
    have hnearest := Decimal.nearest_shortest numberStyle.tie hpos hfinite
    unfold Decimal.Style.decimal
    split
    · obtain ⟨n, hsign, hn, htext⟩ := Numeral.exists_scientific x.negative hd
        (Decimal.coefficient_shortest_pos _ hpos)
      exact ⟨n, _, hsign, hn, hnearest, htext⟩
    · obtain ⟨n, hsign, hn, htext⟩ := Numeral.exists_positional x.negative hd
      exact ⟨n, _, hsign, hn, hnearest, htext⟩

/-- A finite double is read back bit for bit. -/
theorem number_write {x : Binary64} (hx : x.isFinite) (hs : endsNumber s) :
    number (numberStyle.write x ++ s) = some (.double x, s) := by
  obtain ⟨n, d, hsign, hn, hnearest, htext⟩ := exists_numeral_write hx
  have hfinite : d.nearest < Binary64.infinityWord := by
    rw [hnearest]
    exact of_decide_eq_true hx
  rw [number, ← htext, Numeral.numeral_spelled hn.proper n.spelled_text hs]
  simp only [hn.number? hfinite, hnearest, hsign, Option.map_some, Binary64.ofMagnitude_magnitude]

/-- The least double above zero has one digit, though its exact value has 751. -/
example : numberStyle.write ⟨1⟩ = ['5', 'e', '-', '3', '2', '4'] := by decide +kernel

theorem exists_startsNumber_write {x : Binary64} (hx : x.isFinite) :
    ∃ c cs, numberStyle.write x = c :: cs ∧ startsNumber c := by
  obtain ⟨n, _, -, hn, -, htext⟩ := exists_numeral_write hx
  rw [← htext]
  exact Numeral.exists_startsNumber_spelled hn.proper n.spelled_text

theorem exists_startsNumber_digits (m : Nat) :
    ∃ c cs, Decimal.digits m = c :: cs ∧ startsNumber c := by
  obtain ⟨c, cs, hcs, hc⟩ := (areDigits_digits m).exists_cons
  exact ⟨c, cs, hcs, by rw [startsNumber, hc, Bool.or_true]⟩

/-- A whole number of 64 bits is read back. -/
theorem number_digits {m : Nat} (hm : m < 0x10000000000000000) (hs : endsNumber s) :
    number (Decimal.digits m ++ s) = some (.whole m, s) := by
  have hproper : Numeral.Proper ⟨false, Decimal.digits m, none, none⟩ := by
    refine ⟨areDigits_digits m, ?_, nofun, nofun⟩
    rcases Nat.eq_zero_or_pos m with rfl | hpos
    · exact .inl rfl
    · exact .inr (Decimal.head?_digits_ne hpos)
  have htext : Numeral.text ⟨false, Decimal.digits m, none, none⟩ = Decimal.digits m := by
    simp [Numeral.text, Numeral.signText, Numeral.fractionText, Numeral.powerText]
  have hnumeral := Numeral.numeral_spelled hproper (Numeral.spelled_text _) hs
  rw [htext] at hnumeral
  rw [number, hnumeral]
  simp only [Numeral.number?, Numeral.value_digits, Bool.false_eq_true, if_false]
  rw [if_pos hm, Option.map_some]

end SignalLights.Json
