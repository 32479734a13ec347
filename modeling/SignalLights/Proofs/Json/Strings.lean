import SignalLights.Json.Lexis
import SignalLights.Json.Writer

/-!
# Strings read back

A character stands for itself or is escaped, by a letter or by its number (`SpellsChar`), and from
each of its spellings it is read back. So is every text, up to the quote that closes it
(`string_spelled`), in particular the one that is written. A string that is passed over may also
have surrogates that stand for no character (`IsLiteral`).
-/

namespace SignalLights.Json

/-! ## Spellings -/

/-- A character of a string as itself, with the letter or the number of its escape, or as two
surrogates. -/
inductive SpellsChar : Char → List Char → Prop
  | plain {c} (hprintable : 0x20 ≤ c.toNat) (hquote : c ≠ '"') (hbackslash : c ≠ '\\') :
      SpellsChar c [c]
  | letter {l c} (h : escaped? l = some c) : SpellsChar c ['\\', l]
  | number {a b d e c} (h : hex4? a b d e = some c.toNat) : SpellsChar c ['\\', 'u', a, b, d, e]
  | pair {a b d e a' b' d' e' high low} (h : hex4? a b d e = some high)
      (h' : hex4? a' b' d' e' = some low) (hhigh : isHighSurrogate high)
      (hlow : isLowSurrogate low) :
      SpellsChar (joinSurrogates high low)
        ['\\', 'u', a, b, d, e, '\\', 'u', a', b', d', e']

/-- The characters of a string, and what stands for them between the quotes. -/
inductive Spells : List Char → List Char → Prop
  | nil : Spells [] []
  | cons {c cs s t} (hc : SpellsChar c s) (hcs : Spells cs t) : Spells (c :: cs) (s ++ t)

/-- What stands between quotes, surrogates in any order. -/
inductive IsLiteral : List Char → Prop
  | nil : IsLiteral []
  | plain {c t} (hprintable : 0x20 ≤ c.toNat) (hquote : c ≠ '"') (hbackslash : c ≠ '\\')
      (ht : IsLiteral t) : IsLiteral (c :: t)
  | letter {l t} (hl : (escaped? l).isSome) (ht : IsLiteral t) : IsLiteral ('\\' :: l :: t)
  | number {a b d e t} (hn : (hex4? a b d e).isSome) (ht : IsLiteral t) :
      IsLiteral ('\\' :: 'u' :: a :: b :: d :: e :: t)

/-- No character is a surrogate. -/
theorem isSurrogate_toNat (c : Char) :
    isHighSurrogate c.toNat = false ∧ isLowSurrogate c.toNat = false := by
  have hvalid : c.toNat < 0xd800 ∨ 0xdfff < c.toNat ∧ c.toNat < 0x110000 := c.valid
  simp only [isHighSurrogate, isLowSurrogate, Bool.and_eq_false_iff, decide_eq_false_iff_not]
  omega

/-- The letter of an escape is not the one that a number follows. -/
theorem ne_of_escaped? {l c : Char} (h : escaped? l = some c) : l ≠ 'u' := by
  rintro rfl
  cases h

theorem string_spelledChar {c : Char} {t : List Char} (h : SpellsChar c t) (s : List Char) :
    string (t ++ s) = cons? c (string s) := by
  cases h with
  | plain hprintable hquote hbackslash =>
    rw [List.singleton_append, string]
    · rw [if_neg (by simp only [hbackslash, or_false]; omega)]
    all_goals simp_all
  | letter h =>
    have hletter := ne_of_escaped? h
    simp [string, h, hletter]
  | number h =>
    obtain ⟨hhigh, hlow⟩ := isSurrogate_toNat c
    simp [string, h, hhigh, hlow]
  | pair h h' hhigh hlow => simp [string, h, h', hhigh, hlow]

/-- A text is read back from each of its spellings, up to the quote that closes it. -/
theorem string_spelled {cs t : List Char} (h : Spells cs t) (s : List Char) :
    string (t ++ '"' :: s) = some (cs, s) := by
  induction h with
  | nil => rfl
  | cons hc hcs ih => rw [List.append_assoc, string_spelledChar hc, ih, cons?]

theorem skipString_literal {t : List Char} (h : IsLiteral t) (s : List Char) :
    skipString (t ++ '"' :: s) = some s := by
  induction h with
  | nil => rfl
  | plain hprintable hquote hbackslash _ ih =>
    rw [List.cons_append, skipString]
    · rw [if_neg (by simp only [hbackslash, or_false]; omega), ih]
    all_goals simp_all
  | letter hl _ ih =>
    obtain ⟨c, hc⟩ := Option.isSome_iff_exists.1 hl
    have hletter := ne_of_escaped? hc
    simp [skipString, hl, hletter, ih]
  | number hn _ ih => simp [skipString, hn, ih]

/-! ## Strings as they are written -/

theorem hexDigit?_digitChar {d : Nat} (hd : d < 16) : hexDigit? d.digitChar = some d := by
  decide +revert

/-- The escape of a control character by its number. -/
theorem hex4?_hexPair {n : Nat} (hn : n < 0x100) :
    hex4? '0' '0' (n / 16).digitChar (n % 16).digitChar = some n := by
  have hhigh := hexDigit?_digitChar (d := n / 16) (by omega)
  have hlow := hexDigit?_digitChar (d := n % 16) (by omega)
  have hzero : hexDigit? '0' = some 0 := by decide
  simp only [hex4?, hzero, hhigh, hlow, Option.bind_eq_bind, Option.bind_some, Option.pure_def,
    Option.some.injEq]
  omega

theorem spellsChar_escape (c : Char) : SpellsChar c (Writer.escape c) := by
  unfold Writer.escape
  -- one case a letter that has an escape of its own
  iterate 7
    split
    · next hc =>
      subst hc
      exact .letter rfl
  split
  · exact .number (hex4?_hexPair (by omega))
  · next hquote hbackslash _ _ _ _ _ hprintable =>
    exact .plain (Nat.not_lt.1 hprintable) hquote hbackslash

theorem spells_escape (t : List Char) : Spells t (t.flatMap Writer.escape) := by
  induction t with
  | nil => exact .nil
  | cons c t ih => exact .cons (spellsChar_escape c) ih

theorem string_text (t s : List Char) :
    string (t.flatMap Writer.escape ++ '"' :: s) = some (t, s) :=
  string_spelled (spells_escape t) s

end SignalLights.Json
