import Mathlib.Algebra.Group.Nat.Defs
import SignalLights.Packed.Codec

/-!
# Numbers as bytes

A number below the bound of its width is read back from its groups, whatever follows them. Read from
fewer bytes it is found to be incomplete, and no other groups of the same number are fewer, since
only leading groups of zero can be added. A word of fixed length is read back from its bytes, and
from no fewer.
-/

namespace SignalLights.Packed

variable {lastByte k n : Nat} {s rest : Bytes}

/-! ## Groups of seven bits -/

theorem toNat_ofNat_of_lt (h : n < 256) : (UInt8.ofNat n).toNat = n := by
  rw [UInt8.toNat_ofNat']
  omega

/-- The groups of a number are read back. -/
theorem readGroups_writeGroups (h : n < 128 ^ k * (lastByte + 1)) (hlast : lastByte < 128)
    (rest : Bytes) :
    readGroups lastByte (k + 1) (writeGroups (k + 1) n ++ rest) = .ok (n, rest) := by
  induction k generalizing n with
  | zero =>
    have hsmall : n < 128 := by omega
    have hbyte : (UInt8.ofNat n).toNat = n := toNat_ofNat_of_lt (by omega)
    simp only [writeGroups, if_pos hsmall, List.cons_append, List.nil_append, readGroups, hbyte]
    rw [if_neg (by omega)]
  | succ k ih =>
    rw [writeGroups]
    split
    · next hsmall =>
      have hbyte : (UInt8.ofNat n).toNat = n := toNat_ofNat_of_lt (by omega)
      simp only [List.cons_append, List.nil_append, readGroups, hbyte]
      rw [if_pos hsmall, if_neg (by omega)]
    · next hlarge =>
      have hbyte : (UInt8.ofNat (n % 128 + 128)).toNat = n % 128 + 128 :=
        toNat_ofNat_of_lt (by omega)
      have hrest : n / 128 < 128 ^ k * (lastByte + 1) := by
        rw [Nat.div_lt_iff_lt_mul (by decide)]
        rwa [Nat.pow_succ, Nat.mul_right_comm] at h
      rw [List.cons_append, readGroups, hbyte, if_neg (by omega), ih hrest]
      simp only [Except.ok.injEq, Prod.mk.injEq, and_true]
      omega

/-- Groups that are cut off are incomplete. -/
theorem readGroups_cut {cut more : Bytes} (h : writeGroups (k + 1) n = cut ++ more)
    (hmore : more ≠ []) : readGroups lastByte (k + 1) cut = .error .unexpectedEnd := by
  induction k generalizing n cut with
  | zero =>
    obtain ⟨b, hb⟩ : ∃ b, writeGroups 1 n = [b] := by
      rw [writeGroups]
      split
      · exact ⟨_, rfl⟩
      · exact ⟨_, rfl⟩
    rw [hb, eq_comm, List.append_eq_singleton_iff] at h
    rcases h with ⟨rfl, -⟩ | ⟨-, hnone⟩
    · rfl
    · exact absurd hnone hmore
  | succ k ih =>
    cases cut with
    | nil => rfl
    | cons b cut =>
      rw [writeGroups] at h
      split at h
      · rw [List.cons_append, List.cons.injEq, List.nil_eq_append_iff] at h
        exact absurd h.2.2 hmore
      · rw [List.cons_append, List.cons.injEq] at h
        obtain ⟨rfl, hrest⟩ := h
        rw [readGroups, toNat_ofNat_of_lt (by omega), if_neg (by omega), ih hrest]

/-- Whatever a number is read from, it is within the bound, and its own groups are no more. -/
theorem of_readGroups
    (h : readGroups lastByte (k + 1) s = .ok (n, rest)) :
    n < 128 ^ k * (lastByte + 1) ∧
      ∃ used, s = used ++ rest ∧ (writeGroups (k + 1) n).length ≤ used.length := by
  induction k generalizing n s with
  | zero =>
    cases s with
    | nil => simp [readGroups] at h
    | cons b r =>
      rw [readGroups] at h
      split at h
      · next hsmall =>
        split at h
        · cases h
        · next hfits =>
          cases h
          refine ⟨by omega, [b], rfl, ?_⟩
          simp [writeGroups, hsmall]
      · cases h
  | succ k ih =>
    cases s with
    | nil => simp [readGroups] at h
    | cons b r =>
      rw [readGroups] at h
      split at h
      · next hsmall =>
        rw [if_neg (by omega)] at h
        cases h
        refine ⟨?_, [b], rfl, by simp [writeGroups, hsmall]⟩
        have hpos : 0 < 128 ^ k * (lastByte + 1) := Nat.mul_pos (Nat.pow_pos (by decide)) (by omega)
        rw [Nat.pow_succ, Nat.mul_right_comm]
        omega
      · next hlarge =>
        split at h
        · cases h
        · next m r' hr =>
          cases h
          obtain ⟨hm, used, rfl, hused⟩ := ih hr
          have hbyte := b.toNat_lt
          have hdiv : (b.toNat - 128 + 128 * m) / 128 = m := by omega
          refine ⟨?_, b :: used, rfl, ?_⟩
          · rw [Nat.pow_succ, Nat.mul_right_comm]
            omega
          · rw [writeGroups]
            split
            · simp
            · rw [hdiv]
              simpa using hused

/-- A smaller number has no more groups. -/
theorem length_writeGroups_mono {m : Nat} (h : m ≤ n) :
    (writeGroups k m).length ≤ (writeGroups k n).length := by
  induction k generalizing m n with
  | zero => exact Nat.le_refl _
  | succ k ih =>
    have hdiv := ih (Nat.div_le_div_right (c := 128) h)
    simp only [writeGroups]
    split <;> split <;> simp <;> omega

/-! ## Words of fixed length -/

@[simp] theorem length_writeWord (k n : Nat) : (writeWord k n).length = k := by
  induction k generalizing n with
  | zero => rfl
  | succ k ih => simp [writeWord, ih]

theorem readWord_writeWord (h : n < 256 ^ k) (rest : Bytes) :
    readWord k (writeWord k n ++ rest) = .ok (n, rest) := by
  induction k generalizing n with
  | zero =>
    obtain rfl : n = 0 := by simpa using h
    rfl
  | succ k ih =>
    have hrest : n / 256 < 256 ^ k := by
      rwa [Nat.div_lt_iff_lt_mul (by decide), ← Nat.pow_succ]
    rw [writeWord, List.cons_append, readWord, ih hrest, toNat_ofNat_of_lt (by omega)]
    simp only [Except.ok.injEq, Prod.mk.injEq, and_true]
    omega

theorem readWord_short (h : s.length < k) : readWord k s = .error .unexpectedEnd := by
  induction k generalizing s with
  | zero => omega
  | succ k ih =>
    cases s with
    | nil => rfl
    | cons b s => rw [readWord, ih (by simpa using h)]

theorem of_readWord (h : readWord k s = .ok (n, rest)) :
    n < 256 ^ k ∧ ∃ used, s = used ++ rest ∧ used.length = k := by
  induction k generalizing n s with
  | zero =>
    cases h
    exact ⟨by simp, [], rfl, rfl⟩
  | succ k ih =>
    cases s with
    | nil => cases h
    | cons b s =>
      rw [readWord] at h
      split at h
      · cases h
      · next m r hr =>
        cases h
        obtain ⟨hm, used, rfl, rfl⟩ := ih hr
        have hbyte := b.toNat_lt
        refine ⟨?_, b :: used, rfl, rfl⟩
        rw [Nat.pow_succ]
        omega

end SignalLights.Packed
