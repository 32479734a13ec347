import SignalLights.Proofs.Packed.Numbers

/-!
# Lawful codecs

What a codec is good for: a value is read back whatever follows its bytes, a value cut off is found
to be incomplete, and no bytes that are read as a value are fewer than those it is written to. The
laws hold of the basic codecs and are kept by every way to put codecs together, so each record and
each variant has them by its construction.
-/

namespace SignalLights.Packed

namespace Codec

variable {α β : Type}

/-- The laws of a codec for the values that fit it. -/
structure Lawful (c : Codec α) (fits : α → Prop) : Prop where
  /-- A value is read back, with what follows it left over. -/
  read_write : ∀ {a}, fits a → ∀ rest, c.read (c.write a ++ rest) = .ok (a, rest)
  /-- A value that is cut off is incomplete. -/
  read_cut : ∀ {a}, fits a → ∀ {cut more}, c.write a = cut ++ more → more ≠ [] →
    c.read cut = .error .unexpectedEnd
  /-- What is read fits, so its own bytes are read back as it is; and it was read from no fewer
  bytes than those. -/
  of_read : ∀ {s a rest}, c.read s = .ok (a, rest) →
    fits a ∧ ∃ used, s = used ++ rest ∧ (c.write a).length ≤ used.length

variable {c : Codec α} {d : Codec β} {fits : α → Prop} {fits' : β → Prop}

theorem Lawful.congr (h : c.Lawful fits) {P : α → Prop} (hP : ∀ a, fits a ↔ P a) : c.Lawful P := by
  obtain rfl : fits = P := funext fun a => propext (hP a)
  exact h

/-- A part that is cut off cuts off the whole: either the first part is, or what comes after it. -/
theorem cut_append {xs ys cut more : Bytes} (h : xs ++ ys = cut ++ more) (hmore : more ≠ []) :
    (∃ more', xs = cut ++ more' ∧ more' ≠ []) ∨ ∃ cut', cut = xs ++ cut' ∧ ys = cut' ++ more := by
  rcases List.append_eq_append_iff.1 h with ⟨zs, rfl, rfl⟩ | ⟨zs, rfl, rfl⟩
  · exact .inr ⟨zs, rfl, rfl⟩
  · cases zs with
    | nil => exact .inr ⟨[], by simp, by simp⟩
    | cons z zs => exact .inl ⟨z :: zs, rfl, by simp⟩

/-! ## Ways to put codecs together -/

theorem Lawful.map (h : c.Lawful fits) {f : α → β} {g : β → α} (hfg : ∀ b, f (g b) = b)
    (hgf : ∀ a, fits a → g (f a) = a) : (c.map f g).Lawful fun b => fits (g b) where
  read_write {b} hb rest := by
    simp only [Codec.map, h.read_write hb, hfg]
  read_cut {b} hb cut more hcut hmore := by
    simp only [Codec.map, h.read_cut hb hcut hmore]
  of_read {s b rest} hread := by
    simp only [Codec.map] at hread ⊢
    split at hread
    · cases hread
    · next a r ha =>
      cases hread
      obtain ⟨hfits, hused⟩ := h.of_read ha
      rw [hgf a hfits]
      exact ⟨hfits, hused⟩

theorem Lawful.tagged {τ : Type} {π : τ → Type} {tags : Codec τ} {payload : (t : τ) → Codec (π t)}
    {fitsTag : τ → Prop} {fitsPayload : (t : τ) → π t → Prop} (htags : tags.Lawful fitsTag)
    (hpayload : ∀ t, (payload t).Lawful (fitsPayload t)) :
    (Codec.tagged tags payload).Lawful fun a => fitsTag a.1 ∧ fitsPayload a.1 a.2 where
  read_write {a} ha rest := by
    obtain ⟨t, x⟩ := a
    simp only [Codec.tagged, List.append_assoc, htags.read_write ha.1,
      (hpayload t).read_write ha.2]
  read_cut {a} ha cut more hcut hmore := by
    obtain ⟨t, x⟩ := a
    simp only [Codec.tagged] at hcut ⊢
    rcases cut_append hcut hmore with ⟨more', hfirst, hmore'⟩ | ⟨cut', rfl, hsecond⟩
    · simp only [htags.read_cut ha.1 hfirst hmore']
    · simp only [htags.read_write ha.1, (hpayload t).read_cut ha.2 hsecond hmore]
  of_read {s a rest} hread := by
    simp only [Codec.tagged] at hread ⊢
    split at hread
    · cases hread
    · next t r ht =>
      split at hread
      · cases hread
      · next x r' hx =>
        cases hread
        obtain ⟨htag, used, rfl, hused⟩ := htags.of_read ht
        obtain ⟨hfits, used', rfl, hused'⟩ := (hpayload t).of_read hx
        refine ⟨⟨htag, hfits⟩, used ++ used', by simp, ?_⟩
        rw [List.length_append, List.length_append]
        exact Nat.add_le_add hused hused'

/-- A pair is a tag and a payload of the same type for every tag. -/
theorem pair_eq_tagged (c : Codec α) (d : Codec β) :
    c.pair d = (Codec.tagged c fun _ => d).map (fun a => (a.1, a.2)) (fun p => ⟨p.1, p.2⟩) := by
  simp only [pair, Codec.map, Codec.tagged, Codec.mk.injEq, true_and]
  funext s
  cases c.read s with
  | error e => rfl
  | ok p => cases hd : d.read p.2 <;> simp [hd]

theorem Lawful.pair (h : c.Lawful fits) (h' : d.Lawful fits') :
    (c.pair d).Lawful fun p => fits p.1 ∧ fits' p.2 := by
  rw [pair_eq_tagged]
  exact (h.tagged fun _ => h').map (fun _ => rfl) (fun _ _ => rfl)

/-! ## Numbers and truth values -/

theorem lawful_number {w : Width} {k : Nat} (hw : w.bytes = k + 1) (hlast : w.lastByte < 128) :
    (number w).Lawful fun n => n < 128 ^ k * (w.lastByte + 1) where
  read_write {n} hn rest := by
    simp only [number, hw]
    exact readGroups_writeGroups hn hlast rest
  read_cut {n} _ cut more hcut hmore := by
    simp only [number, hw] at hcut ⊢
    exact readGroups_cut hcut hmore
  of_read {s n rest} hread := by
    simp only [number, hw] at hread ⊢
    exact of_readGroups hread

theorem lawful_number32 : (number width32).Lawful fun n => n < 2 ^ 32 :=
  lawful_number (k := 4) rfl (by decide)

theorem lawful_number64 : (number width64).Lawful fun n => n < 2 ^ 64 :=
  lawful_number (k := 9) rfl (by decide)

theorem lawful_uint32 : uint32.Lawful fun _ => True := by
  refine (lawful_number32.map ?_ ?_).congr fun n => iff_true_intro n.toNat_lt
  · exact fun n => UInt32.ofNat_toNat
  · exact fun n hn => UInt32.toNat_ofNat_of_lt' hn

theorem lawful_word (k : Nat) :
    (Codec.mk (writeWord k) (readWord k)).Lawful fun n => n < 256 ^ k where
  read_write hn rest := readWord_writeWord hn rest
  read_cut {n} _ cut more hcut hmore := by
    have hlength : k = cut.length + more.length := by
      rw [← List.length_append, ← hcut, length_writeWord]
    have hpos := List.length_pos_iff.2 hmore
    exact readWord_short (by omega)
  of_read {s n rest} hread := by
    obtain ⟨hn, used, hs, hused⟩ := of_readWord hread
    exact ⟨hn, used, hs, Nat.le_of_eq ((length_writeWord k n).trans hused.symm)⟩

/-- A double is read back bit for bit. -/
theorem lawful_binary64 : binary64.Lawful fun _ => True := by
  refine ((lawful_word 8).map ?_ ?_).congr fun x => iff_true_intro x.bits.toNat_lt
  · exact fun x => congrArg Binary64.mk UInt64.ofNat_toNat
  · exact fun n hn => UInt64.toNat_ofNat_of_lt' hn

theorem lawful_bool : bool.Lawful fun _ => True where
  read_write {b} _ rest := by cases b <;> rfl
  read_cut {b} _ cut more hcut hmore := by
    rw [bool, eq_comm, List.append_eq_singleton_iff] at hcut
    rcases hcut with ⟨rfl, -⟩ | ⟨-, hnone⟩
    · rfl
    · exact absurd hnone hmore
  of_read {s b rest} hread := by
    cases s with
    | nil => cases hread
    | cons x s =>
      simp only [bool] at hread ⊢
      split at hread
      · cases hread
        exact ⟨trivial, [x], rfl, Nat.le_refl _⟩
      · split at hread
        · cases hread
          exact ⟨trivial, [x], rfl, Nat.le_refl _⟩
        · cases hread

/-! ## Enumerations -/

section Enumerated

variable {τ : Type} [DecidableEq τ] [Enumerated τ]

theorem index_le_of_ofIndex? {n : Nat} {t : τ} (h : Enumerated.ofIndex? n = some t) :
    Enumerated.index t ≤ n := by
  obtain ⟨hn, hget⟩ := List.getElem?_eq_some_iff.1 h
  refine Nat.le_of_not_lt fun hlt => ?_
  have hother := List.not_of_lt_findIdx hlt
  simp [hget] at hother

theorem lawful_enumerated (hfew : (Enumerated.all : List τ).length ≤ 2 ^ 32) :
    (enumerated τ).Lawful fun _ => True where
  read_write {t} _ rest := by
    have hindex : Enumerated.index t < 2 ^ 32 :=
      Nat.lt_of_lt_of_le (List.idxOf_lt_length_of_mem (Enumerated.mem_all t)) hfew
    simp only [enumerated, lawful_number32.read_write hindex, Enumerated.ofIndex?_index]
  read_cut {t} _ cut more hcut hmore := by
    have hindex : Enumerated.index t < 2 ^ 32 :=
      Nat.lt_of_lt_of_le (List.idxOf_lt_length_of_mem (Enumerated.mem_all t)) hfew
    simp only [enumerated] at hcut ⊢
    rw [lawful_number32.read_cut hindex hcut hmore]
  of_read {s t rest} hread := by
    simp only [enumerated] at hread ⊢
    split at hread
    · cases hread
    · next n r hn =>
      split at hread
      · cases hread
      · next ht =>
        cases hread
        obtain ⟨-, used, rfl, hused⟩ := lawful_number32.of_read hn
        refine ⟨trivial, used, rfl, Nat.le_trans ?_ hused⟩
        exact length_writeGroups_mono (index_le_of_ofIndex? ht)

end Enumerated

/-! ## Texts -/

/-- The bytes of a text are valid UTF-8, and of no other text. -/
theorem fromUTF8?_eq_some_iff {bytes : Bytes} {t : String} :
    String.fromUTF8? bytes.toByteArray = some t ↔ t.toUTF8.data.toList = bytes := by
  constructor
  · intro h
    rw [String.fromUTF8?] at h
    split at h
    · cases h
      exact congrArg Array.toList List.data_toByteArray
    · cases h
  · rintro rfl
    have hbytes : t.toUTF8.data.toList.toByteArray = t.toUTF8 := by
      apply ByteArray.ext
      rw [List.data_toByteArray, Array.toArray_toList]
    rw [hbytes, String.fromUTF8?, String.toUTF8_eq_toByteArray, dif_pos t.isValidUTF8]
    rfl

theorem length_toUTF8 (t : String) : t.toUTF8.data.toList.length = t.utf8ByteSize := rfl

/-- A text fits if the number of its bytes does. -/
theorem lawful_text : text.Lawful fun t => t.utf8ByteSize < 2 ^ 64 where
  read_write {t} ht rest := by
    have hlength := length_toUTF8 t
    simp only [text, List.append_assoc, lawful_number64.read_write ht]
    rw [if_neg (by simp), List.take_left' hlength, List.drop_left' hlength,
      fromUTF8?_eq_some_iff.2 rfl]
  read_cut {t} ht cut more hcut hmore := by
    simp only [text] at hcut ⊢
    rcases cut_append hcut hmore with ⟨more', hnumber, hmore'⟩ | ⟨cut', rfl, hbytes⟩
    · simp only [lawful_number64.read_cut ht hnumber hmore']
    · have hlength : t.utf8ByteSize = cut'.length + more.length := by
        rw [← length_toUTF8, hbytes, List.length_append]
      have hpos := List.length_pos_iff.2 hmore
      simp only [lawful_number64.read_write ht]
      rw [if_pos (by omega)]
  of_read {s t rest} hread := by
    simp only [text] at hread ⊢
    split at hread
    · cases hread
    · next n r hn =>
      split at hread
      · cases hread
      · next hlong =>
        split at hread
        · cases hread
        · next ht =>
          cases hread
          rw [fromUTF8?_eq_some_iff] at ht
          have hlength : t.utf8ByteSize = n := by
            rw [← length_toUTF8, ht, List.length_take]
            omega
          obtain ⟨hfits, used, rfl, hused⟩ := lawful_number64.of_read hn
          rw [hlength, ht]
          refine ⟨hfits, used ++ r.take n, by simp, ?_⟩
          rw [List.length_append, List.length_append]
          exact Nat.add_le_add_right hused _

end Codec
end SignalLights.Packed
