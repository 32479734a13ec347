import Mathlib.Data.List.Chain
import SignalLights.StatusCode

/-!
# What a row of codes looks like in bytes

Frames are one or two digits with nothing between them, so a row of codes is a row of digits. The
digits do not tell the codes: 1 and 0 look like 10, although codes in a row always differ. Code 1
before another one is all there is to confuse: two rows of codes have the same bytes just when they
agree up to the pairs of `confusions` (`confusable_of_bytes_eq` and `Confusable.bytes_eq`).
-/

namespace SignalLights
namespace StatusCode

/-- The bytes of a row of codes. -/
def bytes (cs : List StatusCode) : List UInt8 := cs.flatMap frame

@[simp] theorem bytes_nil : bytes [] = [] := rfl

@[simp] theorem bytes_cons (c : StatusCode) (cs : List StatusCode) :
    bytes (c :: cs) = c.frame ++ bytes cs := rfl

theorem bytes_append (cs ds : List StatusCode) : bytes (cs ++ ds) = bytes cs ++ bytes ds :=
  List.flatMap_append

theorem frame_ne_nil (c : StatusCode) : c.frame ≠ [] := by cases c <;> decide

/-- Rows of codes with the same bytes: 1, 0 and 10; 1, 10 and 11, 0; 1, 11 and 11, 1; 1, 11, 0 and
11, 10. -/
def confusions : List (List StatusCode × List StatusCode) :=
  [([.blueYellowAlternating, .off], [.fadeBlue]),
    ([.blueYellowAlternating, .fadeBlue], [.yellowChasingBlue, .off]),
    ([.blueYellowAlternating, .yellowChasingBlue], [.yellowChasingBlue, .blueYellowAlternating]),
    ([.blueYellowAlternating, .yellowChasingBlue, .off], [.yellowChasingBlue, .fadeBlue])]

/-- Two rows of codes that agree up to confusions. -/
inductive Confusable : List StatusCode → List StatusCode → Prop
  | nil : Confusable [] []
  | same {cs ds : List StatusCode} (c : StatusCode) :
      Confusable cs ds → Confusable (c :: cs) (c :: ds)
  | left {p q cs ds : List StatusCode} :
      (p, q) ∈ confusions → Confusable cs ds → Confusable (p ++ cs) (q ++ ds)
  | right {p q cs ds : List StatusCode} :
      (p, q) ∈ confusions → Confusable cs ds → Confusable (q ++ cs) (p ++ ds)

theorem bytes_eq_of_mem_confusions {p q : List StatusCode} (h : (p, q) ∈ confusions) :
    bytes p = bytes q := by
  have hall : ∀ r ∈ confusions, bytes r.1 = bytes r.2 := by decide
  exact hall (p, q) h

theorem Confusable.bytes_eq {cs ds : List StatusCode} (h : Confusable cs ds) :
    bytes cs = bytes ds := by
  induction h with
  | nil => rfl
  | same c _ ih => rw [bytes_cons, bytes_cons, ih]
  | left hm _ ih => rw [bytes_append, bytes_append, bytes_eq_of_mem_confusions hm, ih]
  | right hm _ ih => rw [bytes_append, bytes_append, bytes_eq_of_mem_confusions hm, ih]

/-! ## Reading the bytes -/

/-- A frame that starts another one is the frame of code 1, before 10 or 11. -/
theorem eq_of_frame_starts {c d : StatusCode} (h : c.frame <+: d.frame) :
    c = d ∨ c = .blueYellowAlternating ∧ (d = .fadeBlue ∨ d = .yellowChasingBlue) := by
  revert h
  cases c <;> cases d <;> decide

theorem exists_cons_of_bytes_eq {cs : List StatusCode} {b : UInt8} {rest : List UInt8}
    (h : bytes cs = b :: rest) : ∃ c cs', cs = c :: cs' ∧ c.frame.head? = some b := by
  cases cs with
  | nil => nomatch h
  | cons c cs' =>
    refine ⟨c, cs', rfl, ?_⟩
    have hhead := congrArg List.head? h
    rwa [bytes_cons, List.head?_append_of_ne_nil _ c.frame_ne_nil] at hhead

/-- Bytes that start with a zero start with code 0. -/
theorem off_of_bytes_eq {cs : List StatusCode} {rest : List UInt8} (h : bytes cs = 48 :: rest) :
    ∃ cs', cs = .off :: cs' ∧ bytes cs' = rest := by
  obtain ⟨c, cs', rfl, hc⟩ := exists_cons_of_bytes_eq h
  obtain rfl : c = .off := by
    revert hc
    cases c <;> decide
  exact ⟨cs', rfl, (List.cons.inj h).2⟩

/-- Bytes that start with a one start with code 1, 10 or 11. -/
theorem one_of_bytes_eq {cs : List StatusCode} {rest : List UInt8} (h : bytes cs = 49 :: rest) :
    ∃ cs', (cs = .blueYellowAlternating :: cs' ∧ rest = bytes cs') ∨
      (cs = .fadeBlue :: cs' ∧ rest = 48 :: bytes cs') ∨
      (cs = .yellowChasingBlue :: cs' ∧ rest = 49 :: bytes cs') := by
  obtain ⟨c, cs', rfl, hc⟩ := exists_cons_of_bytes_eq h
  have hone : c = .blueYellowAlternating ∨ c = .fadeBlue ∨ c = .yellowChasingBlue := by
    revert hc
    cases c <;> decide
  refine ⟨cs', ?_⟩
  rcases hone with rfl | rfl | rfl
  · exact .inl ⟨rfl, (List.cons.inj h).2.symm⟩
  · exact .inr (.inl ⟨rfl, (List.cons.inj h).2.symm⟩)
  · exact .inr (.inr ⟨rfl, (List.cons.inj h).2.symm⟩)

/-- Where one row goes on with code 1 and another with 10 or 11, a confusion begins, and after it
the bytes are the same again. -/
theorem exists_confusion {d : StatusCode} {cs ds : List StatusCode}
    (hd : d = .fadeBlue ∨ d = .yellowChasingBlue)
    (hcs : (.blueYellowAlternating :: cs).IsChain (· ≠ ·)) (hds : (d :: ds).IsChain (· ≠ ·))
    (h : bytes (.blueYellowAlternating :: cs) = bytes (d :: ds)) :
    ∃ p q cs' ds', (p, q) ∈ confusions ∧ .blueYellowAlternating :: cs = p ++ cs' ∧
      d :: ds = q ++ ds' ∧ bytes cs' = bytes ds' := by
  rcases hd with rfl | rfl
  · have hz : bytes cs = 48 :: bytes ds := (List.cons.inj h).2
    obtain ⟨cs', rfl, hb⟩ := off_of_bytes_eq hz
    exact ⟨[.blueYellowAlternating, .off], [.fadeBlue], cs', ds, by decide, rfl, rfl, hb⟩
  · have hz : bytes cs = 49 :: bytes ds := (List.cons.inj h).2
    obtain ⟨cs', ⟨rfl, -⟩ | ⟨rfl, hb⟩ | ⟨rfl, hb⟩⟩ := one_of_bytes_eq hz
    · exact absurd rfl (List.isChain_cons_cons.1 hcs).1
    · obtain ⟨ds', rfl, hb'⟩ := off_of_bytes_eq hb
      exact ⟨[.blueYellowAlternating, .fadeBlue], [.yellowChasingBlue, .off], cs', ds', by decide,
        rfl, rfl, hb'.symm⟩
    · obtain ⟨ds', ⟨rfl, hb'⟩ | ⟨rfl, hb'⟩ | ⟨rfl, -⟩⟩ := one_of_bytes_eq hb
      · exact ⟨[.blueYellowAlternating, .yellowChasingBlue],
          [.yellowChasingBlue, .blueYellowAlternating], cs', ds', by decide, rfl, rfl, hb'⟩
      · obtain ⟨cs'', rfl, hb''⟩ := off_of_bytes_eq hb'
        exact ⟨[.blueYellowAlternating, .yellowChasingBlue, .off], [.yellowChasingBlue, .fadeBlue],
          cs'', ds', by decide, rfl, rfl, hb''⟩
      · exact absurd rfl (List.isChain_cons_cons.1 hds).1

theorem length_pos_of_mem_confusions {p q : List StatusCode} (h : (p, q) ∈ confusions) :
    0 < p.length ∧ 0 < q.length := by
  have hall : ∀ r ∈ confusions, 0 < r.1.length ∧ 0 < r.2.length := by decide
  exact hall (p, q) h

/-- Rows of codes with the same bytes agree up to confusions. -/
theorem confusable_of_bytes_eq {cs ds : List StatusCode} (hcs : cs.IsChain (· ≠ ·))
    (hds : ds.IsChain (· ≠ ·)) (h : bytes cs = bytes ds) : Confusable cs ds := by
  -- a confusion takes up to three codes at once, so the induction is on the length
  induction hn : cs.length using Nat.strong_induction_on generalizing cs ds with
  | _ n ih =>
    cases cs with
    | nil =>
      cases ds with
      | nil => exact .nil
      | cons d ds => exact absurd (List.append_eq_nil_iff.1 h.symm).1 d.frame_ne_nil
    | cons c cs =>
      cases ds with
      | nil => exact absurd (List.append_eq_nil_iff.1 h).1 c.frame_ne_nil
      | cons d ds =>
        by_cases hcd : c = d
        · subst hcd
          refine .same c (ih cs.length (by simp [← hn]) hcs.tail hds.tail ?_ rfl)
          exact List.append_cancel_left h
        · have hc : c.frame <+: bytes (c :: cs) := List.prefix_append _ _
          have hd : d.frame <+: bytes (c :: cs) := h ▸ List.prefix_append _ _
          rcases List.prefix_or_prefix_of_prefix hc hd with hp | hp
          · obtain ⟨rfl, htwo⟩ := (eq_of_frame_starts hp).resolve_left hcd
            obtain ⟨p, q, cs', ds', hm, hcs', hds', hb⟩ := exists_confusion htwo hcs hds h
            have hpos := length_pos_of_mem_confusions hm
            rw [hcs'] at hcs hn ⊢
            rw [hds'] at hds ⊢
            rw [List.length_append] at hn
            exact .left hm (ih _ (by omega) hcs.right_of_append hds.right_of_append hb rfl)
          · obtain ⟨rfl, htwo⟩ := (eq_of_frame_starts hp).resolve_left (Ne.symm hcd)
            obtain ⟨p, q, ds', cs', hm, hds', hcs', hb⟩ := exists_confusion htwo hds hcs h.symm
            have hpos := length_pos_of_mem_confusions hm
            rw [hcs'] at hcs hn ⊢
            rw [hds'] at hds ⊢
            rw [List.length_append] at hn
            exact .right hm (ih _ (by omega) hcs.right_of_append hds.right_of_append hb.symm rfl)

/-- Rows of codes differ where they are confusable only if one has code 1 and the other a code of
two digits. -/
theorem Confusable.eq_or {cs ds : List StatusCode} (h : Confusable cs ds) :
    cs = ds ∨ (.blueYellowAlternating ∈ cs ∧ ∃ d ∈ ds, 10 ≤ d.code) ∨
      (.blueYellowAlternating ∈ ds ∧ ∃ c ∈ cs, 10 ≤ c.code) := by
  have hall : ∀ r ∈ confusions,
      .blueYellowAlternating ∈ r.1 ∧ ∃ d ∈ r.2, 10 ≤ d.code := by decide
  induction h with
  | nil => exact .inl rfl
  | same c _ ih =>
    rcases ih with rfl | ⟨hone, d, hd, htwo⟩ | ⟨hone, d, hd, htwo⟩
    · exact .inl rfl
    · exact .inr (.inl ⟨.tail c hone, d, .tail c hd, htwo⟩)
    · exact .inr (.inr ⟨.tail c hone, d, .tail c hd, htwo⟩)
  | left hm =>
    obtain ⟨hone, d, hd, htwo⟩ := hall _ hm
    exact .inr (.inl ⟨List.mem_append_left _ hone, d, List.mem_append_left _ hd, htwo⟩)
  | right hm =>
    obtain ⟨hone, d, hd, htwo⟩ := hall _ hm
    exact .inr (.inr ⟨List.mem_append_left _ hone, d, List.mem_append_left _ hd, htwo⟩)

end StatusCode
end SignalLights
