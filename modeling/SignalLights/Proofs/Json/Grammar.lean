import SignalLights.Proofs.Json.Numerals
import SignalLights.Proofs.Json.Strings

/-!
# The grammar of JSON

What a well-formed value is, apart from how one is read (`IsValue`): sequences and maps are `Listed`
between brackets, with blanks around everything. Passing over a value takes exactly its text,
whatever is nested in it (`skipValue_value`), for it never needs more steps than its bound has.
-/

namespace SignalLights.Json

variable {α κ : Type}

/-! ## Blanks -/

def AreBlank (s : List Char) : Prop := ∀ c ∈ s, isBlank c

instance (s : List Char) : Decidable (AreBlank s) :=
  decidable_of_iff (s.all isBlank) List.all_eq_true

theorem skipBlank_append {b : List Char} (hb : AreBlank b) (s : List Char) :
    skipBlank (b ++ s) = skipBlank s :=
  List.dropWhile_append_of_pos hb

theorem skipBlank_cons {c : Char} (s : List Char) (hc : isBlank c = false) :
    skipBlank (c :: s) = c :: s := by
  rw [skipBlank, List.dropWhile_cons_of_neg (by simp [hc])]

/-- Neither a digit nor a letter is a blank. -/
theorem not_numeric_of_isBlank {c : Char} (h : isBlank c) :
    startsNumber c = false ∧ c.isDigit = false ∧ c ≠ '.' ∧ c ≠ 'e' ∧ c ≠ 'E' := by
  simp only [isBlank, Bool.or_eq_true, beq_iff_eq] at h
  rcases h with ((rfl | rfl) | rfl) | rfl <;> decide

theorem isBlank_of_startsNumber {c : Char} (h : startsNumber c) : isBlank c = false := by
  rw [Bool.eq_false_iff]
  intro hblank
  rw [(not_numeric_of_isBlank hblank).1] at h
  cases h

/-- Blanks end a number as well as what comes after them. -/
theorem endsNumber_blank_append {b s : List Char} (hb : AreBlank b) (hs : endsNumber s) :
    endsNumber (b ++ s) := by
  cases b with
  | nil => exact hs
  | cons c b => exact endsNumber_cons.2 (not_numeric_of_isBlank (hb c List.mem_cons_self)).2

/-! ## Sequences and maps -/

/-- What leads to the next one of a list: nothing to the first, a comma to the others. -/
inductive Lead : Bool → List Char → Prop
  | first : Lead true []
  | next {b} (hb : AreBlank b) : Lead false (b ++ [','])

/-- The text of a list up to the bracket that closes it, from its start or from behind one of its
items. -/
inductive Listed (P : α → List Char → Prop) : Bool → List α → List Char → Prop
  | nil {isFirst b} (hb : AreBlank b) : Listed P isFirst [] b
  | cons {isFirst lead a as s t} (hlead : Lead isFirst lead) (ha : P a s)
      (htail : Listed P false as t) : Listed P isFirst (a :: as) (lead ++ (s ++ t))

/-- A value with blanks in front. -/
inductive ElementText (v : List Char) : List Char → Prop
  | mk {b} (hb : AreBlank b) : ElementText v (b ++ v)

/-- A key in quotes, a colon and a value, with blanks in front of each. -/
inductive MemberText (Key : κ → List Char → Prop) : κ × List Char → List Char → Prop
  | mk {k key v b b' b''} (hb : AreBlank b) (hkey : Key k key) (hb' : AreBlank b')
      (hb'' : AreBlank b'') :
      MemberText Key (k, v) (b ++ '"' :: (key ++ '"' :: (b' ++ ':' :: (b'' ++ v))))

inductive SequenceText (vs : List (List Char)) : List Char → Prop
  | mk {t} (ht : Listed ElementText true vs t) : SequenceText vs ('[' :: (t ++ [']']))

inductive MapText (Key : κ → List Char → Prop) (ms : List (κ × List Char)) : List Char → Prop
  | mk {t} (ht : Listed (MemberText Key) true ms t) : MapText Key ms ('{' :: (t ++ ['}']))

section Listed

variable {P : α → List Char → Prop} {a : α} {as : List α} {isFirst : Bool} {s t : List Char}

theorem Listed.exists_first (h : Listed P true (a :: as) t) :
    ∃ s t', P a s ∧ Listed P false as t' ∧ t = s ++ t' := by
  cases h with
  | cons hlead ha htail =>
    cases hlead
    exact ⟨_, _, ha, htail, rfl⟩

/-- Behind a comma the rest of a list is a list of its own. -/
theorem Listed.exists_next (h : Listed P false (a :: as) t) :
    ∃ b t', AreBlank b ∧ Listed P true (a :: as) t' ∧ t = b ++ ',' :: t' := by
  cases h with
  | cons hlead ha htail =>
    cases hlead with
    | next hb => exact ⟨_, _, hb, .cons .first ha htail, by simp⟩

/-- The blanks in front of an item may be left away, and it does not look like the bracket. -/
def Starts (P : α → List Char → Prop) (close : Char) (a : α) : Prop :=
  ∀ s, P a s → ∃ b c cs, AreBlank b ∧ s = b ++ c :: cs ∧ P a (c :: cs) ∧ isBlank c = false ∧
    c ≠ close

theorem Listed.exists_start {close : Char} (h : Listed P true (a :: as) t)
    (hstarts : Starts P close a) :
    ∃ b c cs, AreBlank b ∧ t = b ++ c :: cs ∧ Listed P true (a :: as) (c :: cs) ∧
      isBlank c = false ∧ c ≠ close := by
  obtain ⟨s, t, ha, htail, rfl⟩ := h.exists_first
  obtain ⟨b, c, cs, hb, rfl, ha, hblank, hclose⟩ := hstarts s ha
  exact ⟨b, c, cs ++ t, hb, by simp, .cons .first ha htail, hblank, hclose⟩

theorem Listed.endsNumber (h : Listed P false as t) (hs : endsNumber s) :
    endsNumber (t ++ s) := by
  cases h with
  | nil hb => exact endsNumber_blank_append hb hs
  | cons hlead _ _ =>
    cases hlead with
    | next hb =>
      rw [List.append_assoc, List.append_assoc]
      exact endsNumber_blank_append hb rfl

/-- A list has no more items than its text has characters. -/
theorem Listed.length_le (hP : ∀ a s, P a s → s ≠ []) (h : Listed P isFirst as t) :
    as.length ≤ t.length := by
  induction h with
  | nil => exact Nat.zero_le _
  | cons _ ha _ ih =>
    have hpos := List.length_pos_iff.2 (hP _ _ ha)
    simp only [List.length_append, List.length_cons]
    omega

end Listed

/-! ## Values -/

def IsNumber (t : List Char) : Prop := ∃ n : Numeral, n.Proper ∧ n.Spelled t

/-- A well-formed value, without blanks around it. The keys in it need not stand for texts. -/
inductive IsValue : List Char → Prop
  | null : IsValue ['n', 'u', 'l', 'l']
  | true : IsValue ['t', 'r', 'u', 'e']
  | false : IsValue ['f', 'a', 'l', 's', 'e']
  | number {t} (h : IsNumber t) : IsValue t
  | text {t} (h : IsLiteral t) : IsValue ('"' :: (t ++ ['"']))
  | sequence {vs t} (h : SequenceText vs t) (hvs : ∀ v ∈ vs, IsValue v) : IsValue t
  | map {ms t} (h : MapText (fun _ : Unit => IsLiteral) ms t) (hms : ∀ m ∈ ms, IsValue m.2) :
      IsValue t

/-- A text that starts with neither a blank nor a bracket that closes a sequence. -/
def Opens (t : List Char) : Prop := ∃ c cs, t = c :: cs ∧ isBlank c = false ∧ c ≠ ']'

theorem opens_of_startsNumber {t : List Char} (h : ∃ c cs, t = c :: cs ∧ startsNumber c) :
    Opens t := by
  obtain ⟨c, cs, rfl, hc⟩ := h
  refine ⟨c, cs, rfl, isBlank_of_startsNumber hc, ?_⟩
  rintro rfl
  cases hc

theorem IsValue.opens {t : List Char} (h : IsValue t) : Opens t := by
  cases h with
  | number h =>
    obtain ⟨n, hn, ht⟩ := h
    exact opens_of_startsNumber (Numeral.exists_startsNumber_spelled hn ht)
  | sequence h => obtain ⟨-⟩ := h; exact ⟨_, _, rfl, rfl, by decide⟩
  | map h => obtain ⟨-⟩ := h; exact ⟨_, _, rfl, rfl, by decide⟩
  | _ => exact ⟨_, _, rfl, rfl, by decide⟩

/-! ## Passing over values -/

/-- A value is passed over in twice as many steps as it has characters. -/
def Skips (v : List Char) : Prop :=
  ∀ fuel s, 2 * v.length ≤ fuel → endsNumber s → skipValueIn fuel (v ++ s) = some s

theorem skipValueIn_append {b : List Char} (hb : AreBlank b) (fuel : Nat) (s : List Char) :
    skipValueIn fuel (b ++ s) = skipValueIn fuel s := by
  cases fuel with
  | zero => rfl
  | succ fuel => rw [skipValueIn, skipValueIn, skipBlank_append hb]

/-- A value has characters, so there is a step for it. -/
theorem skips_of_succ {v : List Char} (hv : v ≠ [])
    (h : ∀ fuel s, 2 * v.length ≤ fuel + 1 → endsNumber s →
      skipValueIn (fuel + 1) (v ++ s) = some s) : Skips v := by
  intro fuel s hfuel hs
  have hpos := List.length_pos_iff.2 hv
  obtain ⟨fuel, rfl⟩ : ∃ n, fuel = n + 1 := Nat.exists_eq_add_one.2 (by omega)
  exact h fuel s hfuel hs

theorem skips_number {t : List Char} (h : IsNumber t) : Skips t := by
  obtain ⟨n, hn, ht⟩ := h
  obtain ⟨c, cs, hcs, hc⟩ := Numeral.exists_startsNumber_spelled hn ht
  apply skips_of_succ (by simp [hcs])
  intro fuel s _ hs
  have hread := Numeral.numeral_spelled hn ht hs
  rw [hcs, List.cons_append] at hread ⊢
  rw [skipValueIn, skipBlank_cons _ (isBlank_of_startsNumber hc)]
  -- no other value starts like a number
  split
  case h_7 => rw [hread, Option.map_some]
  all_goals
    next heq =>
      obtain ⟨rfl, -⟩ := List.cons.inj heq
      cases hc

theorem skips_text {t : List Char} (h : IsLiteral t) : Skips ('"' :: (t ++ ['"'])) := by
  apply skips_of_succ (List.cons_ne_nil _ _)
  intro fuel s _ _
  rw [List.cons_append, skipValueIn, skipBlank_cons _ rfl, List.append_assoc]
  exact skipString_literal h s

/-! ### Lists -/

section Lists

variable {P : α → List Char → Prop} {skip : Nat → List Char → Option (List Char)} {close : Char}
  {as : List α} {a : α} {t : List Char}

/-- A loop passes over an item of a list, and over a comma or the bracket after it. -/
structure Passes (P : α → List Char → Prop) (skip : Nat → List Char → Option (List Char))
    (close : Char) (a : α) : Prop where
  more : ∀ {fuel s r rest}, P a s → 2 * s.length ≤ fuel → endsNumber r →
    skipBlank r = ',' :: rest → skip (fuel + 1) (s ++ r) = skip fuel rest
  closes : ∀ {fuel s r rest}, P a s → 2 * s.length ≤ fuel → endsNumber r →
    skipBlank r = close :: rest → skip (fuel + 1) (s ++ r) = some rest

/-- A loop that passes over every item passes over a list of them. -/
theorem skip_listed (hclose : isBlank close = false) (hends : endsNumber [close])
    (hpasses : ∀ x ∈ a :: as, Passes P skip close x) (ht : Listed P true (a :: as) t) {fuel : Nat}
    (hfuel : 2 * t.length < fuel) (rest : List Char) :
    skip fuel (t ++ close :: rest) = some rest := by
  have hends' : endsNumber (close :: rest) := endsNumber_cons.2 (endsNumber_cons.1 hends)
  obtain ⟨fuel, rfl⟩ : ∃ n, fuel = n + 1 := Nat.exists_eq_add_one.2 (Nat.zero_lt_of_lt hfuel)
  induction as generalizing a t fuel with
  | nil =>
    obtain ⟨s, t, ha, htail, rfl⟩ := ht.exists_first
    have hends := htail.endsNumber hends'
    obtain ⟨hb⟩ := htail
    rw [List.length_append] at hfuel
    rw [List.append_assoc]
    apply (hpasses a List.mem_cons_self).closes ha (by omega) hends
    rw [skipBlank_append hb, skipBlank_cons _ hclose]
  | cons a' as ih =>
    obtain ⟨s, t, ha, htail, rfl⟩ := ht.exists_first
    have hends := htail.endsNumber hends'
    obtain ⟨b, t, hb, hmore, rfl⟩ := htail.exists_next
    rw [List.length_append, List.length_append, List.length_cons] at hfuel
    have hcomma : skipBlank (b ++ ',' :: t ++ close :: rest) = ',' :: (t ++ close :: rest) := by
      rw [List.append_assoc, skipBlank_append hb]
      rfl
    rw [List.append_assoc, (hpasses a List.mem_cons_self).more ha (by omega) hends hcomma]
    obtain ⟨fuel, rfl⟩ : ∃ n, fuel = n + 1 := Nat.exists_eq_add_one.2 (by omega)
    exact ih (fun x hx => hpasses x (List.mem_cons_of_mem _ hx)) hmore fuel (by omega)

/-- The text behind an opening bracket shows whether a list is empty. -/
theorem skip_listed_or (hclose : isBlank close = false) (hends : endsNumber [close])
    (hpasses : ∀ x ∈ as, Passes P skip close x) (hstarts : ∀ x ∈ as, Starts P close x)
    (ht : Listed P true as t) {fuel : Nat} (hfuel : 2 * t.length < fuel) (rest : List Char) :
    skipBlank (t ++ close :: rest) = close :: rest ∨
      ∃ c r, skipBlank (t ++ close :: rest) = c :: r ∧ c ≠ close ∧
        skip fuel (c :: r) = some rest := by
  cases as with
  | nil =>
    obtain ⟨hb⟩ := ht
    left
    rw [skipBlank_append hb, skipBlank_cons _ hclose]
  | cons a as =>
    obtain ⟨b, c, cs, hb, rfl, ht, hblank, hne⟩ := ht.exists_start (hstarts a List.mem_cons_self)
    rw [List.length_append] at hfuel
    right
    refine ⟨c, cs ++ close :: rest, ?_, hne, ?_⟩
    · rw [List.append_assoc, skipBlank_append hb]
      exact skipBlank_cons _ hblank
    · exact skip_listed hclose hends hpasses ht (by omega) rest

end Lists

theorem passes_element {v : List Char} (hv : Skips v) :
    Passes ElementText skipElements ']' v := by
  have helement {fuel s r} (hs : ElementText v s) (hfuel : 2 * s.length ≤ fuel)
      (hr : endsNumber r) : skipValueIn fuel (s ++ r) = some r := by
    obtain ⟨hb⟩ := hs
    rw [List.length_append] at hfuel
    rw [List.append_assoc, skipValueIn_append hb]
    exact hv fuel r (by omega) hr
  constructor <;>
  · intro fuel s r rest hs hfuel hr hnext
    rw [skipElements, helement hs hfuel hr]
    simp only [hnext]

theorem passes_member {k : Unit} {v : List Char} (hv : Skips v) :
    Passes (MemberText fun _ => IsLiteral) skipMembers '}' (k, v) := by
  constructor <;>
  · intro fuel s r rest hs hfuel hr hnext
    obtain ⟨hb, hkey, hb', hb''⟩ := hs
    simp only [List.length_append, List.length_cons] at hfuel
    have hvalue : skipValueIn fuel (v ++ r) = some r := hv fuel r (by omega) hr
    have hquote (s : List Char) : skipBlank ('"' :: s) = '"' :: s := skipBlank_cons _ rfl
    have hcolon (s : List Char) : skipBlank (':' :: s) = ':' :: s := skipBlank_cons _ rfl
    simp only [List.append_assoc, List.cons_append, skipMembers, skipBlank_append hb, hquote,
      skipString_literal hkey, skipBlank_append hb', hcolon, skipValueIn_append hb'', hvalue, hnext]

theorem starts_element {v : List Char} (hv : Opens v) : Starts ElementText ']' v := by
  rintro _ ⟨hb⟩
  obtain ⟨c, cs, rfl, hblank, hne⟩ := hv
  exact ⟨_, c, cs, hb, rfl, .mk (b := []) nofun, hblank, hne⟩

theorem starts_member {Key : κ → List Char → Prop} {m : κ × List Char} :
    Starts (MemberText Key) '}' m := by
  rintro _ ⟨hb, hkey, hb', hb''⟩
  exact ⟨_, _, _, hb, rfl, .mk (b := []) nofun hkey hb' hb'', rfl, by decide⟩

theorem skips_sequence {vs : List (List Char)} {t : List Char} (h : SequenceText vs t)
    (hopens : ∀ v ∈ vs, Opens v) (hvs : ∀ v ∈ vs, Skips v) : Skips t := by
  obtain ⟨ht⟩ := h
  apply skips_of_succ (List.cons_ne_nil _ _)
  intro fuel s hfuel _
  simp only [List.length_append, List.length_cons] at hfuel
  have hbracket (s : List Char) : skipBlank ('[' :: s) = '[' :: s := skipBlank_cons _ rfl
  have hitems := skip_listed_or rfl rfl (fun v hv => passes_element (hvs v hv))
    (fun v hv => starts_element (hopens v hv)) ht (show 2 * _ < fuel by omega) s
  simp only [List.cons_append, List.append_assoc, List.nil_append, skipValueIn, hbracket]
  rcases hitems with hnone | ⟨c, r, hfirst, hne, hsome⟩
  · simp only [hnone]
  · rw [hfirst]
    split
    · next heq => exact absurd (List.cons.inj heq).1 hne
    · exact hsome

theorem skips_map {ms : List (Unit × List Char)} {t : List Char}
    (h : MapText (fun _ => IsLiteral) ms t) (hms : ∀ m ∈ ms, Skips m.2) : Skips t := by
  obtain ⟨ht⟩ := h
  apply skips_of_succ (List.cons_ne_nil _ _)
  intro fuel s hfuel _
  simp only [List.length_append, List.length_cons] at hfuel
  have hbrace (s : List Char) : skipBlank ('{' :: s) = '{' :: s := skipBlank_cons _ rfl
  have hitems := skip_listed_or rfl rfl (fun m hm => passes_member (hms m hm))
    (fun m _ => starts_member) ht (show 2 * _ < fuel by omega) s
  simp only [List.cons_append, List.append_assoc, List.nil_append, skipValueIn, hbrace]
  rcases hitems with hnone | ⟨c, r, hfirst, hne, hsome⟩
  · simp only [hnone]
  · rw [hfirst]
    split
    · next heq => exact absurd (List.cons.inj heq).1 hne
    · exact hsome

theorem IsValue.skips {t : List Char} (h : IsValue t) : Skips t := by
  induction h with
  | number h => exact skips_number h
  | text h => exact skips_text h
  | sequence h hvs ih => exact skips_sequence h (fun v hv => (hvs v hv).opens) ih
  | map h _ ih => exact skips_map h ih
  | _ => exact skips_of_succ (List.cons_ne_nil _ _) fun _ _ _ _ => rfl

/-- Passing over a value takes its text, with the blanks in front of it. -/
theorem skipValue_value {b t s : List Char} (hb : AreBlank b) (h : IsValue t) (hs : endsNumber s) :
    skipValue (b ++ (t ++ s)) = some s := by
  rw [skipValue, skipValueIn_append hb]
  apply h.skips _ _ _ hs
  simp only [List.length_append]
  omega

end SignalLights.Json
