import SignalLights.Json.Reader
import SignalLights.Proofs.Json.Grammar
import SignalLights.Proofs.Json.Numbers

/-!
# What readers make of what is written

`Reads reader t r` says that `reader` makes `r` of the text `t`, whatever blanks are in front of it
and whatever follows a value there. It holds of the readers of single values on what the writers
give, and is carried to structures, as maps (`ReadsMembers`) or sequences (`ReadsElements`) in every
layout that the grammar has, and to variants.
-/

namespace SignalLights.Json

namespace Reader

variable {α β δ τ : Type}

/-- A reader takes exactly the text `t`, with the result `r`. -/
def Reads (reader : Reader α) (t : List Char) (r : Except Failure α) : Prop :=
  ∀ b rest, AreBlank b → endsNumber rest → reader (b ++ (t ++ rest)) = r.map (·, rest)

theorem Reads.map {reader : Reader α} {t : List Char} {r : Except Failure α}
    (h : Reads reader t r) (f : α → β) :
    Reads (fun s => do let (a, rest) ← reader s; return (f a, rest)) t (r.map f) := by
  intro b rest hb hrest
  dsimp only
  rw [h b rest hb hrest]
  cases r <;> rfl

/-- A text may have blanks at both of its ends. -/
theorem whole_of_reads_between {reader : Reader α} {b t b' : List Char} {r : Except Failure α}
    (h : Reads reader t r) (hb : AreBlank b) (hb' : AreBlank b') :
    whole reader (String.ofList (b ++ (t ++ b'))) = r := by
  have hrest : endsNumber b' := by
    rw [← List.append_nil b']
    exact endsNumber_blank_append hb' rfl
  have hnone : skipBlank b' = [] := by
    rw [← List.append_nil b', skipBlank_append hb']
    rfl
  rw [whole, String.toList_ofList, h b b' hb hrest]
  cases r with
  | error e => rfl
  | ok a =>
    simp only [bind, Except.bind, Except.map, hnone]
    rfl

theorem whole_of_reads {reader : Reader α} {t : List Char} {r : Except Failure α}
    (h : Reads reader t r) : whole reader (String.ofList t) = r := by
  have ht := @whole_of_reads_between _ _ [] _ [] _ h nofun nofun
  rwa [List.nil_append, List.append_nil] at ht

/-! ## Single values -/

theorem reads_text (t : String) : Reads text (Writer.text t) (.ok t) := by
  intro b rest hb _
  rw [text, skipBlank_append hb, Writer.text, List.cons_append, skipBlank_cons _ rfl]
  simp only [List.append_assoc, List.singleton_append, string_text, ofOption, Except.map,
    String.ofList_toList]

theorem reads_bool (on : Bool) : Reads bool (Writer.bool on) (.ok on) := by
  intro b rest hb _
  rw [bool, skipBlank_append hb]
  cases on <;> rfl

/-- A number is handed on as it is read. -/
theorem reads_numeric {expected : String} {take : Number → Except Failure α} {t : List Char}
    {v : Number} {r : Except Failure α} (hstart : ∃ c cs, t = c :: cs ∧ startsNumber c)
    (hread : ∀ rest, endsNumber rest → number (t ++ rest) = some (v, rest)) (htake : take v = r) :
    Reads (numeric expected take) t r := by
  intro b rest hb hrest
  obtain ⟨c, cs, rfl, hc⟩ := hstart
  rw [numeric, skipBlank_append hb, List.cons_append, skipBlank_cons _ (isBlank_of_startsNumber hc)]
  dsimp only
  rw [if_pos hc, ← List.cons_append, hread rest hrest]
  cases r <;> simp [ofOption, bind, Except.bind, htake, Except.map, pure, Except.pure]

theorem reads_uint32 (m : UInt32) : Reads uint32 (Writer.uint32 m) (.ok m) := by
  have hm : m.toNat < 0x100000000 := m.toNat_lt
  have hread (rest : List Char) (hrest : endsNumber rest) :
      number (Writer.uint32 m ++ rest) = some (.whole m.toNat, rest) :=
    number_digits (by omega) hrest
  refine reads_numeric ?_ hread ?_
  · exact exists_startsNumber_digits m.toNat
  · simp only [if_pos hm, UInt32.ofNat_toNat]

/-- What is read where a double that is not finite was written. -/
def nullDouble : Failure := .data (.invalidType .null "f64")

/-- A finite double is read back, any other one is found to be missing. -/
theorem reads_binary64 (x : Binary64) :
    Reads binary64 (Writer.binary64 x) (if x.isFinite then .ok x else .error nullDouble) := by
  cases hx : x.isFinite with
  | true =>
    rw [Writer.binary64, if_pos hx]
    exact reads_numeric (exists_startsNumber_write hx) (fun rest hrest => number_write hx hrest) rfl
  | false =>
    intro b rest hb _
    rw [binary64, numeric, skipBlank_append hb, Writer.binary64, hx]
    rfl

/-! ## Members of a map -/

/-- A member of a map: its key, and the text of its value. -/
abbrev Member := String × List Char

def SpellsName (name : String) (t : List Char) : Prop := Spells name.toList t

/-- What a list of members makes of a draft. Reading ends with the first fault. -/
inductive ReadsMembers (fields : List (FieldReader δ)) :
    δ → List Member → Except Failure δ → Prop
  | nil {d} : ReadsMembers fields d [] (.ok d)
  | known {d d' f k v ms r} (hfind : fields.find? (·.name == k) = some f)
      (habsent : f.present d = false) (hread : Reads (f.read d) v (.ok d'))
      (htail : ReadsMembers fields d' ms r) : ReadsMembers fields d ((k, v) :: ms) r
  | fault {d f k v ms e} (hfind : fields.find? (·.name == k) = some f)
      (habsent : f.present d = false) (hread : Reads (f.read d) v (.error e)) :
      ReadsMembers fields d ((k, v) :: ms) (.error e)
  | unknown {d k v ms r} (hfind : fields.find? (·.name == k) = none) (hvalue : IsValue v)
      (htail : ReadsMembers fields d ms r) : ReadsMembers fields d ((k, v) :: ms) r
  | duplicate {d f k v ms} (hfind : fields.find? (·.name == k) = some f)
      (hpresent : f.present d = true) :
      ReadsMembers fields d ((k, v) :: ms) (.error (.data (.duplicateField f.name)))

theorem colon_append {b : List Char} (hb : AreBlank b) (s : List Char) :
    colon (b ++ ':' :: s) = .ok s := by
  rw [colon, skipBlank_append hb]
  rfl

theorem nextKey_lead {isFirst : Bool} {lead b : List Char} (hlead : Lead isFirst lead)
    (hb : AreBlank b) (s : List Char) :
    nextKey isFirst (lead ++ (b ++ '"' :: s)) = .ok (true, s) := by
  have hquote : skipBlank ('"' :: s) = '"' :: s := skipBlank_cons _ rfl
  cases hlead with
  | first => simp only [List.nil_append, nextKey, skipBlank_append hb, hquote, if_true]
  | next hb' =>
    have hcomma (s : List Char) : skipBlank (',' :: s) = ',' :: s := skipBlank_cons _ rfl
    simp [nextKey, skipBlank_append hb', hcomma, skipBlank_append hb, hquote]

section Members

variable {fields : List (FieldReader δ)} {d : δ} {isFirst : Bool} {ms : List Member}
  {t : List Char}

/-- Its name decides what becomes of a member. -/
theorem exists_members_cons {k : String} {v : List Char}
    (ht : Listed (MemberText SpellsName) isFirst ((k, v) :: ms) t) (fuel : Nat)
    (rest : List Char) :
    ∃ b t', AreBlank b ∧ Listed (MemberText SpellsName) false ms t' ∧
      members fields (fuel + 1) isFirst d (t ++ '}' :: rest) =
        (fields.find? (·.name == k)).elim
          ((ofOption (skipValue (b ++ (v ++ (t' ++ '}' :: rest))))).bind
            (members fields fuel false d))
          fun f =>
            if f.present d then fail (.duplicateField f.name)
            else (f.read d (b ++ (v ++ (t' ++ '}' :: rest)))).bind
              fun (d, r) => members fields fuel false d r := by
  cases ht with
  | cons hlead hmember htail =>
    obtain ⟨hb, hkey, hb', hb''⟩ := hmember
    refine ⟨_, _, hb'', htail, ?_⟩
    simp only [List.append_assoc, List.cons_append, members, nextKey_lead hlead hb,
      string_spelled hkey, colon_append hb', bind, Except.bind, Bool.not_true, Bool.false_eq_true,
      if_false, ofOption, String.ofList_toList]
    cases fields.find? (·.name == k) <;> rfl

/-- Members are read one by one, up to the brace that closes the map. -/
theorem members_listed {r : Except Failure δ} (h : ReadsMembers fields d ms r)
    (ht : Listed (MemberText SpellsName) isFirst ms t) {fuel : Nat} (hfuel : ms.length ≤ fuel)
    (rest : List Char) :
    members fields (fuel + 1) isFirst d (t ++ '}' :: rest) = r.map (·, rest) := by
  induction h generalizing isFirst t fuel with
  | nil =>
    obtain ⟨hb⟩ := ht
    rw [members, nextKey, skipBlank_append hb]
    rfl
  | known hfind habsent hread _ ih =>
    obtain ⟨fuel, rfl⟩ : ∃ n, fuel = n + 1 := Nat.exists_eq_add_one.2 (Nat.zero_lt_of_lt hfuel)
    obtain ⟨b, t, hb, htail, hstep⟩ := exists_members_cons ht (fuel + 1) rest
    rw [hstep, hfind, Option.elim_some, if_neg (by simp [habsent]),
      hread b _ hb (htail.endsNumber rfl)]
    exact ih htail (Nat.le_of_succ_le_succ hfuel)
  | fault hfind habsent hread =>
    obtain ⟨b, t, hb, htail, hstep⟩ := exists_members_cons ht fuel rest
    rw [hstep, hfind, Option.elim_some, if_neg (by simp [habsent]),
      hread b _ hb (htail.endsNumber rfl)]
    rfl
  | unknown hfind hvalue _ ih =>
    obtain ⟨fuel, rfl⟩ : ∃ n, fuel = n + 1 := Nat.exists_eq_add_one.2 (Nat.zero_lt_of_lt hfuel)
    obtain ⟨b, t, hb, htail, hstep⟩ := exists_members_cons ht (fuel + 1) rest
    rw [hstep, hfind, Option.elim_none, skipValue_value hb hvalue (htail.endsNumber rfl)]
    exact ih htail (Nat.le_of_succ_le_succ hfuel)
  | duplicate hfind hpresent =>
    obtain ⟨b, t, hb, htail, hstep⟩ := exists_members_cons ht fuel rest
    rw [hstep, hfind, Option.elim_some, if_pos hpresent]
    rfl

end Members

/-! ## Elements of a sequence -/

/-- What the values of all fields, in order, make of a draft. -/
inductive ReadsElements : List (FieldReader δ) → δ → List (List Char) → δ → Prop
  | nil {d} : ReadsElements [] d [] d
  | cons {f fs d d' d'' v vs} (hopens : Opens v) (hread : Reads (f.read d) v (.ok d'))
      (htail : ReadsElements fs d' vs d'') : ReadsElements (f :: fs) d (v :: vs) d''

theorem nextElement_lead {isFirst : Bool} {lead b v : List Char} (hlead : Lead isFirst lead)
    (hb : AreBlank b) (hv : Opens v) (s : List Char) :
    nextElement isFirst (lead ++ (b ++ (v ++ s))) = .ok (some (v ++ s)) := by
  obtain ⟨c, cs, rfl, hblank, hclose⟩ := hv
  have hitem : skipBlank (b ++ c :: (cs ++ s)) = c :: (cs ++ s) := by
    rw [skipBlank_append hb, skipBlank_cons _ hblank]
  cases hlead with
  | first => simp [nextElement, hitem]
  | next hb' =>
    have hcomma (s : List Char) : skipBlank (',' :: s) = ',' :: s := skipBlank_cons _ rfl
    simp [nextElement, skipBlank_append hb', hcomma, hitem, hclose]

/-- Elements are read one by one, up to the bracket that closes the sequence. -/
theorem elements_listed {fields : List (FieldReader δ)} {d d' : δ} {vs : List (List Char)}
    (h : ReadsElements fields d vs d') {i : Nat} {t : List Char}
    (ht : Listed ElementText (i == 0) vs t) (expected : String) (rest : List Char) :
    ∃ b, AreBlank b ∧
      elements expected i fields d (t ++ ']' :: rest) = .ok (d', b ++ ']' :: rest) := by
  induction h generalizing i t with
  | nil =>
    obtain ⟨hb⟩ := ht
    exact ⟨_, hb, rfl⟩
  | cons hopens hread _ ih =>
    cases ht with
    | cons hlead ha htail =>
      obtain ⟨hb⟩ := ha
      obtain ⟨b, hb', hrest⟩ := @ih (i + 1) _ htail
      refine ⟨b, hb', ?_⟩
      have hvalue := hread [] _ nofun (htail.endsNumber (s := ']' :: rest) rfl)
      rw [List.nil_append] at hvalue
      simp only [List.append_assoc, elements, nextElement_lead hlead hb hopens, hvalue, hrest, bind,
        Except.bind, Except.map]

/-! ## Structures and variants -/

theorem memberText_member (k : String) (v : List Char) :
    MemberText SpellsName (k, v) (Writer.member k v) := by
  have hkey : SpellsName k (k.toList.flatMap Writer.escape) := spells_escape _
  have hcompact : Writer.member k v =
      [] ++ '"' :: (k.toList.flatMap Writer.escape ++ '"' :: ([] ++ ':' :: ([] ++ v))) := by
    simp [Writer.member, Writer.text]
  rw [hcompact]
  exact .mk nofun hkey nofun nofun

/-- What the writer puts behind the first member. -/
theorem exists_join_eq (s : List Char) (ms : List Member) :
    ∃ t, Writer.join (s :: ms.map fun (k, v) => Writer.member k v) = s ++ t ∧
      Listed (MemberText SpellsName) false ms t := by
  induction ms generalizing s with
  | nil => exact ⟨[], by simp [Writer.join], .nil nofun⟩
  | cons m ms ih =>
    obtain ⟨k, v⟩ := m
    obtain ⟨t, hjoin, ht⟩ := ih (Writer.member k v)
    have hlisted := Listed.cons (.next (b := []) nofun) (memberText_member k v) ht
    refine ⟨_, ?_, hlisted⟩
    rw [List.map_cons, Writer.join, hjoin]
    rfl

/-- A map as it is written is one of its layouts. -/
theorem mapText_map (ms : List Member) : MapText SpellsName ms (Writer.map ms) := by
  cases ms with
  | nil => exact .mk (.nil (b := []) nofun)
  | cons m ms =>
    obtain ⟨k, v⟩ := m
    obtain ⟨t, hjoin, ht⟩ := exists_join_eq (Writer.member k v) ms
    rw [Writer.map, List.map_cons, hjoin]
    exact .mk (.cons .first (memberText_member k v) ht)

section Structures

variable {sh : Shape δ α} {t : List Char}

/-- A structure is what its members make of a blank draft, if none is missing then. -/
theorem reads_map {ms : List Member} {r : Except Failure δ}
    (h : ReadsMembers sh.fields sh.blank ms r) (ht : MapText SpellsName ms t) :
    Reads (structured sh) t (r.bind fun d => lift (sh.finish d)) := by
  intro b rest hb _
  obtain ⟨ht⟩ := ht
  have hfuel := ht.length_le (by rintro _ _ ⟨⟩; simp)
  have hmembers := members_listed h ht
    (hfuel.trans (List.sublist_append_left _ ('}' :: rest)).length_le) rest
  rw [structured, skipBlank_append hb, List.cons_append, skipBlank_cons _ rfl]
  simp only [List.append_assoc, List.singleton_append, hmembers, bind]
  cases r with
  | error e => rfl
  | ok d => cases hd : lift (sh.finish d) <;> simp [Except.map, Except.bind, hd, pure, Except.pure]

theorem reads_structured {ms : List Member} {r : Except Failure δ}
    (h : ReadsMembers sh.fields sh.blank ms r) :
    Reads (structured sh) (Writer.map ms) (r.bind fun d => lift (sh.finish d)) :=
  reads_map h (mapText_map ms)

/-- The values alone do as well, in the order of the fields. -/
theorem reads_sequence {vs : List (List Char)} {d : δ}
    (h : ReadsElements sh.fields sh.blank vs d) (ht : SequenceText vs t) :
    Reads (structured sh) t (lift (sh.finish d)) := by
  intro b rest hb _
  obtain ⟨ht⟩ := ht
  obtain ⟨b', hb', helements⟩ := elements_listed (i := 0) h ht sh.expectedLength rest
  have hclose : closeSequence (b' ++ ']' :: rest) = .ok rest := by
    rw [closeSequence, skipBlank_append hb']
    rfl
  rw [structured, skipBlank_append hb, List.cons_append, skipBlank_cons _ rfl]
  simp only [List.append_assoc, List.singleton_append, helements, bind, Except.bind]
  cases lift (sh.finish d) with
  | error e => rfl
  | ok a => simp [hclose, Except.map, pure, Except.pure]

end Structures

section Variants

variable [DecidableEq τ] [Enumerated τ] {bare : τ → Except Failure α} {payload : τ → Reader α}

theorem tagOf_name (t : τ) : tagOf (Enumerated.name t) = .ok t := by
  rw [tagOf, Enumerated.ofName?_name]

/-- A variant with a payload is a map of one member. -/
theorem reads_variant {t : τ} {v : List Char} {r : Except Failure α} (h : Reads (payload t) v r) :
    Reads (variant bare payload) (Writer.map [(Enumerated.name t, v)]) r := by
  intro b rest hb _
  have hpayload := h [] ('}' :: rest) nofun rfl
  have hkey : key ('"' :: ((Enumerated.name t).toList.flatMap Writer.escape ++
      '"' :: ':' :: (v ++ '}' :: rest))) =
      some ((Enumerated.name t).toList, ':' :: (v ++ '}' :: rest)) := by
    rw [key, skipBlank_cons _ rfl]
    exact string_text _ _
  have hcolon : colon (':' :: (v ++ '}' :: rest)) = .ok (v ++ '}' :: rest) :=
    colon_append (b := []) nofun _
  rw [List.nil_append] at hpayload
  rw [variant, skipBlank_append hb, Writer.map, List.cons_append, skipBlank_cons _ rfl]
  simp only [List.map_cons, List.map_nil, Writer.join, Writer.member, Writer.text,
    List.cons_append, List.nil_append, List.append_assoc, hkey, ofOption, bind, Except.bind,
    String.ofList_toList, tagOf_name, hcolon, hpayload]
  cases r <;> rfl

/-- A variant without payload is its name. -/
theorem reads_bare (t : τ) : Reads (variant bare payload) (Writer.enumerated t) (bare t) := by
  intro b rest hb _
  rw [variant, skipBlank_append hb, Writer.enumerated, Writer.text, List.cons_append,
    skipBlank_cons _ rfl]
  simp only [List.append_assoc, List.singleton_append, string_text, ofOption, bind, Except.bind,
    String.ofList_toList, tagOf_name]
  cases bare t <;> rfl

theorem reads_enumerated (t : τ) : Reads enumerated (Writer.enumerated t) (.ok t) := reads_bare t

end Variants

end Reader
end SignalLights.Json
