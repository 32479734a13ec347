import SignalLights.Proofs.Exchange.Json
import SignalLights.Proofs.Json.Layouts

/-!
# Layouts of a configuration

A configuration is read from the seven members of its JSON text in any order, with blanks anywhere
and with other members between them, and needs each of the seven once (`json_layouts`). It is also
read from the sequence of the seven values.
-/

namespace SignalLights.Config

open Json Reader

/-- The draft of which the fields of these names were read. -/
def Draft.of (c : Config) (names : List String) : Draft where
  profile := if "profile" ∈ names then some c.profile else none
  blinkCount := if "blink_count" ∈ names then some c.blinkCount else none
  blinkPeriod := if "blink_period_secs" ∈ names then some c.blinkPeriod else none
  rangeFindingIsFinite :=
    if "range_finding_is_finite" ∈ names then some c.rangeFindingIsFinite else none
  rangeIndicator := if "range_indicator" ∈ names then some c.rangeIndicator else none
  rangeBlinkEnabled := if "range_blink_enabled" ∈ names then some c.rangeBlinkEnabled else none
  loopInterval := if "loop_interval_ms" ∈ names then some c.loopInterval else none

def fieldNames : List String := fields.map (·.name)

theorem nodup_fieldNames : fieldNames.Nodup := by decide

variable (c : Config)

theorem fills_field {α : Type} {name : String} {get : Draft → Option α} {set : Draft → α → Draft}
    {reader : Json.Reader α} {v : List Char} {a : α}
    (hfind : fields.find? (·.name == name) = some (draftField name get set reader))
    (hget : ∀ names, get (.of c names) = if name ∈ names then some a else none)
    (hset : ∀ names, set (.of c names) a = .of c (name :: names)) (hread : Reads reader v (.ok a)) :
    Fills fields (.of c) (draftField name get set reader) (name, v) where
  find := hfind
  present names := by
    change (get (.of c names)).isSome = _
    rw [hget]
    split <;> simp [*]
  reads names := by
    rw [← hset]
    exact hread.map (set (.of c names))

/-- Every member of a configuration fills its field, if the period is written as a number. -/
theorem fills_members (h : c.blinkPeriod.isFinite) :
    List.Forall₂ (Fills fields (.of c)) fields c.members := by
  have hperiod := reads_binary64 c.blinkPeriod
  rw [if_pos h] at hperiod
  refine .cons ?_ (.cons ?_ (.cons ?_ (.cons ?_ (.cons ?_ (.cons ?_ (.cons ?_ .nil))))))
  · exact c.fills_field rfl (fun _ => rfl) (by simp [Draft.of]) (reads_enumerated c.profile)
  · exact c.fills_field rfl (fun _ => rfl) (by simp [Draft.of]) (reads_uint32 c.blinkCount)
  · exact c.fills_field rfl (fun _ => rfl) (by simp [Draft.of]) hperiod
  · exact c.fills_field rfl (fun _ => rfl) (by simp [Draft.of]) (reads_bool c.rangeFindingIsFinite)
  · exact c.fills_field rfl (fun _ => rfl) (by simp [Draft.of]) (reads_enumerated c.rangeIndicator)
  · exact c.fills_field rfl (fun _ => rfl) (by simp [Draft.of]) (reads_bool c.rangeBlinkEnabled)
  · exact c.fills_field rfl (fun _ => rfl) (by simp [Draft.of]) (reads_uint32 c.loopInterval)

theorem opens_members (h : c.blinkPeriod.isFinite) : ∀ m ∈ c.members, Opens m.2 := by
  have htext (t : List Char) : Opens ('"' :: t) := ⟨_, _, rfl, rfl, by decide⟩
  have hdigits (n : UInt32) : Opens (Json.Writer.uint32 n) :=
    opens_of_startsNumber (exists_startsNumber_digits n.toNat)
  have hbool (on : Bool) : Opens (Json.Writer.bool on) := by
    cases on <;> exact ⟨_, _, rfl, rfl, by decide⟩
  have hperiod : Opens (Json.Writer.binary64 c.blinkPeriod) := by
    rw [Json.Writer.binary64, if_pos h]
    exact opens_of_startsNumber (exists_startsNumber_write h)
  simp only [members, List.forall_mem_cons, hdigits, hbool, hperiod, true_and]
  exact ⟨htext _, htext _, List.forall_mem_nil _⟩

/-! ## What is missing -/

theorem required_ite {α : Type} (name : String) (names : List String) (a : α) :
    required name (if name ∈ names then some a else none) =
      if name ∈ names then .ok a else .error (.missingField name) := by
  split <;> rfl

/-- The first name that was not read is missing. -/
theorem finish_of (names : List String) :
    (Draft.of c names).finish =
      match fieldNames.find? (· ∉ names) with
      | none => .ok c
      | some k => .error (.missingField k) := by
  have hnames : fieldNames = ["profile", "blink_count", "blink_period_secs",
    "range_finding_is_finite", "range_indicator", "range_blink_enabled", "loop_interval_ms"] := rfl
  have hfound (k : String) (ks : List String) : (k :: ks).find? (· ∉ names) =
      if k ∈ names then ks.find? (· ∉ names) else some k := by
    by_cases h : k ∈ names <;> simp [h]
  simp only [Draft.finish, Draft.of, required_ite, hnames, hfound, List.find?_nil]
  -- the fields are asked for in order, and the first that is missing settles both sides
  iterate 7
    split
    rotate_left
    · rfl
  rfl

theorem finish_of_perm {names : List String} (h : names.Perm fieldNames) :
    (Draft.of c names).finish = .ok c := by
  have hnone : fieldNames.find? (· ∉ names) = none := by
    rw [List.find?_eq_none]
    intro k hk
    simpa using h.mem_iff.2 hk
  rw [finish_of, hnone]

theorem finish_of_cons_perm {names : List String} {k : String} (h : (k :: names).Perm fieldNames) :
    (Draft.of c names).finish = .error (.missingField k) := by
  have hnew : k ∉ names := (List.nodup_cons.1 (h.nodup_iff.2 nodup_fieldNames)).1
  have hsome : fieldNames.find? (· ∉ names) = some k := by
    cases hfind : fieldNames.find? (· ∉ names) with
    | none =>
      have hread := List.find?_eq_none.1 hfind k (h.mem_iff.1 List.mem_cons_self)
      exact absurd hnew (by simpa using hread)
    | some j =>
      have hj : j ∉ names := by simpa using List.find?_some hfind
      have hmem := h.mem_iff.2 (List.mem_of_find?_eq_some hfind)
      rw [(List.mem_cons.1 hmem).resolve_right hj]
  rw [finish_of, hsome]

/-! ## Maps and sequences -/

section Layouts

variable {c} {ms : List Member} {t : List Char}

theorem readable (h : c.blinkPeriod.isFinite) (hknown : ∀ m ∈ known fields ms, m ∈ c.members)
    (hothers : ∀ m ∈ ms, isField fields m = false → IsValue m.2) :
    Readable fields (.of c) ms where
  fills m hm hfield := exists_fills (c.fills_members h) (hknown m (List.mem_filter.2 ⟨hm, hfield⟩))
  others := hothers

theorem of_nil (c : Config) : Draft.of c [] = .blank := by
  simp [Draft.of, Draft.blank]

theorem reads_of_nodup (h : Readable fields (.of c) ms) (hnodup : (knownNames fields ms).Nodup)
    (ht : MapText SpellsName ms t) :
    Reads fromJson t (lift (Draft.of c (knownNames fields ms).reverse).finish) := by
  have hmembers := @readsMembers_known _ _ _ _ h [] (by rwa [List.append_nil])
  rw [of_nil, List.append_nil] at hmembers
  exact @reads_map _ _ shape _ _ _ hmembers ht

theorem reads_of_repeated (h : Readable fields (.of c) ms) {k : String}
    (hperm : (knownNames fields ms).Perm (k :: fieldNames)) (hk : k ∈ fieldNames)
    (ht : MapText SpellsName ms t) :
    Reads fromJson t (.error (.data (.duplicateField k))) := by
  have hone := List.nodup_iff_count_le_one.1 nodup_fieldNames
  have hmembers := @readsMembers_repeated _ _ _ _ h [] k .nil ?_ ?_
  · rw [of_nil] at hmembers
    exact @reads_map _ _ shape _ _ _ hmembers ht
  · rw [List.append_nil, hperm.count_eq, List.count_cons_self]
    exact Nat.succ_le_succ (List.count_pos_iff.2 hk)
  · intro j hj
    rw [List.append_nil, hperm.count_eq, List.count_cons_of_ne hj.symm]
    exact hone j

end Layouts

/-- **Layouts of a configuration.** A JSON map whose members are the seven of a configuration, in
any order, is read as the configuration, whatever well-formed members of other names stand between
them and wherever there are blanks. If one of the seven is left out, it is the field that is missing,
and if one of them comes twice, it is the duplicate field. The sequence of the seven values, in the
order of the fields, is read as the configuration too. -/
theorem json_layouts (c : Config) (h : c.blinkPeriod.isFinite) :
    c.toJson = Json.Writer.map c.members ∧
    (∀ ms t b b', MapText SpellsName ms t → AreBlank b → AreBlank b' →
      (∀ m ∈ ms, isField fields m = false → IsValue m.2) →
      let result := whole fromJson (String.ofList (b ++ (t ++ b')))
      ((known fields ms).Perm c.members → result = .ok c) ∧
      (∀ m ∈ c.members, (m :: known fields ms).Perm c.members →
        result = .error (.data (.missingField m.1))) ∧
      ∀ m ∈ c.members, (known fields ms).Perm (m :: c.members) →
        result = .error (.data (.duplicateField m.1))) ∧
    ∀ t b b', SequenceText (c.members.map (·.2)) t → AreBlank b → AreBlank b' →
      whole fromJson (String.ofList (b ++ (t ++ b'))) = .ok c := by
  refine ⟨rfl, ?_, ?_⟩
  · intro ms t b b' ht hb hb' hothers
    refine ⟨?_, ?_, ?_⟩
    · intro hperm
      have hreadable := readable h (fun m hm => hperm.mem_iff.1 hm) hothers
      have hnames : (knownNames fields ms).Perm fieldNames := hperm.map Prod.fst
      have hread := reads_of_nodup hreadable (hnames.nodup_iff.2 nodup_fieldNames) ht
      rw [c.finish_of_perm ((List.reverse_perm _).trans hnames)] at hread
      exact whole_of_reads_between hread hb hb'
    · intro m hm hperm
      have hreadable := readable h (fun x hx => hperm.mem_iff.1 (List.mem_cons_of_mem _ hx)) hothers
      have hnames : (m.1 :: knownNames fields ms).Perm fieldNames := hperm.map Prod.fst
      have hnodup := (List.nodup_cons.1 (hnames.nodup_iff.2 nodup_fieldNames)).2
      have hread := reads_of_nodup hreadable hnodup ht
      rw [c.finish_of_cons_perm (((List.reverse_perm _).cons _).trans hnames)] at hread
      exact whole_of_reads_between hread hb hb'
    · intro m hm hperm
      have hknown : ∀ x ∈ known fields ms, x ∈ c.members := by
        intro x hx
        rcases List.mem_cons.1 (hperm.mem_iff.1 hx) with rfl | hx
        · exact hm
        · exact hx
      have hnames : (knownNames fields ms).Perm (m.1 :: fieldNames) := hperm.map Prod.fst
      have hread := reads_of_repeated (readable h hknown hothers) hnames
        (List.mem_map_of_mem hm) ht
      exact whole_of_reads_between hread hb hb'
  · intro t b b' ht hb hb'
    have helements := @readsElements_fills _ _ _ _ _ [] (c.fills_members h) (c.opens_members h)
    rw [of_nil, List.append_nil] at helements
    have hread := @reads_sequence _ _ shape _ _ _ helements ht
    have hall : shape.finish (.of c (c.members.map (·.1)).reverse) = .ok c :=
      c.finish_of_perm (List.reverse_perm _)
    rw [hall] at hread
    exact whole_of_reads_between hread hb hb'

/-- The members backwards, behind a note that no field is for; and all but the profile. -/
theorem json_layouts_backwards :
    let note : Member := ("note", "[\x7b\"a\" : null\x7d,-0.0E+0]".toList)
    let ms := standard.members
    whole fromJson (String.ofList ([' '] ++ (Json.Writer.map (note :: ms.reverse) ++ ['\n']))) =
      .ok standard ∧
    whole fromJson (String.ofList ([' '] ++ (Json.Writer.map ms.tail ++ ['\n']))) =
      .error (.data (.missingField "profile")) := by
  intro note ms
  obtain ⟨-, hmap, -⟩ := json_layouts standard (by decide)
  have hkey : IsLiteral ['a'] := .plain (by decide) (by decide) (by decide) .nil
  have hmember := @MemberText.mk Unit (fun _ => IsLiteral) () ['a'] ['n', 'u', 'l', 'l']
    [] [' '] [' '] nofun hkey (by decide) (by decide)
  have hinner := IsValue.map (.mk (.cons .first hmember (.nil (b := []) nofun)))
    (List.forall_mem_singleton.2 .null)
  have hnumber : IsNumber ['-', '0', '.', '0', 'E', '+', '0'] := by
    refine ⟨⟨true, ['0'], some ['0'], some (false, ['0'])⟩, ⟨areDigits_zero, .inl rfl, ?_, ?_⟩,
      .mk (.plus (.inr rfl))⟩
    · rintro _ ⟨⟩
      exact areDigits_zero
    · rintro _ _ ⟨⟩
      exact areDigits_zero
  have hsequence := IsValue.sequence (.mk (.cons .first (.mk (b := []) nofun)
    (.cons (.next (b := []) nofun) (.mk (b := []) nofun) (.nil (b := []) nofun))))
    (List.forall_mem_cons.2 ⟨hinner, List.forall_mem_singleton.2 (.number hnumber)⟩)
  have hnote : IsValue note.2 := by
    convert hsequence
    decide +kernel
  have hfields : ∀ m ∈ ms, isField fields m := by decide +kernel
  have hothers {ns : List Member} (h : ∀ m ∈ ns, m ∈ ms) :
      ∀ m ∈ ns, isField fields m = false → IsValue m.2 := by
    intro m hm hno
    rw [hfields m (h m hm)] at hno
    cases hno
  have hknown {ns : List Member} (h : ∀ m ∈ ns, m ∈ ms) : known fields ns = ns :=
    List.filter_eq_self.2 fun m hm => hfields m (h m hm)
  have hreverse : ∀ m ∈ ms.reverse, m ∈ ms := fun m hm => List.mem_reverse.1 hm
  have htail : ∀ m ∈ ms.tail, m ∈ ms := fun m hm => List.mem_of_mem_tail hm
  constructor
  · obtain ⟨hread, -⟩ := hmap (note :: ms.reverse) _ [' '] ['\n'] (mapText_map _) (by decide)
      (by decide) (List.forall_mem_cons.2 ⟨fun _ => hnote, hothers hreverse⟩)
    rw [known, List.filter_cons_of_neg (by decide +kernel), ← known, hknown hreverse] at hread
    exact hread (List.reverse_perm _)
  · obtain ⟨-, hmissing, -⟩ := hmap ms.tail _ [' '] ['\n'] (mapText_map _) (by decide) (by decide)
      (hothers htail)
    rw [hknown htail] at hmissing
    exact hmissing ("profile", _) List.mem_cons_self (.refl _)

end SignalLights.Config
