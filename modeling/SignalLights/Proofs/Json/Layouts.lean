import Mathlib.Data.List.Nodup
import SignalLights.Proofs.Json.Readers

/-!
# Layouts of a structure

The members of a map may come in any order, and others may stand between them. What has been read
of a structure is then known from the names so far, in whichever order they came: `Fills` says so of
a single member. From it follows what a whole list of members gives, if no name comes twice
(`readsMembers_known`), and which name is complained about if one does (`readsMembers_repeated`).
-/

namespace SignalLights.Json.Reader

variable {δ : Type} {fields : List (FieldReader δ)} {draft : List String → δ} {ms : List Member}

def isField (fields : List (FieldReader δ)) (m : Member) : Bool := fields.any (·.name == m.1)

/-- The members that a structure has fields for. -/
def known (fields : List (FieldReader δ)) (ms : List Member) : List Member :=
  ms.filter (isField fields)

/-- The names of the fields that are read, in their order. -/
def knownNames (fields : List (FieldReader δ)) (ms : List Member) : List String :=
  (known fields ms).map (·.1)

/-- A member is read by its field, into whichever draft it comes to. -/
structure Fills (fields : List (FieldReader δ)) (draft : List String → δ) (f : FieldReader δ)
    (m : Member) : Prop where
  find : fields.find? (·.name == m.1) = some f
  present : ∀ names, f.present (draft names) = decide (m.1 ∈ names)
  reads : ∀ names, Reads (f.read (draft names)) m.2 (.ok (draft (m.1 :: names)))

theorem Fills.name_eq {f : FieldReader δ} {m : Member} (h : Fills fields draft f m) :
    f.name = m.1 := by
  simpa using List.find?_some h.find

theorem exists_fills {fs : List (FieldReader δ)} {m : Member}
    (h : List.Forall₂ (Fills fields draft) fs ms) (hm : m ∈ ms) : ∃ f, Fills fields draft f m := by
  induction h with
  | nil => cases hm
  | cons hf _ ih =>
    rcases List.mem_cons.1 hm with rfl | hm
    · exact ⟨_, hf⟩
    · exact ih hm

theorem find?_of_isField_eq_false {m : Member} (h : isField fields m = false) :
    fields.find? (·.name == m.1) = none := by
  rw [List.find?_eq_none]
  simpa [isField] using h

theorem knownNames_cons_known {m : Member} (h : isField fields m) :
    knownNames fields (m :: ms) = m.1 :: knownNames fields ms := by
  rw [knownNames, known, List.filter_cons_of_pos h]
  rfl

theorem knownNames_cons_unknown {m : Member} (h : isField fields m = false) :
    knownNames fields (m :: ms) = knownNames fields ms := by
  rw [knownNames, known, List.filter_cons_of_neg (by simp [h])]
  rfl

/-- Every member that is known fills its field, and every other one is well formed. -/
structure Readable (fields : List (FieldReader δ)) (draft : List String → δ) (ms : List Member) :
    Prop where
  fills : ∀ m ∈ ms, isField fields m → ∃ f, Fills fields draft f m
  others : ∀ m ∈ ms, isField fields m = false → IsValue m.2

theorem Readable.tail {m : Member} (h : Readable fields draft (m :: ms)) :
    Readable fields draft ms where
  fills x hx := h.fills x (List.mem_cons_of_mem _ hx)
  others x hx := h.others x (List.mem_cons_of_mem _ hx)

/-- Without repetition all the names are read. -/
theorem readsMembers_known (h : Readable fields draft ms) {names : List String}
    (hnodup : (knownNames fields ms ++ names).Nodup) :
    ReadsMembers fields (draft names) ms
      (.ok (draft ((knownNames fields ms).reverse ++ names))) := by
  induction ms generalizing names with
  | nil => exact .nil
  | cons m ms ih =>
    obtain ⟨k, v⟩ := m
    cases hfield : isField fields (k, v) with
    | false =>
      rw [knownNames_cons_unknown hfield] at hnodup ⊢
      have hvalue := h.others _ List.mem_cons_self hfield
      exact .unknown (find?_of_isField_eq_false hfield) hvalue (ih h.tail hnodup)
    | true =>
      rw [knownNames_cons_known hfield] at hnodup ⊢
      obtain ⟨f, hf⟩ := h.fills _ List.mem_cons_self hfield
      have hnew : k ∉ names := fun hmem =>
        (List.nodup_cons.1 hnodup).1 (List.mem_append_right _ hmem)
      have hrest : (knownNames fields ms ++ k :: names).Nodup :=
        (List.perm_middle.nodup_iff).2 hnodup
      rw [List.reverse_cons, List.append_assoc]
      exact .known hf.find (by rw [hf.present]; exact decide_eq_false hnew) (hf.reads names)
        (ih h.tail hrest)

/-- The one name that comes twice is complained about. -/
theorem readsMembers_repeated (h : Readable fields draft ms) {names : List String} {k : String}
    (hnodup : names.Nodup) (hk : 2 ≤ (knownNames fields ms ++ names).count k)
    (hothers : ∀ j, j ≠ k → (knownNames fields ms ++ names).count j ≤ 1) :
    ReadsMembers fields (draft names) ms (.error (.data (.duplicateField k))) := by
  induction ms generalizing names with
  | nil =>
    have hone := List.nodup_iff_count_le_one.1 hnodup k
    have htwo : 2 ≤ names.count k := hk
    omega
  | cons m ms ih =>
    obtain ⟨j, v⟩ := m
    cases hfield : isField fields (j, v) with
    | false =>
      rw [knownNames_cons_unknown hfield] at hk hothers
      have hvalue := h.others _ List.mem_cons_self hfield
      exact .unknown (find?_of_isField_eq_false hfield) hvalue (ih h.tail hnodup hk hothers)
    | true =>
      rw [knownNames_cons_known hfield] at hk hothers
      obtain ⟨f, hf⟩ := h.fills _ List.mem_cons_self hfield
      by_cases hold : j ∈ names
      · have hjk : j = k := by
          by_contra hne
          have hcount := hothers j hne
          have hpos := List.count_pos_iff.2 hold
          rw [List.cons_append, List.count_cons_self, List.count_append] at hcount
          omega
        have hname : f.name = k := hf.name_eq.trans hjk
        rw [← hname]
        exact .duplicate hf.find (by rw [hf.present]; exact decide_eq_true hold)
      · have hcount (i : String) : (knownNames fields ms ++ j :: names).count i =
            (j :: knownNames fields ms ++ names).count i := List.perm_middle.count_eq i
        refine .known hf.find (by rw [hf.present]; exact decide_eq_false hold) (hf.reads names) ?_
        apply ih h.tail (List.nodup_cons.2 ⟨hold, hnodup⟩)
        · rw [hcount]
          exact hk
        · intro i hi
          rw [hcount]
          exact hothers i hi

/-- The values of all fields in order are read like members. -/
theorem readsElements_fills {fs : List (FieldReader δ)} {names : List String}
    (h : List.Forall₂ (Fills fields draft) fs ms) (hopens : ∀ m ∈ ms, Opens m.2) :
    ReadsElements fs (draft names) (ms.map (·.2)) (draft ((ms.map (·.1)).reverse ++ names)) := by
  induction h generalizing names with
  | nil => exact .nil
  | cons hf _ ih =>
    rw [List.map_cons, List.map_cons, List.reverse_cons, List.append_assoc]
    exact .cons (hopens _ List.mem_cons_self) (hf.reads names)
      (ih fun m hm => hopens m (List.mem_cons_of_mem _ hm))

end SignalLights.Json.Reader
