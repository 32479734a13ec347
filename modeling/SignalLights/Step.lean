/-!
# Steps

A step takes a state to the next one and lists what happened on the way. Steps make a chain, which
lists what happened in all of them, in order.
-/

namespace SignalLights

abbrev Step (σ ε : Type) := σ → σ × List ε

namespace Step

variable {σ ε : Type}

def skip : Step σ ε := fun s => (s, [])

/-- A change of state that nobody is told of. -/
def modify (f : σ → σ) : Step σ ε := fun s => (f s, [])

/-- A step only taken when `b` holds. -/
def onlyIf (b : Bool) (f : Step σ ε) : Step σ ε := if b then f else skip

@[simp] theorem skip_apply (s : σ) : (skip : Step σ ε) s = (s, []) := rfl

@[simp] theorem modify_apply (f : σ → σ) (s : σ) : (modify f : Step σ ε) s = (f s, []) := rfl

theorem onlyIf_apply (b : Bool) (f : Step σ ε) (s : σ) :
    onlyIf b f s = if b then f s else (s, []) := by
  cases b <;> rfl

/-- Steps one after the other. -/
def chain : List (Step σ ε) → Step σ ε
  | [], s => (s, [])
  | f :: fs, s =>
    let r := f s
    let t := chain fs r.1
    (t.1, r.2 ++ t.2)

@[simp] theorem chain_nil (s : σ) : chain ([] : List (Step σ ε)) s = (s, []) := rfl

@[simp] theorem chain_cons (f : Step σ ε) (fs : List (Step σ ε)) (s : σ) :
    chain (f :: fs) s = ((chain fs (f s).1).1, (f s).2 ++ (chain fs (f s).1).2) := rfl

theorem chain_append (fs gs : List (Step σ ε)) (s : σ) :
    chain (fs ++ gs) s =
      ((chain gs (chain fs s).1).1, (chain fs s).2 ++ (chain gs (chain fs s).1).2) := by
  induction fs generalizing s with
  | nil => simp
  | cons f fs ih => simp [ih, List.append_assoc]

/-- What every step of a chain keeps, the chain keeps. -/
theorem chain_keeps {P : σ → Prop} {fs : List (Step σ ε)} (h : ∀ f ∈ fs, ∀ s, P s → P (f s).1) :
    ∀ s, P s → P (chain fs s).1 := by
  induction fs with
  | nil => exact fun _ hs => hs
  | cons f fs ih =>
    intro s hs
    exact ih (fun g hg => h g (List.mem_cons_of_mem _ hg)) _ (h f List.mem_cons_self s hs)

/-- A change of state that every step of a chain goes along with, the chain goes along with. -/
theorem chain_commutes {g : σ → σ} {fs : List (Step σ ε)}
    (h : ∀ f ∈ fs, ∀ s, (f (g s)).1 = g (f s).1) : ∀ s, (chain fs (g s)).1 = g (chain fs s).1 := by
  induction fs with
  | nil => exact fun _ => rfl
  | cons f fs ih =>
    intro s
    rw [chain_cons, chain_cons, h f List.mem_cons_self s]
    exact ih (fun k hk => h k (List.mem_cons_of_mem _ hk)) _

/-- Steps may be left out of a chain that show nothing and lead to a state where the steps kept show
the same as they would have. Two such states are related by `R`. -/
theorem chain_filter {ι : Type} {step : ι → Step σ ε} {keep : ι → Bool} {shown : ε → Bool}
    {R : σ → σ → Prop}
    (hkept : ∀ i, keep i → ∀ s t, R s t →
      (step i s).2.filter shown = (step i t).2.filter shown ∧ R (step i s).1 (step i t).1)
    (hleft : ∀ i, keep i = false → ∀ s t, R s t →
      (step i s).2.filter shown = [] ∧ R (step i s).1 t)
    (is : List ι) {s t : σ} (h : R s t) :
    (chain (is.map step) s).2.filter shown =
        (chain ((is.filter keep).map step) t).2.filter shown ∧
      R (chain (is.map step) s).1 (chain ((is.filter keep).map step) t).1 := by
  induction is generalizing s t with
  | nil => exact ⟨rfl, h⟩
  | cons i is ih =>
    cases hi : keep i with
    | true =>
      obtain ⟨hshown, hsame⟩ := hkept i hi s t h
      obtain ⟨hshown', hsame'⟩ := ih hsame
      rw [List.filter_cons_of_pos hi]
      refine ⟨?_, hsame'⟩
      rw [List.map_cons, List.map_cons, chain_cons, chain_cons, List.filter_append,
        List.filter_append, hshown, hshown']
    | false =>
      obtain ⟨hshown, hsame⟩ := hleft i hi s t h
      obtain ⟨hshown', hsame'⟩ := ih hsame
      rw [List.filter_cons_of_neg (by simp [hi])]
      refine ⟨?_, hsame'⟩
      rw [List.map_cons, chain_cons, List.filter_append, hshown, hshown', List.nil_append]

end Step
end SignalLights
