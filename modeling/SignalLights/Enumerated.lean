/-!
# Enumerations with names

A type whose values can be listed, each under a name of its own. The order of the list is the order
in which the values are numbered.
-/

namespace SignalLights

class Enumerated (α : Type) [DecidableEq α] where
  all : List α
  name : α → String
  mem_all : ∀ a, a ∈ all
  name_injective : ∀ a b, name a = name b → a = b

namespace Enumerated

variable {α : Type} [DecidableEq α] [Enumerated α]

def names (α : Type) [DecidableEq α] [Enumerated α] : List String := (all : List α).map name

def index (a : α) : Nat := (all : List α).idxOf a

def ofIndex? (n : Nat) : Option α := (all : List α)[n]?

def ofName? (s : String) : Option α := (all : List α).find? (name · == s)

theorem ofIndex?_index (a : α) : ofIndex? (index a) = some a := by
  have h : index a < (all : List α).length := List.idxOf_lt_length_of_mem (mem_all a)
  rw [ofIndex?, List.getElem?_eq_getElem h, Option.some.injEq]
  exact List.getElem_idxOf h

theorem ofName?_name (a : α) : ofName? (name a) = some a := by
  obtain ⟨b, hb⟩ : ∃ b, ofName? (α := α) (name a) = some b :=
    Option.isSome_iff_exists.1 (List.find?_isSome.2 ⟨a, mem_all a, by simp⟩)
  have h := List.find?_some hb
  rw [hb, name_injective b a (by simpa using h)]

end Enumerated
end SignalLights
