/-!
# Open vocabularies

Diagram records name shapes, line patterns, directions and the like by words. The words that have a
meaning form a closed list, but a record may carry any other word and has to be written back with
it.

* `Vocabulary α` — the words of the values of `α`, all of them and no two alike.
* `Term α` — a value of `α`, or a foreign word.
* `Term.name`, `Term.ofName` — a term's word and the term of a word. Each undoes the other
  (`Term.ofName_name`, `Term.name_ofName`), so a term is its word read with the vocabulary at hand.
-/

namespace Diagrams

/-- A finite type whose values have words. -/
class Vocabulary (α : Type) where
  /-- The values. -/
  all : List α
  /-- The word of a value. -/
  name : α → String
  /-- No value is left out. -/
  mem_all : ∀ a, a ∈ all
  /-- No two values share a word. -/
  name_injective : ∀ a b, name a = name b → a = b

/-- A value of the vocabulary, or a word that is none of its words. -/
inductive Term (α : Type) [Vocabulary α] where
  /-- A word with a meaning. -/
  | known (a : α)
  /-- A foreign word. -/
  | other (word : String) (foreign : ∀ a : α, Vocabulary.name a ≠ word)

namespace Term

variable {α : Type} [Vocabulary α]

/-- The word. -/
def name : Term α → String
  | known a => Vocabulary.name a
  | other word _ => word

/-- The term that a word stands for. -/
def ofName (word : String) : Term α :=
  match h : Vocabulary.all.find? fun a : α => Vocabulary.name a == word with
  | some a => known a
  | none => other word fun a ha => by
      have := List.find?_eq_none.1 h a (Vocabulary.mem_all a)
      simp [ha] at this

/-- A word's term has that word. -/
theorem name_ofName (word : String) : (ofName word : Term α).name = word := by
  unfold ofName
  split
  · rename_i a h
    simpa [name] using List.find?_some h
  · rfl

/-- Terms with the same word are equal. -/
theorem name_injective {s t : Term α} (h : s.name = t.name) : s = t := by
  cases s with
  | known a =>
    cases t with
    | known b => rw [Vocabulary.name_injective a b h]
    | other word foreign => exact absurd h (foreign a)
  | other word foreign =>
    cases t with
    | known b => exact absurd h.symm (foreign b)
    | other word' foreign' => cases h; rfl

/-- A term is the term of its word. -/
theorem ofName_name (t : Term α) : ofName t.name = t :=
  name_injective (name_ofName t.name)

instance : DecidableEq (Term α) := fun s t =>
  decidable_of_iff (s.name = t.name) ⟨name_injective, fun h => h ▸ rfl⟩

instance : Repr (Term α) := ⟨fun t _ => repr t.name⟩

instance : Coe α (Term α) := ⟨known⟩

end Term

end Diagrams
