import Diagrams.Proofs.Json.Printed
import Diagrams.Text.Lines

/-!
# Values are read from files as they were written

**Main statement** (`Json.IsPlain.read_saved`): the indented text of a plain value, with the line
ends read as newlines, is read as the value.

The text holds no carriage returns (`Json.IsPlain.return_notMem_write`): in strings they are
escaped, and lines are ended by newlines. So its line ends are left as they are.
-/

namespace Diagrams.Json

open Text (readNewlines readNewlines_of_notMem)

/-- Digits of a number are printable. -/
theorem hexDigit_ne_return : ∀ n < 16, hexDigit n ≠ '\r' := by decide

/-- The escape of a code unit holds no carriage return. -/
theorem return_notMem_unitEscape (n : Nat) : '\r' ∉ unitEscape n := by
  have hdigit (m : Nat) : '\r' ≠ hexDigit (m % 16) :=
    (hexDigit_ne_return (m % 16) (Nat.mod_lt m (by decide))).symm
  simp [unitEscape, hdigit]

/-- The written form of a character holds no carriage return. -/
theorem return_notMem_escaped (c : Char) : '\r' ∉ escaped c := by
  unfold escaped
  iterate 7
    split
    · decide
  split
  · rename_i hc
    rw [List.mem_singleton]
    rintro rfl
    exact absurd hc.1 (by decide)
  split
  · exact return_notMem_unitEscape _
  · rw [List.mem_append, not_or]
    exact ⟨return_notMem_unitEscape _, return_notMem_unitEscape _⟩

/-- A quoted text holds no carriage return. -/
theorem return_notMem_quote (s : String) : '\r' ∉ quote s := by
  simp [quote, return_notMem_escaped]

/-- Indentation holds no carriage return. -/
theorem return_notMem_indentation (n : Nat) : '\r' ∉ indentation n := by
  intro hc
  rcases List.mem_cons.mp hc with hc | hc
  · exact absurd hc (by decide)
  · exact absurd (List.mem_replicate.mp hc).2 (by decide)

/-- A number holds no carriage return. -/
theorem return_notMem_int (n : Int) : '\r' ∉ (toString n).toList := by
  have hdigits (m : Nat) : '\r' ∉ m.repr.toList := fun hm => by
    rw [Nat.toList_repr] at hm
    have hdigit := Nat.isDigit_of_mem_toDigits (by decide) (by decide) hm
    exact absurd hdigit (by decide)
  rw [Int.toString_eq_repr, Int.repr_eq_if]
  split
  · exact hdigits n.toNat
  · rw [String.toList_append, List.mem_append, not_or]
    exact ⟨by decide, hdigits (-n).toNat⟩

/-- The items after the first hold no carriage return. -/
theorem return_notMem_writeItems {items : List Json} {depth : Nat}
    (h : ∀ item ∈ items, '\r' ∉ write indentation depth item) :
    '\r' ∉ writeItems indentation depth items := by
  induction items with
  | nil => exact List.not_mem_nil
  | cons item items ih =>
    have hitem := h item List.mem_cons_self
    have hitems := ih fun i hi => h i (List.mem_cons_of_mem item hi)
    simp [writeItems, return_notMem_indentation, hitem, hitems]

/-- The fields after the first hold no carriage return. -/
theorem return_notMem_writeFields {fields : Table Json} {depth : Nat}
    (h : ∀ f ∈ fields, '\r' ∉ write indentation depth f.2) :
    '\r' ∉ writeFields indentation depth fields := by
  induction fields with
  | nil => exact List.not_mem_nil
  | cons f fields ih =>
    have hvalue := h f List.mem_cons_self
    have hfields := ih fun g hg => h g (List.mem_cons_of_mem f hg)
    simp [writeFields, return_notMem_indentation, return_notMem_quote, hvalue, hfields]

/-- A plain value is written without carriage returns. -/
theorem IsPlain.return_notMem_write {j : Json} (h : IsPlain j) (depth : Nat) :
    '\r' ∉ write indentation depth j := by
  induction h generalizing depth with
  | null => simp [write]
  | bool b => cases b <;> simp [write]
  | @int n _ => exact return_notMem_int n
  | str s => exact return_notMem_quote s
  | @arr items _ ih =>
    cases items with
    | nil => simp [write]
    | cons item items =>
      have hitem := ih item List.mem_cons_self (depth + 1)
      have hitems := return_notMem_writeItems fun i hi =>
        ih i (List.mem_cons_of_mem item hi) (depth + 1)
      simp [write, return_notMem_indentation, hitem, hitems]
  | @obj fields _ _ ih =>
    cases fields with
    | nil => simp [write]
    | cons f fields =>
      have hvalue := ih f List.mem_cons_self (depth + 1)
      have hfields := return_notMem_writeFields fun g hg =>
        ih g (List.mem_cons_of_mem f hg) (depth + 1)
      simp [write, return_notMem_indentation, return_notMem_quote, hvalue, hfields]

/-- The indented text of a plain value holds no carriage return. -/
theorem IsPlain.readNewlines_indented {j : Json} (h : IsPlain j) :
    readNewlines j.indented.toList = j.indented.toList := by
  rw [indented, String.toList_ofList]
  exact readNewlines_of_notMem (h.return_notMem_write 0)

/-- The indented text of a plain value is read from a file as the value. -/
theorem IsPlain.read_saved {j : Json} (h : IsPlain j) :
    read (readNewlines j.indented.toList) = .ok j := by
  rw [h.readNewlines_indented]
  exact h.read_indented

end Diagrams.Json
