import Diagrams.Text.Lines
import Mathlib.Data.List.DropRight

/-!
# White space at the ends of a text

* `AllBlank` — text of white space only. Trimming takes such text away at either end and nothing
  else (`eq_append_trimLeft`, `eq_trimRight_append`, `trim_eq_self`), so what is put around a text
  does not change the trimmed text (`trim_append_left`, `trim_append_right`).
* `split_append` — the pieces of two texts written one after the other: only the last piece of the
  first text and the first piece of the second one meet. Pieces that are put together are found
  again (`split_join`).
-/

namespace Diagrams.Text

/-! ### White space -/

/-- What holds of the characters of a text is decided on the text. There are other instances, which
go through all characters that exist. -/
instance decidableForallMem (p : Char → Prop) [DecidablePred p] (cs : List Char) :
    Decidable (∀ c ∈ cs, p c) :=
  List.decidableBAll p cs

/-- There is only white space in the text. -/
def AllBlank (cs : List Char) : Prop := ∀ c ∈ cs, isBlank c = true

instance (cs : List Char) : Decidable (AllBlank cs) := decidableForallMem _ cs

variable {cs ds ws : List Char}

/-- White space and white space make white space. -/
theorem AllBlank.append (h : AllBlank cs) (h' : AllBlank ds) : AllBlank (cs ++ ds) := by
  intro c hc
  rcases List.mem_append.mp hc with hc | hc
  · exact h c hc
  · exact h' c hc

/-- Dropping from the end is dropping from the start of the reversed text. -/
theorem dropTrailing_eq_rdropWhile (p : Char → Bool) (cs : List Char) :
    dropTrailing p cs = cs.rdropWhile p := by
  induction cs with
  | nil => rfl
  | cons c cs ih =>
    have hcons : (c :: cs).rdropWhile p =
        if cs.rdropWhile p = [] then (if p c then [] else [c]) else c :: cs.rdropWhile p := by
      simp only [List.rdropWhile, List.reverse_cons, List.dropWhile_append, List.isEmpty_iff,
        List.reverse_eq_nil_iff]
      split
      · by_cases hc : p c = true <;> simp [hc]
      · simp
    rw [hcons, dropTrailing, ih]
    split
    · rename_i hnil
      rw [if_pos hnil]
    · rename_i d ds hds
      rw [if_neg (by simp [hds]), hds]

/-- What is dropped anyway may stand at the end. -/
theorem dropTrailing_append_of_all {p : Char → Bool} (h : ∀ c ∈ ws, p c = true)
    (cs : List Char) : dropTrailing p (cs ++ ws) = dropTrailing p cs := by
  simp only [dropTrailing_eq_rdropWhile, List.rdropWhile, List.reverse_append]
  rw [List.dropWhile_append_of_pos (by simpa using h)]

/-- Nothing is dropped behind a character that is kept. -/
theorem dropTrailing_eq_self {p : Char → Bool} (h : ∀ c ∈ cs.getLast?, p c = false) :
    dropTrailing p cs = cs := by
  rw [dropTrailing_eq_rdropWhile, List.rdropWhile_eq_self_iff]
  intro hne
  simp [h _ (List.getLast?_eq_some_getLast hne)]

/-- A character that is kept stops the dropping. -/
theorem dropTrailing_append_of_kept {p : Char → Bool} {c : Char} (hc : p c = false)
    (cs ds : List Char) :
    dropTrailing p (cs ++ c :: ds) = cs ++ c :: dropTrailing p ds := by
  induction cs with
  | nil =>
    rw [List.nil_append, List.nil_append, dropTrailing]
    cases dropTrailing p ds <;> simp [hc]
  | cons d cs ih =>
    rw [List.cons_append, dropTrailing, ih]
    cases cs <;> simp

/-! ### Trimming -/

/-- White space at the start is dropped. -/
theorem trimLeft_append (h : AllBlank ws) (cs : List Char) : trimLeft (ws ++ cs) = trimLeft cs :=
  List.dropWhile_append_of_pos h

/-- White space at the end is dropped. -/
theorem trimRight_append (h : AllBlank ws) (cs : List Char) :
    trimRight (cs ++ ws) = trimRight cs :=
  dropTrailing_append_of_all h cs

/-- Dropping white space at the end again changes nothing. -/
theorem trimRight_trimRight (cs : List Char) : trimRight (trimRight cs) = trimRight cs := by
  rw [trimRight, trimRight, dropTrailing_eq_rdropWhile, dropTrailing_eq_rdropWhile,
    List.rdropWhile_idempotent]

/-- Text that starts with another character keeps its start. -/
theorem trimLeft_eq_self (h : ∀ c ∈ cs.head?, isBlank c = false) : trimLeft cs = cs := by
  cases cs with
  | nil => rfl
  | cons c cs => simp [trimLeft, h c rfl]

/-- Nothing is dropped before a character that is no white space. -/
theorem trimLeft_cons {c : Char} (h : isBlank c = false) (cs : List Char) :
    trimLeft (c :: cs) = c :: cs :=
  trimLeft_eq_self fun _ hc => Option.some.inj hc ▸ h

/-- Nothing is left where there is only white space. -/
theorem trimLeft_eq_nil_iff : trimLeft cs = [] ↔ AllBlank cs := List.dropWhile_eq_nil_iff

/-- White space is all that is taken away at the start. -/
theorem eq_append_trimLeft (cs : List Char) : ∃ ws, AllBlank ws ∧ cs = ws ++ trimLeft cs := by
  refine ⟨cs.takeWhile isBlank, ?_, List.takeWhile_append_dropWhile.symm⟩
  intro c hc
  exact List.all_eq_true.mp List.all_takeWhile c hc

/-- White space is all that is taken away at the end. -/
theorem eq_trimRight_append (cs : List Char) : ∃ ws, AllBlank ws ∧ cs = trimRight cs ++ ws := by
  refine ⟨cs.rtakeWhile isBlank, fun c => List.mem_rtakeWhile_imp, ?_⟩
  rw [trimRight, dropTrailing_eq_rdropWhile, List.rdropWhile_append_rtakeWhile]

/-- White space at the start does not matter. -/
theorem trim_append_left (h : AllBlank ws) (cs : List Char) : trim (ws ++ cs) = trim cs := by
  rw [trim, trimLeft_append h, trim]

/-- White space at the end does not matter. -/
theorem trim_append_right (h : AllBlank ws) (cs : List Char) : trim (cs ++ ws) = trim cs := by
  by_cases hcs : AllBlank cs
  · have hboth := hcs.append h
    rw [trim, trim, trimLeft_eq_nil_iff.mpr hboth, trimLeft_eq_nil_iff.mpr hcs]
  · have hmove : trimLeft (cs ++ ws) = trimLeft cs ++ ws := by
      simp only [← trimLeft_eq_nil_iff, trimLeft] at hcs
      simp [trimLeft, List.dropWhile_append, hcs]
    rw [trim, hmove, trimRight_append h, trim]

/-- There is nothing to take away from text that starts and ends with other characters. -/
theorem trim_eq_self (hhead : ∀ c ∈ cs.head?, isBlank c = false)
    (hlast : ∀ c ∈ cs.getLast?, isBlank c = false) : trim cs = cs := by
  rw [trim, trimLeft_eq_self hhead]
  exact dropTrailing_eq_self hlast

/-- Nothing is left where there is only white space. -/
theorem trim_eq_nil_iff : trim cs = [] ↔ AllBlank cs := by
  rw [trim, trimRight, dropTrailing_eq_rdropWhile, List.rdropWhile_eq_nil_iff]
  constructor
  · intro h
    obtain ⟨ws, hws, hcs⟩ := eq_append_trimLeft cs
    rw [hcs]
    exact hws.append h
  · intro h
    simp [trimLeft_eq_nil_iff.mpr h]

/-- What is trimmed at its end is trimmed as before. -/
theorem trim_trimRight (cs : List Char) : trim (trimRight cs) = trim cs := by
  obtain ⟨ws, hws, hcs⟩ := eq_trimRight_append cs
  conv_rhs => rw [hcs, trim_append_right hws]

/-! ### Pieces -/

/-- There is a last piece. -/
theorem exists_split_concat (mark : Char) (cs : List Char) :
    ∃ front l, split mark cs = front ++ [l] := by
  rcases List.eq_nil_or_concat (split mark cs) with hnil | ⟨front, l, hconcat⟩
  · exact absurd hnil (split_ne_nil mark cs)
  · exact ⟨front, l, by simpa using hconcat⟩

/-- There is a first piece. -/
theorem exists_split_cons (mark : Char) (cs : List Char) :
    ∃ l after, split mark cs = l :: after :=
  List.exists_cons_of_ne_nil (split_ne_nil mark cs)

/-- The pieces of two texts one after the other. -/
theorem split_append {mark : Char} {front after : List (List Char)} {l m : List Char}
    (hcs : split mark cs = front ++ [l]) (hds : split mark ds = m :: after) :
    split mark (cs ++ ds) = front ++ (l ++ m) :: after := by
  induction cs generalizing front l with
  | nil =>
    obtain ⟨rfl, rfl⟩ : front = [] ∧ l = [] := by
      cases front <;> simp_all [split]
    simpa using hds
  | cons c cs ih =>
    by_cases hc : c = mark
    · rw [split, if_pos hc] at hcs
      cases front with
      | nil => simp [split_ne_nil] at hcs
      | cons f front =>
        simp only [List.cons_append, List.cons.injEq] at hcs
        rw [List.cons_append, split, if_pos hc, ih hcs.2, ← hcs.1, List.cons_append]
    · -- the character joins the first piece, which is the last one when there is no other
      rw [split, if_neg hc] at hcs
      rw [List.cons_append, split, if_neg hc]
      cases hsplit : split mark cs with
      | nil => exact absurd hsplit (split_ne_nil mark cs)
      | cons k ks =>
        simp only [hsplit] at hcs
        cases front with
        | nil =>
          simp only [List.nil_append, List.cons.injEq] at hcs
          obtain ⟨rfl, rfl⟩ := hcs
          have hlast : split mark cs = [] ++ [k] := hsplit
          rw [ih hlast]
          rfl
        | cons f front =>
          simp only [List.cons_append, List.cons.injEq] at hcs
          obtain ⟨rfl, rfl⟩ := hcs
          have hmore : split mark cs = k :: front ++ [l] := hsplit
          rw [ih hmore]
          rfl

/-- Text without a mark is one piece. -/
theorem split_of_notMem {mark : Char} (h : mark ∉ cs) : split mark cs = [cs] := by
  induction cs with
  | nil => rfl
  | cons c cs ih =>
    rw [List.mem_cons, not_or] at h
    rw [split, if_neg (Ne.symm h.1), ih h.2]

/-- Pieces that are put together are found again. -/
theorem split_join {mark : Char} {pieces : List (List Char)} (hne : pieces ≠ [])
    (h : ∀ piece ∈ pieces, mark ∉ piece) : split mark (join mark pieces) = pieces := by
  induction pieces with
  | nil => exact absurd rfl hne
  | cons piece pieces ih =>
    have hpiece := split_of_notMem (h piece List.mem_cons_self)
    cases pieces with
    | nil => exact hpiece
    | cons next pieces =>
      have hrest := ih (List.cons_ne_nil next pieces) fun l hl => h l (List.mem_cons_of_mem piece hl)
      have hmark : split mark (mark :: join mark (next :: pieces)) = [] :: next :: pieces := by
        rw [split, if_pos rfl, hrest]
      have hfirst : split mark piece = [] ++ [piece] := hpiece
      rw [join, split_append hfirst hmark, List.append_nil, List.nil_append]
      exact List.cons_ne_nil next pieces

/-- The last piece stands at the end. -/
theorem exists_join_concat (mark : Char) (pieces : List (List Char)) (piece : List Char) :
    ∃ front, join mark (pieces ++ [piece]) = front ++ piece := by
  induction pieces with
  | nil => exact ⟨[], rfl⟩
  | cons first pieces ih =>
    obtain ⟨front, hfront⟩ := ih
    refine ⟨first ++ mark :: front, ?_⟩
    rw [List.cons_append, join, hfront, List.append_assoc, List.cons_append]
    simp

/-- Pieces that are put together hold their own characters and the mark. -/
theorem mem_join {mark c : Char} {pieces : List (List Char)} (h : c ∈ join mark pieces) :
    c = mark ∨ ∃ piece ∈ pieces, c ∈ piece := by
  induction pieces with
  | nil => cases h
  | cons piece pieces ih =>
    cases pieces with
    | nil => exact .inr ⟨piece, List.mem_cons_self, h⟩
    | cons next pieces =>
      rw [join, List.mem_append, List.mem_cons] at h
      · rcases h with h | rfl | h
        · exact .inr ⟨piece, List.mem_cons_self, h⟩
        · exact .inl rfl
        · obtain hmark | ⟨piece', hpiece, hc⟩ := ih h
          · exact .inl hmark
          · exact .inr ⟨piece', List.mem_cons_of_mem piece hpiece, hc⟩
      · exact List.cons_ne_nil next pieces

/-- Each piece is as long at most, with a mark behind it. -/
theorem length_join_le {mark : Char} {pieces : List (List Char)} {m : Nat}
    (h : ∀ piece ∈ pieces, piece.length ≤ m) :
    (join mark pieces).length ≤ (m + 1) * pieces.length := by
  induction pieces with
  | nil => exact Nat.le_refl 0
  | cons piece pieces ih =>
    obtain ⟨hpiece, hpieces⟩ := List.forall_mem_cons.mp h
    have hrest := ih hpieces
    rw [List.length_cons, Nat.mul_succ]
    cases pieces with
    | nil =>
      rw [join]
      omega
    | cons next pieces =>
      rw [join, List.length_append, List.length_cons]
      · omega
      · exact List.cons_ne_nil next pieces

/-- A piece is made of characters of the text in their order, and no mark is among them. -/
theorem of_mem_split {mark : Char} {piece : List Char} (h : piece ∈ split mark cs) :
    piece.Sublist cs ∧ mark ∉ piece := by
  induction cs generalizing piece with
  | nil =>
    rw [List.mem_singleton.mp h]
    exact ⟨List.Sublist.refl [], List.not_mem_nil⟩
  | cons c cs ih =>
    rw [split] at h
    split at h
    · rcases List.mem_cons.mp h with rfl | h
      · exact ⟨List.nil_sublist _, List.not_mem_nil⟩
      · exact ⟨(ih h).1.cons c, (ih h).2⟩
    · rename_i hc
      cases hsplit : split mark cs with
      | nil => exact absurd hsplit (split_ne_nil mark cs)
      | cons k ks =>
        simp only [hsplit] at h
        rcases List.mem_cons.mp h with rfl | h
        · obtain ⟨hsub, hmark⟩ := ih (hsplit ▸ List.mem_cons_self)
          exact ⟨hsub.cons_cons c, List.not_mem_cons_of_ne_of_not_mem (Ne.symm hc) hmark⟩
        · obtain ⟨hsub, hmark⟩ := ih (hsplit ▸ List.mem_cons_of_mem k h)
          exact ⟨hsub.cons c, hmark⟩

/-- Pieces of white space are white space. -/
theorem AllBlank.of_mem_split {mark : Char} (h : AllBlank cs) {piece : List Char}
    (hp : piece ∈ split mark cs) : AllBlank piece :=
  fun c hc => h c ((Text.of_mem_split hp).1.subset hc)

end Diagrams.Text
