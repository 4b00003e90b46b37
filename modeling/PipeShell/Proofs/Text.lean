import Mathlib.Data.List.TakeWhile
import PipeShell.Text.WhiteSpace

/-!
# Trimming, words and cuts

What the operations on texts do, said without their definitions: trimming leaves nothing exactly of
a blank text, a cut at a mark gives the text back and its first part is free of the mark, a text
contains what is an infix of it, and words are never empty and never hold white space.
-/

set_option autoImplicit false

namespace PipeShell.Text

/-! ## Trimming -/

theorem trimLeftChars_eq_nil_iff {text : List Char} :
    trimLeftChars text = [] ↔ ∀ c ∈ text, isWhiteSpace c = true := by
  simp only [trimLeftChars, List.dropWhile_eq_nil_iff]

theorem trimRightChars_eq_nil_iff {text : List Char} :
    trimRightChars text = [] ↔ ∀ c ∈ text, isWhiteSpace c = true := by
  simp only [trimRightChars, List.reverse_eq_nil_iff, List.dropWhile_eq_nil_iff, List.mem_reverse]

theorem trimChars_subset (text : List Char) : trimChars text ⊆ text := by
  intro c member
  rw [trimChars, trimRightChars, List.mem_reverse] at member
  have left : c ∈ trimLeftChars text := List.mem_reverse.mp (List.dropWhile_subset _ member)
  exact List.dropWhile_subset _ left

/-- What trimming on the left leaves is blank only if there was nothing else. -/
theorem trimChars_eq_nil_iff {text : List Char} :
    trimChars text = [] ↔ ∀ c ∈ text, isWhiteSpace c = true := by
  rw [trimChars, trimRightChars_eq_nil_iff]
  constructor
  · intro blank
    cases left : trimLeftChars text with
    | nil => exact trimLeftChars_eq_nil_iff.mp left
    | cons c rest =>
        have visible : isWhiteSpace c = false := by
          have head := List.head?_dropWhile_not isWhiteSpace text
          rw [← trimLeftChars, left] at head
          simpa using head
        have spaced := blank c (by rw [left]; exact List.mem_cons_self ..)
        rw [visible] at spaced
        cases spaced
  · intro blank
    rw [trimLeftChars_eq_nil_iff.mpr blank]
    simp

/-! ## Cuts -/

theorem cutOnce_cons (mark c : Char) (text : List Char) :
    cutOnce mark (c :: text) =
      if c = mark then some ([], text)
      else (cutOnce mark text).map fun (head, tail) => (c :: head, tail) := by
  by_cases h : c = mark
  · simp [cutOnce, h]
  · simp only [cutOnce, List.dropWhile_cons, List.takeWhile_cons, h, ne_eq, not_false_eq_true,
      decide_true, if_true, if_false]
    cases text.dropWhile (· ≠ mark) <;> rfl

theorem cutOnce_eq_none_iff {mark : Char} {text : List Char} :
    cutOnce mark text = none ↔ mark ∉ text := by
  induction text with
  | nil => simp [cutOnce]
  | cons c text ih =>
      rw [cutOnce_cons]
      by_cases h : c = mark
      · simp [h]
      · simp [h, ih, Ne.symm h]

/-- The first mark is where the text is cut. -/
theorem cutOnce_eq_some_iff {mark : Char} {text head tail : List Char} :
    cutOnce mark text = some (head, tail) ↔ text = head ++ mark :: tail ∧ mark ∉ head := by
  induction text generalizing head with
  | nil => simp [cutOnce]
  | cons c text ih =>
      rw [cutOnce_cons]
      by_cases h : c = mark
      · subst h
        cases head with
        | nil => simp
        | cons d head =>
            simp only [if_true, Option.some.injEq, Prod.mk.injEq, List.nil_eq, reduceCtorEq,
              false_and, List.cons_append, List.cons.injEq, List.mem_cons, not_or, false_iff]
            rintro ⟨⟨same, _⟩, different, _⟩
            exact different same
      · rw [if_neg h]
        cases head with
        | nil =>
            simp [h]
        | cons d head =>
            simp only [Option.map_eq_some_iff, Prod.exists, Prod.mk.injEq, List.cons.injEq,
              List.cons_append, List.mem_cons, not_or]
            constructor
            · rintro ⟨_, _, found, ⟨rfl, rfl⟩, rfl⟩
              obtain ⟨rfl, absent⟩ := ih.mp found
              exact ⟨⟨rfl, rfl⟩, Ne.symm h, absent⟩
            · rintro ⟨⟨rfl, rfl⟩, _, absent⟩
              exact ⟨head, tail, ih.mpr ⟨rfl, absent⟩, ⟨rfl, rfl⟩, rfl⟩

/-- What falls between two places of a split has nothing of what it was split at. -/
theorem eq_false_of_mem_splitOnP {α : Type} {p : α → Bool} {text piece : List α}
    (member : piece ∈ text.splitOnP p) : ∀ c ∈ piece, p c = false := by
  induction text generalizing piece with
  | nil =>
      rw [List.splitOnP_nil, List.mem_singleton] at member
      subst member
      simp
  | cons c text ih =>
      rw [List.splitOnP_cons_eq_if_modifyHead] at member
      by_cases h : p c = true
      · rw [if_pos h] at member
        rcases List.mem_cons.mp member with rfl | member
        · simp
        · exact ih member
      · rw [if_neg h] at member
        obtain ⟨first, others, split⟩ :=
          List.exists_cons_of_ne_nil (List.splitOnP_ne_nil p text)
        rw [split, List.modifyHead_cons] at member
        rcases List.mem_cons.mp member with rfl | member
        · intro d present
          rcases List.mem_cons.mp present with rfl | present
          · exact Bool.eq_false_iff.mpr h
          · exact ih (split ▸ List.mem_cons_self ..) d present
        · exact ih (split ▸ List.mem_cons_of_mem _ member)

theorem notMem_of_mem_splitOn {α : Type} [DecidableEq α] {mark : α} {text piece : List α}
    (member : piece ∈ text.splitOn mark) : mark ∉ piece := by
  intro present
  rw [List.splitOn_eq_splitOnP] at member
  have different := eq_false_of_mem_splitOnP member mark present
  simp at different

/-! ## Joined pieces -/

theorem mem_intercalate {α : Type} {c mark : α} {pieces : List (List α)}
    (member : c ∈ [mark].intercalate pieces) : c = mark ∨ ∃ piece ∈ pieces, c ∈ piece := by
  induction pieces with
  | nil => simp at member
  | cons first others ih =>
      cases others with
      | nil =>
          rw [List.intercalate_singleton] at member
          exact Or.inr ⟨first, List.mem_cons_self .., member⟩
      | cons second others =>
          rw [List.intercalate_cons_cons, List.append_assoc, List.mem_append] at member
          rcases member with member | member
          · exact Or.inr ⟨first, List.mem_cons_self .., member⟩
          · rcases List.mem_cons.mp member with same | member
            · exact Or.inl same
            · rcases ih member with same | ⟨piece, later, inside⟩
              · exact Or.inl same
              · exact Or.inr ⟨piece, List.mem_cons_of_mem _ later, inside⟩

/-! ## Occurrences -/

theorem occursIn_iff {needle text : List Char} : occursIn needle text = true ↔ needle <:+: text := by
  induction text with
  | nil => rw [occursIn, List.isEmpty_iff, List.infix_nil]
  | cons c text ih =>
      rw [occursIn, Bool.or_eq_true, List.isPrefixOf_iff_prefix, ih, List.infix_cons_iff]

theorem contains_iff {text needle : String} :
    contains text needle = true ↔ needle.toList <:+: text.toList := by
  rw [contains, occursIn_iff]

/-! ## Words -/

theorem mem_wordChars {text word : List Char} (member : word ∈ wordChars text) :
    word ≠ [] ∧ ∀ c ∈ word, isWhiteSpace c = false := by
  obtain ⟨split, written⟩ := List.mem_filter.mp member
  exact ⟨by simpa using written, eq_false_of_mem_splitOnP split⟩

theorem mem_words {text word : String} (member : word ∈ words text) :
    word ≠ "" ∧ hasWhiteSpace word = false := by
  obtain ⟨chars, inside, rfl⟩ := List.mem_map.mp member
  obtain ⟨written, unspaced⟩ := mem_wordChars inside
  constructor
  · intro empty
    exact written (String.ofList_eq_empty_iff.mp empty)
  · simpa [hasWhiteSpace] using unspaced

end PipeShell.Text
