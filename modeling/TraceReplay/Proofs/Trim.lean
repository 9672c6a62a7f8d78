import Mathlib.Data.List.DropRight
import TraceReplay.Text.Blank

/-! # Trimmed texts

A text is trimmed by dropping the characters of a class from its start, and then, in the reversed
text, from the other end. What is left is the one part of the text that only characters of the class
surround and that has none of them at either end.
-/

namespace TraceReplay.Text

variable {p : Char → Bool} {cs core : List Char}

/-- Characters `core` with none of the class at either end, which only those of the class surround
in `cs`. -/
structure Trimmed (p : Char → Bool) (cs core : List Char) : Prop where
  surrounded : ∃ before after, cs = before ++ core ++ after ∧
    (∀ c ∈ before, p c = true) ∧ ∀ c ∈ after, p c = true
  head : ∀ c ∈ core.head?, p c = false
  last : ∀ c ∈ core.getLast?, p c = false

theorem dropWhile_append_of_head {before rest : List Char} (hbefore : ∀ c ∈ before, p c = true)
    (hrest : ∀ c ∈ rest.head?, p c = false) : (before ++ rest).dropWhile p = rest := by
  rw [List.dropWhile_append_of_pos hbefore]
  cases rest with
  | nil => rfl
  | cons c cs => exact List.dropWhile_cons_of_neg (by simp [hrest c rfl])

theorem head_dropWhile (p : Char → Bool) (cs : List Char) :
    ∀ c ∈ (cs.dropWhile p).head?, p c = false := by
  intro c hc
  have hnot := List.head?_dropWhile_not p cs
  rw [Option.mem_def.1 hc] at hnot
  exact hnot

theorem trimmed_trim (p : Char → Bool) (cs : List Char) : Trimmed p cs (trim p cs) where
  surrounded := by
    refine ⟨cs.takeWhile p, (cs.dropWhile p).rtakeWhile p, ?_, fun _ => List.mem_takeWhile_imp,
      fun _ => List.mem_rtakeWhile_imp⟩
    change cs = cs.takeWhile p ++ (cs.dropWhile p).rdropWhile p ++ (cs.dropWhile p).rtakeWhile p
    rw [List.append_assoc, List.rdropWhile_append_rtakeWhile, List.takeWhile_append_dropWhile]
  head := by
    intro c hc
    obtain ⟨after, hafter⟩ : trim p cs <+: cs.dropWhile p := List.rdropWhile_prefix p _
    apply head_dropWhile p cs c
    rw [← hafter, List.head?_append, Option.mem_def.1 hc]
    rfl
  last := by
    intro c hc
    apply head_dropWhile p (cs.dropWhile p).reverse c
    rwa [trim, List.getLast?_reverse] at hc

/-- Trimming gives those characters that the class surrounds. -/
theorem trim_eq_iff : trim p cs = core ↔ Trimmed p cs core := by
  constructor
  · rintro rfl
    exact trimmed_trim p cs
  · intro h
    obtain ⟨before, after, rfl, hbefore, hafter⟩ := h.surrounded
    cases core with
    | nil =>
      -- All characters are of the class, so it does not matter where they are cut.
      have hall : (before ++ [] ++ after).dropWhile p = [] := by
        rw [List.append_nil, List.dropWhile_eq_nil_iff]
        exact List.forall_mem_append.2 ⟨hbefore, hafter⟩
      rw [trim, hall]
      rfl
    | cons c core =>
      have hstart : (before ++ c :: core ++ after).dropWhile p = c :: core ++ after := by
        rw [List.append_assoc]
        exact dropWhile_append_of_head hbefore h.head
      have hend : (c :: core ++ after).reverse.dropWhile p = (c :: core).reverse := by
        rw [List.reverse_append]
        apply dropWhile_append_of_head
        · exact fun c hc => hafter c (List.mem_reverse.1 hc)
        · rw [List.head?_reverse]
          exact h.last
      rw [trim, hstart, hend, List.reverse_reverse]

theorem trim_eq_self (h : ∀ c ∈ cs, p c = false) : trim p cs = cs := by
  apply trim_eq_iff.2
  refine ⟨⟨[], [], by simp, nofun, nofun⟩, ?_, ?_⟩
  · exact fun c hc => h c (List.mem_of_mem_head? hc)
  · exact fun c hc => h c (List.mem_of_getLast? hc)

end TraceReplay.Text
