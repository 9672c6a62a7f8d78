import Mathlib.Data.List.Induction
import Mathlib.Data.List.Nodup
import TraceReplay.Proofs.Tally

/-! # Counts of lists

A tally has each tag once, at the place where it first occurred, with how often it has occurred. So
a tally is known from the counts of all tags, except for the order of its tags. Lists that are
counted one after the other add their counts, with the new tags of the second list behind those of
the first; and in another order a list has the same counts.
-/

namespace TraceReplay.Tally

def tags (tally : Tally) : List String := tally.map Prod.fst

theorem tags_cons (t : String) (n : Nat) (rest : Tally) :
    tags ((t, n) :: rest) = t :: rest.tags := rfl

theorem tags_count (tag : String) (tally : Tally) :
    (tally.count tag).tags = if tag ∈ tally.tags then tally.tags else tally.tags ++ [tag] := by
  induction tally with
  | nil => rfl
  | cons entry rest ih =>
    obtain ⟨t, n⟩ := entry
    by_cases h : t = tag
    · rw [count, if_pos h, tags_cons, tags_cons, if_pos (h ▸ List.mem_cons_self)]
    · have hmem : tag ∈ t :: tags rest ↔ tag ∈ tags rest := by simp [Ne.symm h]
      rw [count, if_neg h, tags_cons, tags_cons, ih]
      simp only [hmem]
      split <;> rfl

theorem mem_tags_count (tag other : String) (tally : Tally) :
    other ∈ (tally.count tag).tags ↔ other ∈ tally.tags ∨ other = tag := by
  rw [tags_count]
  split
  · next hmem => exact (or_iff_left_of_imp fun h => h ▸ hmem).symm
  · rw [List.mem_append, List.mem_singleton]

theorem pos_count {tally : Tally} (h : ∀ entry ∈ tally, 0 < entry.2) (tag : String) :
    ∀ entry ∈ tally.count tag, 0 < entry.2 := by
  induction tally with
  | nil => simp [count]
  | cons entry rest ih =>
    obtain ⟨t, n⟩ := entry
    obtain ⟨hpos, hrest⟩ := List.forall_mem_cons.1 h
    by_cases ht : t = tag
    · rw [count, if_pos ht]
      exact List.forall_mem_cons.2 ⟨Nat.succ_pos n, hrest⟩
    · rw [count, if_neg ht]
      exact List.forall_mem_cons.2 ⟨hpos, ih hrest⟩

theorem times_eq_zero {tally : Tally} {tag : String} (h : tag ∉ tally.tags) :
    tally.times tag = 0 := by
  induction tally with
  | nil => rfl
  | cons entry rest ih =>
    rw [tags, List.map_cons, List.mem_cons, not_or] at h
    rw [times_cons, if_neg h.1]
    exact ih h.2

/-- What tallies are like: no tag twice, and none that has not occurred. -/
structure WellFormed (tally : Tally) : Prop where
  nodup : tally.tags.Nodup
  pos : ∀ entry ∈ tally, 0 < entry.2

namespace WellFormed

variable {tally other : Tally}

theorem nil : WellFormed [] := ⟨List.nodup_nil, fun _ h => nomatch h⟩

theorem count (h : tally.WellFormed) (tag : String) : (tally.count tag).WellFormed := by
  refine ⟨?_, pos_count h.pos tag⟩
  rw [tags_count]
  split
  · exact h.nodup
  · next hnew =>
    rw [← List.concat_eq_append]
    exact h.nodup.concat hnew

theorem mem_iff (h : tally.WellFormed) (tag : String) (n : Nat) :
    (tag, n) ∈ tally ↔ 0 < n ∧ tally.times tag = n := by
  induction tally with
  | nil =>
    have hzero : times [] tag = 0 := rfl
    simp only [List.not_mem_nil, hzero, false_iff]
    omega
  | cons entry rest ih =>
    obtain ⟨t, k⟩ := entry
    obtain ⟨hnew, hnodup⟩ := List.nodup_cons.1 h.nodup
    obtain ⟨hpos, hrest⟩ := List.forall_mem_cons.1 h.pos
    rw [List.mem_cons, ih ⟨hnodup, hrest⟩, times_cons, Prod.mk.injEq]
    by_cases ht : tag = t
    · subst ht
      have hk : 0 < k := hpos
      rw [times_eq_zero hnew, if_pos rfl]
      simp only [true_and]
      omega
    · simp [ht]

/-- Tallies with the same counts differ in the order of their tags at most. -/
theorem perm (h : tally.WellFormed) (hother : other.WellFormed)
    (htimes : ∀ tag, tally.times tag = other.times tag) : tally.Perm other := by
  rw [List.perm_ext_iff_of_nodup h.nodup.of_map hother.nodup.of_map]
  rintro ⟨tag, n⟩
  rw [h.mem_iff, hother.mem_iff, htimes]

end WellFormed

section

variable (tagField : String)

theorem countAll_append (tally : Tally) (xs ys : List Json) :
    tally.countAll tagField (xs ++ ys) = (tally.countAll tagField xs).countAll tagField ys :=
  List.foldl_append

theorem countAll_concat (tally : Tally) (xs : List Json) (x : Json) :
    tally.countAll tagField (xs ++ [x]) = (tally.countAll tagField xs).count (tagOf tagField x) :=
  countAll_append tagField tally xs [x]

theorem ofEvents_concat (xs : List Json) (x : Json) :
    ofEvents tagField (xs ++ [x]) = (ofEvents tagField xs).count (tagOf tagField x) :=
  countAll_concat tagField [] xs x

theorem wellFormed_ofEvents (xs : List Json) : (ofEvents tagField xs).WellFormed := by
  induction xs using List.reverseRecOn with
  | nil => exact .nil
  | append_singleton xs x ih =>
    rw [ofEvents_concat]
    exact ih.count (tagOf tagField x)

/-- The tags of a tally that goes on are those that it had and those of the elements. -/
theorem mem_tags_countAll (tally : Tally) (xs : List Json) (tag : String) :
    tag ∈ (tally.countAll tagField xs).tags ↔
      tag ∈ tally.tags ∨ tag ∈ xs.map (tagOf tagField) := by
  induction xs using List.reverseRecOn with
  | nil => simp [countAll]
  | append_singleton xs x ih =>
    rw [countAll_concat, mem_tags_count, ih]
    simp [or_assoc]

theorem mem_tags_ofEvents (xs : List Json) (tag : String) :
    tag ∈ (ofEvents tagField xs).tags ↔ tag ∈ xs.map (tagOf tagField) :=
  (mem_tags_countAll tagField [] xs tag).trans (or_iff_right List.not_mem_nil)

/-- A list that is counted adds its tags, without those that the tally has already. -/
theorem tags_countAll (tally : Tally) (xs : List Json) :
    (tally.countAll tagField xs).tags =
      tally.tags ++ (ofEvents tagField xs).tags.filter (· ∉ tally.tags) := by
  induction xs using List.reverseRecOn with
  | nil => simp [countAll, ofEvents, tags]
  | append_singleton xs x ih =>
    rw [countAll_concat, ofEvents_concat, tags_count, tags_count, ih]
    by_cases hold : tagOf tagField x ∈ tally.tags
    · by_cases hnew : tagOf tagField x ∈ (ofEvents tagField xs).tags <;> simp [hold, hnew]
    · by_cases hnew : tagOf tagField x ∈ (ofEvents tagField xs).tags <;> simp [hold, hnew]

/-- Tags stand in the order in which they first occur. -/
theorem pairwise_tags_ofEvents (xs : List Json) :
    (ofEvents tagField xs).tags.Pairwise fun s t =>
      (xs.map (tagOf tagField)).idxOf s < (xs.map (tagOf tagField)).idxOf t := by
  induction xs using List.reverseRecOn with
  | nil => exact .nil
  | append_singleton xs x ih =>
    -- The place of a tag that occurs already does not change with the last element.
    have hplace : ∀ t ∈ (ofEvents tagField xs).tags,
        (xs.map (tagOf tagField) ++ [tagOf tagField x]).idxOf t =
          (xs.map (tagOf tagField)).idxOf t := fun t ht =>
      List.idxOf_append_of_mem ((mem_tags_ofEvents tagField xs t).1 ht)
    have hold : (ofEvents tagField xs).tags.Pairwise fun s t =>
        (xs.map (tagOf tagField) ++ [tagOf tagField x]).idxOf s <
          (xs.map (tagOf tagField) ++ [tagOf tagField x]).idxOf t := by
      refine ih.imp_of_mem fun hs ht hlt => ?_
      rwa [hplace _ hs, hplace _ ht]
    rw [ofEvents_concat, tags_count, List.map_append, List.map_singleton]
    split
    · exact hold
    · next hnew =>
      refine List.pairwise_append.2 ⟨hold, List.pairwise_singleton _ _, fun s hs t ht => ?_⟩
      rw [List.mem_singleton] at ht
      subst ht
      rw [mem_tags_ofEvents] at hnew
      rw [hplace s hs, List.idxOf_append_of_notMem hnew]
      have hlt := List.idxOf_lt_length_of_mem ((mem_tags_ofEvents tagField xs s).1 hs)
      omega

end

/-- A tally has each tag once, in the order in which the tags first occur, with a count that is not
zero; the counts add up to the number of elements, and each of them is the number of objects with
the tag, where elements without a tag are counted under the tag that stands for a missing one. Lists
that are counted one after the other add their counts, with the tags of the first list in front and
then those that are new in the second; and a list in another order differs in the order of its tags
at most. -/
theorem ofEvents_homomorphism (tagField : String) (xs ys : List Json) :
    let counts := ofEvents tagField xs
    let more := ofEvents tagField ys
    let both := ofEvents tagField (xs ++ ys)
    let occurring := xs.map (tagOf tagField)
    counts.tags.Nodup ∧ (∀ tag, tag ∈ counts.tags ↔ tag ∈ occurring) ∧
      counts.tags.Pairwise (fun s t => occurring.idxOf s < occurring.idxOf t) ∧
      (∀ entry ∈ counts, 0 < entry.2) ∧ counts.total = xs.length ∧
      (∀ tag, counts.times tag =
        xs.countP (fun x => x.field? tagField = some (.text tag)) +
          if tag = "<missing>" then xs.countP (lacksTag tagField) else 0) ∧
      (∀ tag, both.times tag = counts.times tag + more.times tag) ∧
      both.tags = counts.tags ++ more.tags.filter (· ∉ counts.tags) ∧
      (xs.Perm ys → counts.Perm more) := by
  intro counts more both occurring
  have hcounts : counts.WellFormed := wellFormed_ofEvents tagField xs
  have hmore : more.WellFormed := wellFormed_ofEvents tagField ys
  have hboth : both = counts.countAll tagField ys := countAll_append tagField [] xs ys
  refine ⟨hcounts.nodup, mem_tags_ofEvents tagField xs, pairwise_tags_ofEvents tagField xs,
    hcounts.pos, total_ofEvents tagField xs, fun tag => times_ofEvents_eq tagField tag xs,
    fun tag => ?_, ?_, fun hperm => hcounts.perm hmore fun tag => ?_⟩
  · rw [hboth, times_countAll, times_ofEvents_tagOf tagField tag ys]
  · rw [hboth, tags_countAll]
  · rw [times_ofEvents_tagOf, times_ofEvents_tagOf, hperm.countP_eq]

/-- Elements of which some have no tag, one has the tag that stands for a missing one, and some have
a tag that occurs again. -/
def taggedElements : List Json :=
  [.object [("type", .text "note")], .int 5, .object [("type", .text "<missing>")],
    .object [("kind", .text "note")], .object [("type", .text "free")],
    .object [("type", .text "note")]]

theorem ofEvents_homomorphism_reversed :
    taggedElements.Perm taggedElements.reverse ∧
      ofEvents "type" taggedElements = [("note", 2), ("<missing>", 3), ("free", 1)] ∧
      ofEvents "type" taggedElements.reverse = [("note", 2), ("free", 1), ("<missing>", 3)] ∧
      (ofEvents "type" taggedElements).Perm (ofEvents "type" taggedElements.reverse) := by
  have hperm : taggedElements.Perm taggedElements.reverse := taggedElements.reverse_perm.symm
  obtain ⟨-, -, -, -, -, -, -, -, hcounts⟩ :=
    ofEvents_homomorphism "type" taggedElements taggedElements.reverse
  exact ⟨hperm, by decide, by decide, hcounts hperm⟩

end TraceReplay.Tally
