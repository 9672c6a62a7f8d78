import TraceReplay.Proofs.Memory.Bounds

/-! # Folding data

Every datum is folded into an integer, a text, characters or bytes. The data that already are one of
these four are fixed by the folding, and they are all that it ever yields; so folding twice is
folding once. A sequence of integers is shown as its integers with commas between them, be it folded
into bytes or into that very text.
-/

namespace TraceReplay

namespace Datum

/-- A datum that is one of the four kinds, where a list of no characters does not count. -/
structure IsFolded (x : Datum) : Prop where
  isValue : x.IsValue
  ne_nil : x ≠ .list []

def ofChar (c : Char) : Datum := .text (String.singleton c)

theorem char?_eq_some_iff {x : Datum} {c : Char} : x.char? = some c ↔ x = ofChar c := by
  constructor
  · intro h
    cases x with
    | text s =>
      simp only [char?] at h
      split at h
      · next d hs =>
        cases h
        rw [ofChar, String.singleton_eq_ofList, ← hs, String.ofList_toList]
      · cases h
    | _ => cases h
  · rintro rfl
    simp [ofChar, char?]

theorem int?_eq_some_iff {x : Datum} {n : Int} : x.int? = some n ↔ x = .int n := by
  cases x <;> simp [int?]

/-- A check of all elements succeeds exactly on the data that are made from its results. -/
theorem mapM_eq_some_iff {α : Type} {check : Datum → Option α} {make : α → Datum}
    (h : ∀ x a, check x = some a ↔ x = make a) {xs : List Datum} {as : List α} :
    xs.mapM check = some as ↔ xs = as.map make := by
  induction xs generalizing as with
  | nil => cases as <;> simp
  | cons x xs ih =>
    simp only [List.mapM_cons, Option.bind_eq_bind, Option.bind_eq_some_iff, h, ih]
    cases as with
    | nil => simp
    | cons a as => simp

theorem mapM_char?_eq_some_iff {xs : List Datum} {cs : List Char} :
    xs.mapM char? = some cs ↔ xs = cs.map ofChar :=
  mapM_eq_some_iff fun _ _ => char?_eq_some_iff

theorem mapM_int?_eq_some_iff {xs : List Datum} {ns : List Int} :
    xs.mapM int? = some ns ↔ xs = ns.map .int :=
  mapM_eq_some_iff fun _ _ => int?_eq_some_iff

theorem exists_map_ofChar {xs : List Datum} (h : ∀ x ∈ xs, ∃ s, x = .text s ∧ s.length = 1) :
    ∃ cs : List Char, xs = cs.map ofChar := by
  induction xs with
  | nil => exact ⟨[], rfl⟩
  | cons x xs ih =>
    obtain ⟨⟨s, rfl, hs⟩, hxs⟩ := List.forall_mem_cons.1 h
    obtain ⟨cs, rfl⟩ := ih hxs
    obtain ⟨c, hc⟩ := List.length_eq_one_iff.1 ((String.length_toList (s := s)).trans hs)
    refine ⟨c :: cs, ?_⟩
    rw [List.map_cons, ofChar, String.singleton_eq_ofList, ← hc, String.ofList_toList]

end Datum

namespace Value

open TraceReplay.Datum

theorem ofSequence_chars (whole : Datum) (c : Char) (cs : List Char) :
    ofSequence whole ((c :: cs).map ofChar) = .chars (c :: cs) := by
  rw [ofSequence, mapM_char?_eq_some_iff.2 rfl]

theorem ofSequence_ints (whole : Datum) (ns : List Int) :
    ofSequence whole (ns.map .int) = ofInts ns := by
  have hints : (ns.map Datum.int).mapM int? = some ns := mapM_int?_eq_some_iff.2 rfl
  rw [ofSequence, hints]
  split
  · next c cs hchars =>
    have h := mapM_char?_eq_some_iff.1 hchars
    cases ns with
    | nil => cases h
    | cons n ns => cases (List.cons.inj h).1
  · rfl

theorem ofSequence_eq_chars {whole : Datum} {xs : List Datum} {cs : List Char}
    (h : ofSequence whole xs = .chars cs) : cs ≠ [] ∧ xs = cs.map ofChar := by
  unfold ofSequence at h
  split at h
  · next c cs' hchars =>
    cases h
    exact ⟨List.cons_ne_nil c cs', mapM_char?_eq_some_iff.1 hchars⟩
  · split at h
    · unfold ofInts at h
      split at h <;> cases h
    · cases h

theorem ofDatum_ne_chars_nil (x : Datum) : ofDatum x ≠ .chars [] := by
  intro h
  cases x with
  | list xs => exact (ofSequence_eq_chars h).1 rfl
  | tuple xs => exact (ofSequence_eq_chars h).1 rfl
  | _ => cases h

theorem isFolded_toDatum {v : Value} (h : v ≠ .chars []) : v.toDatum.IsFolded := by
  refine ⟨v.isValue_toDatum, ?_⟩
  intro hnil
  cases v with
  | chars cs =>
    have hcs : cs = [] := List.map_eq_nil_iff.1 (Datum.list.inj hnil)
    exact h (by rw [hcs])
  | _ => cases hnil

/-- A value that is no empty list of characters is what its datum is folded into. -/
theorem ofDatum_toDatum {v : Value} (h : v ≠ .chars []) : ofDatum v.toDatum = v := by
  cases v with
  | chars cs =>
    cases cs with
    | nil => exact absurd rfl h
    | cons c cs => exact ofSequence_chars _ c cs
  | _ => rfl

/-- A datum of one of the four kinds is that of a value. -/
theorem exists_toDatum_of_isFolded {x : Datum} (h : x.IsFolded) :
    ∃ v : Value, v ≠ .chars [] ∧ v.toDatum = x := by
  obtain ⟨hvalue, hnil⟩ := h
  cases hvalue with
  | int n => exact ⟨.int n, by simp, rfl⟩
  | text s => exact ⟨.text s, by simp, rfl⟩
  | bytes _ => exact ⟨.bytes _, by simp, rfl⟩
  | chars hchars =>
    obtain ⟨cs, rfl⟩ := exists_map_ofChar hchars
    refine ⟨.chars cs, ?_, rfl⟩
    rintro ⟨⟩
    exact hnil rfl

theorem toDatum_ofDatum_eq_self_iff {x : Datum} : (ofDatum x).toDatum = x ↔ x.IsFolded := by
  constructor
  · intro h
    rw [← h]
    exact isFolded_toDatum (ofDatum_ne_chars_nil x)
  · intro h
    obtain ⟨v, hv, rfl⟩ := exists_toDatum_of_isFolded h
    rw [ofDatum_toDatum hv]

theorem inline_ofInts (ns : List Int) :
    (ofInts ns).inline = ",".intercalate (ns.map Int.repr) := by
  unfold ofInts
  split
  · next hall =>
    have hrange : ∀ n ∈ ns, 0 ≤ n ∧ n ≤ 0xff := by simpa using hall
    obtain ⟨bytes, rfl⟩ := Bytes.exists_bytes_of_bounds hrange
    rw [Bytes.map_ofInt_toNat, List.map_map]
    rfl
  · rfl

/-- Folding a datum yields one of the four kinds. What has been folded is folded into itself, and a
datum is kept as it is exactly if it is one of the four kinds. Integers in a list or in a fixed
sequence are shown with commas between them, whatever they are folded into. -/
theorem ofDatum_retraction :
    (∀ x : Datum, (ofDatum x).toDatum.IsFolded ∧ ofDatum (ofDatum x).toDatum = ofDatum x ∧
      ((ofDatum x).toDatum = x ↔ x.IsFolded)) ∧
    ∀ ns : List Int,
      (ofDatum (.list (ns.map .int))).inline = ",".intercalate (ns.map Int.repr) ∧
      (ofDatum (.tuple (ns.map .int))).inline = ",".intercalate (ns.map Int.repr) := by
  constructor
  · intro x
    have hfolded := ofDatum_ne_chars_nil x
    exact ⟨isFolded_toDatum hfolded, ofDatum_toDatum hfolded, toDatum_ofDatum_eq_self_iff⟩
  · intro ns
    have hshown := inline_ofInts ns
    constructor
    · rwa [ofDatum, ofSequence_ints]
    · rwa [ofDatum, ofSequence_ints]

end Value

end TraceReplay
