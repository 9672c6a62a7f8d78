import Mathlib.Data.Nat.Digits.Defs
import TraceReplay.Proofs.Address

/-! # The notation of addresses

An address in a text has one or more hexadecimal digits of either letter case, with at most one
underscore between two of them. Before the digits there may be a prefix, behind which an underscore
may stand as well, and before the prefix a sign. The reader goes through a text only once and never
turns back; it accepts the texts of this notation, with the value of their digits, and no others.
-/

namespace TraceReplay

namespace Address

/-- A hexadecimal digit of either letter case and its value. -/
def HexDigit (c : Char) (d : Nat) : Prop :=
  "0123456789abcdef".toList[d]? = some c ∨ "0123456789ABCDEF".toList[d]? = some c

instance (c : Char) (d : Nat) : Decidable (HexDigit c d) := inferInstanceAs (Decidable (_ ∨ _))

theorem HexDigit.digit? {c : Char} {d : Nat} (h : HexDigit c d) :
    Numeral.digit? 16 c = some d := by
  have hlower : ∀ d : Fin 16, "0123456789abcdef".toList[d.val]?.all
      fun c => Numeral.digit? 16 c = some d.val := by decide
  have hupper : ∀ d : Fin 16, "0123456789ABCDEF".toList[d.val]?.all
      fun c => Numeral.digit? 16 c = some d.val := by decide
  rcases h with h | h
  · obtain ⟨hlt, -⟩ := List.getElem?_eq_some_iff.1 h
    have hd := hlower ⟨d, hlt⟩
    rw [h] at hd
    exact of_decide_eq_true hd
  · obtain ⟨hlt, -⟩ := List.getElem?_eq_some_iff.1 h
    have hd := hupper ⟨d, hlt⟩
    rw [h] at hd
    exact of_decide_eq_true hd

theorem HexDigit.of_digit? {c : Char} {d : Nat} (h : Numeral.digit? 16 c = some d) :
    HexDigit c d := by
  have hall : ∀ n : Fin 0x67, (Numeral.digit? 16 (Char.ofNat n)).all
      fun d => HexDigit (Char.ofNat n) d := by decide
  have hrange := Numeral.toNat_of_isSome_digit? (Option.isSome_of_eq_some h)
  have hc := hall ⟨c.toNat, by omega⟩
  rw [Char.ofNat_toNat, h] at hc
  exact of_decide_eq_true hc

/-- Digits with at most one underscore between two of them, and the values of the digits. -/
inductive Digits : List Char → List Nat → Prop
  | single {c : Char} {d : Nat} (digit : HexDigit c d) : Digits [c] [d]
  | next {c : Char} {d : Nat} {cs : List Char} {ds : List Nat} (digit : HexDigit c d)
      (rest : Digits cs ds) : Digits (c :: cs) (d :: ds)
  | grouped {c : Char} {d : Nat} {cs : List Char} {ds : List Nat} (digit : HexDigit c d)
      (rest : Digits cs ds) : Digits (c :: '_' :: cs) (d :: ds)

/-- Digits behind an optional prefix, and their value in base sixteen. -/
inductive Magnitude : List Char → Nat → Prop
  | plain {cs : List Char} {ds : List Nat} (digits : Digits cs ds) :
      Magnitude cs (Nat.ofDigits 16 ds.reverse)
  | prefixed {x : Char} {cs : List Char} {ds : List Nat} (letter : x = 'x' ∨ x = 'X')
      (digits : Digits cs ds) : Magnitude ('0' :: x :: cs) (Nat.ofDigits 16 ds.reverse)
  | underscored {x : Char} {cs : List Char} {ds : List Nat} (letter : x = 'x' ∨ x = 'X')
      (digits : Digits cs ds) : Magnitude ('0' :: x :: '_' :: cs) (Nat.ofDigits 16 ds.reverse)

/-- A magnitude behind an optional sign. -/
inductive Signed : List Char → Int → Prop
  | unsigned {cs : List Char} {n : Nat} (magnitude : Magnitude cs n) : Signed cs n
  | plus {cs : List Char} {n : Nat} (magnitude : Magnitude cs n) : Signed ('+' :: cs) n
  | minus {cs : List Char} {n : Nat} (magnitude : Magnitude cs n) : Signed ('-' :: cs) (-n)

/-- What a text denotes: without the blanks around it, and with ASCII digits for those of all
scripts, it is a signed magnitude. -/
def Denotes (s : String) (n : Int) : Prop :=
  ∃ core, Text.Trimmed Text.isBlank s.toList core ∧ Signed (core.map Text.toAsciiDigit) n

theorem HexDigit.ne_underscore {c : Char} {d : Nat} (h : HexDigit c d) : c ≠ '_' :=
  Numeral.ne_underscore_of_isSome_digit? (Option.isSome_of_eq_some h.digit?)

namespace Digits

variable {cs : List Char} {ds : List Nat}

theorem head (h : Digits cs ds) : ∃ c d rest, HexDigit c d ∧ cs = c :: rest := by
  cases h with
  | single digit | next digit _ | grouped digit _ => exact ⟨_, _, _, digit, rfl⟩

theorem head_ne_underscore (h : Digits cs ds) : ∀ c ∈ cs.head?, c ≠ '_' := by
  obtain ⟨c, d, rest, digit, rfl⟩ := h.head
  intro c' hc'
  cases hc'
  exact digit.ne_underscore

theorem chars (h : Digits cs ds) : ∀ c ∈ cs, c = '_' ∨ (Numeral.digit? 16 c).isSome = true := by
  induction h with
  | single digit =>
    exact List.forall_mem_singleton.2 (.inr (Option.isSome_of_eq_some digit.digit?))
  | next digit _ ih =>
    exact List.forall_mem_cons.2 ⟨.inr (Option.isSome_of_eq_some digit.digit?), ih⟩
  | grouped digit _ ih =>
    exact List.forall_mem_cons.2 ⟨.inr (Option.isSome_of_eq_some digit.digit?),
      List.forall_mem_cons.2 ⟨.inl rfl, ih⟩⟩

end Digits

theorem extendGrouped_cons {c : Char} {d : Nat} (h : HexDigit c d) (acc : Nat) (cs : List Char) :
    Numeral.extendGrouped 16 acc (c :: cs) = Numeral.extendGrouped 16 (acc * 16 + d) cs := by
  rw [Numeral.extendGrouped, h.digit?, Option.bind_some]
  rintro c' cs' rfl
  exact absurd rfl h.ne_underscore

theorem extendGrouped_underscore {c : Char} {d : Nat} (h : HexDigit c d) (acc : Nat)
    (cs : List Char) :
    Numeral.extendGrouped 16 acc ('_' :: c :: cs) = Numeral.extendGrouped 16 (acc * 16 + d) cs := by
  rw [Numeral.extendGrouped, h.digit?, Option.bind_some]

/-- The digits of the grammar are read one by one, each after sixteen times those before it. -/
theorem Digits.extendGrouped {cs : List Char} {ds : List Nat} (h : Digits cs ds) (acc : Nat) :
    Numeral.extendGrouped 16 acc cs = some (ds.foldl (fun n d => n * 16 + d) acc) := by
  induction h generalizing acc with
  | single digit =>
    rw [extendGrouped_cons digit]
    rfl
  | next digit _ ih =>
    rw [extendGrouped_cons digit, ih]
    rfl
  | grouped digit rest ih =>
    obtain ⟨c', d', cs', digit', rfl⟩ := rest.head
    rw [extendGrouped_cons digit, extendGrouped_underscore digit', ← extendGrouped_cons digit', ih]
    rfl

theorem digits_of_extendGrouped {acc n : Nat} {cs : List Char}
    (h : Numeral.extendGrouped 16 acc cs = some n) {c : Char} {d : Nat} (digit : HexDigit c d) :
    ∃ ds, Digits (c :: cs) (d :: ds) ∧ ds.foldl (fun n d => n * 16 + d) acc = n := by
  fun_induction Numeral.extendGrouped 16 acc cs generalizing c d with
  | case1 acc =>
    cases h
    exact ⟨[], .single digit, rfl⟩
  | case2 acc c' cs ih =>
    obtain ⟨d', hd', hrest⟩ := Option.bind_eq_some_iff.1 h
    obtain ⟨ds, hds, hvalue⟩ := ih d' hrest (.of_digit? hd')
    exact ⟨d' :: ds, .grouped digit hds, hvalue⟩
  | case3 acc c' cs _ ih =>
    obtain ⟨d', hd', hrest⟩ := Option.bind_eq_some_iff.1 h
    obtain ⟨ds, hds, hvalue⟩ := ih d' hrest (.of_digit? hd')
    exact ⟨d' :: ds, .next digit hds, hvalue⟩

theorem foldl_eq_ofDigits (ds : List Nat) :
    ds.foldl (fun n d => n * 16 + d) 0 = Nat.ofDigits 16 ds.reverse := by
  rw [Nat.ofDigits_eq_foldr, List.foldr_reverse]
  apply List.foldl_ext
  intro n d _
  rw [Nat.cast_id, Nat.mul_comm, Nat.add_comm]

/-- The numerals that are read are the digits of the grammar, with their value. -/
theorem grouped?_eq_some_iff {cs : List Char} {n : Nat} :
    Numeral.grouped? 16 cs = some n ↔ ∃ ds, Digits cs ds ∧ Nat.ofDigits 16 ds.reverse = n := by
  constructor
  · intro h
    cases cs with
    | nil => cases h
    | cons c cs =>
      obtain ⟨d, hd, hrest⟩ := Option.bind_eq_some_iff.1 h
      obtain ⟨ds, hds, hvalue⟩ := digits_of_extendGrouped hrest (.of_digit? hd)
      refine ⟨d :: ds, hds, ?_⟩
      rw [← foldl_eq_ofDigits, List.foldl_cons, Nat.zero_mul, Nat.zero_add, hvalue]
  · rintro ⟨ds, hds, rfl⟩
    have hread := hds.extendGrouped 0
    obtain ⟨c, d, cs', digit, rfl⟩ := hds.head
    rw [extendGrouped_cons digit, Nat.zero_mul, Nat.zero_add, foldl_eq_ofDigits] at hread
    rw [Numeral.grouped?, digit.digit?, Option.bind_some, hread]

theorem magnitude?_of_digits {cs : List Char} {ds : List Nat} (h : Digits cs ds) :
    magnitude? cs = Numeral.grouped? 16 cs := by
  have hlower : 'x' ∉ cs := fun hx => absurd (h.chars 'x' hx) (by decide)
  have hupper : 'X' ∉ cs := fun hx => absurd (h.chars 'X' hx) (by decide)
  unfold magnitude?
  split
  · simp at hlower
  · simp at hupper
  · simp at hlower
  · simp at hupper
  · rfl

theorem magnitude?_underscored {x : Char} (letter : x = 'x' ∨ x = 'X') (cs : List Char) :
    magnitude? ('0' :: x :: '_' :: cs) = Numeral.grouped? 16 cs := by
  rcases letter with rfl | rfl <;> rfl

/-- The texts that are read as magnitudes are those of the grammar. -/
theorem magnitude?_eq_some_iff {cs : List Char} {n : Nat} :
    magnitude? cs = some n ↔ Magnitude cs n := by
  constructor
  · intro h
    unfold magnitude? at h
    split at h <;> obtain ⟨ds, hds, rfl⟩ := grouped?_eq_some_iff.1 h
    · exact .underscored (.inl rfl) hds
    · exact .underscored (.inr rfl) hds
    · exact .prefixed (.inl rfl) hds
    · exact .prefixed (.inr rfl) hds
    · exact .plain hds
  · intro h
    cases h with
    | plain digits =>
      rw [magnitude?_of_digits digits]
      exact grouped?_eq_some_iff.2 ⟨_, digits, rfl⟩
    | prefixed letter digits =>
      rw [magnitude?_prefixed letter digits.head_ne_underscore]
      exact grouped?_eq_some_iff.2 ⟨_, digits, rfl⟩
    | underscored letter digits =>
      rw [magnitude?_underscored letter]
      exact grouped?_eq_some_iff.2 ⟨_, digits, rfl⟩

theorem Magnitude.not_sign {cs : List Char} {n : Nat} (h : Magnitude cs n) :
    ∀ c ∈ cs.head?, c ≠ '+' ∧ c ≠ '-' := by
  intro c hc
  cases h with
  | plain digits =>
    have hchar := digits.chars c (List.mem_of_mem_head? hc)
    constructor <;> rintro rfl <;> exact absurd hchar (by decide)
  | prefixed _ _ | underscored _ _ =>
    cases hc
    decide

theorem signed?_eq_some_iff {cs : List Char} {n : Int} : signed? cs = some n ↔ Signed cs n := by
  constructor
  · intro h
    unfold signed? at h
    split at h
    · obtain ⟨k, hk, rfl⟩ := Option.map_eq_some_iff.1 h
      exact .plus (magnitude?_eq_some_iff.1 hk)
    · obtain ⟨i, hi, rfl⟩ := Option.map_eq_some_iff.1 h
      obtain ⟨k, hk, hki⟩ := Option.bind_eq_some_iff.1 hi
      cases hki
      exact .minus (magnitude?_eq_some_iff.1 hk)
    · obtain ⟨k, hk, rfl⟩ := Option.map_eq_some_iff.1 h
      exact .unsigned (magnitude?_eq_some_iff.1 hk)
  · intro h
    cases h with
    | unsigned magnitude =>
      have hsign := magnitude.not_sign
      unfold signed?
      split
      · exact absurd rfl (hsign '+' rfl).1
      · exact absurd rfl (hsign '-' rfl).2
      · rw [magnitude?_eq_some_iff.2 magnitude]
        rfl
    | plus magnitude =>
      rw [signed?, magnitude?_eq_some_iff.2 magnitude]
      rfl
    | minus magnitude =>
      rw [signed?, magnitude?_eq_some_iff.2 magnitude]
      rfl

theorem ofText?_eq_some_iff {s : String} {n : Int} : ofText? s = some n ↔ Denotes s n := by
  rw [ofText?, signed?_eq_some_iff]
  constructor
  · intro h
    exact ⟨_, Text.trimmed_trim _ _, h⟩
  · rintro ⟨core, htrimmed, h⟩
    rwa [Text.trim_eq_iff.2 htrimmed]

/-- A text is read as the number that it denotes, and as none if it does not denote any. -/
theorem ofJson?_text (s : String) :
    (∀ n, ofJson? (.text s) = some n ↔ Denotes s n) ∧
      (ofJson? (.text s) = none ↔ ∀ n, ¬ Denotes s n) := by
  refine ⟨fun n => ofText?_eq_some_iff, ?_⟩
  simp only [← ofText?_eq_some_iff]
  exact Option.eq_none_iff_forall_ne_some

example : ofText? "\t-0X_1f_F " = some (-0x1ff) ∧ ofText? "1__f" = none ∧ ofText? "+0x" = none := by
  decide +kernel

end Address

end TraceReplay
