import TraceReplay.Address
import TraceReplay.Proofs.Trim

/-! # Reading shown addresses

The text of an address is its prefix followed by hexadecimal digits. None of these characters is a
blank, a sign, an underscore or a digit of another script, so the text reads back as the number that
it shows, which is the address modulo `2 ^ 32`.
-/

namespace TraceReplay

namespace Numeral

theorem toNat_of_isSome_digit? {base : Nat} {c : Char} (h : (digit? base c).isSome = true) :
    (0x30 ≤ c.toNat ∧ c.toNat ≤ 0x39) ∨ (0x41 ≤ c.toNat ∧ c.toNat ≤ 0x46) ∨
      (0x61 ≤ c.toNat ∧ c.toNat ≤ 0x66) := by
  apply Classical.byContradiction
  intro hc
  rw [not_or, not_or] at hc
  obtain ⟨hdecimal, hupper, hlower⟩ := hc
  have hnone : digit? base c = none := by
    simp [digit?, hdecimal, hupper, hlower]
  simp [hnone] at h

theorem ne_underscore_of_isSome_digit? {base : Nat} {c : Char}
    (h : (digit? base c).isSome = true) : c ≠ '_' := by
  rintro rfl
  simp [digit?] at h

/-- Without underscores a grouped numeral is a plain one. -/
theorem extendGrouped_eq_extend {base : Nat} {cs : List Char} (h : ∀ c ∈ cs, c ≠ '_')
    (acc : Nat) : extendGrouped base acc cs = extend base acc cs := by
  induction cs generalizing acc with
  | nil => rfl
  | cons c cs ih =>
    have hcs := ih fun d hd => h d (List.mem_cons_of_mem c hd)
    rw [extendGrouped, extend]
    · simp only [hcs]
    · rintro d ds rfl
      exact absurd rfl (h '_' List.mem_cons_self)

theorem hex_ne_nil (width n : Nat) : hex width n ≠ [] := by
  simp [hex, Nat.toDigits_ne_nil]

theorem isSome_digit?_of_mem_hex {width n : Nat} {c : Char} (h : c ∈ hex width n) :
    (digit? 16 c).isSome = true :=
  isSome_digit?_of_extend (extend_hex width n) c h

theorem grouped?_hex (width n : Nat) : grouped? 16 (hex width n) = some n := by
  have hread := extend_hex width n
  have hdigits : ∀ c ∈ hex width n, (digit? 16 c).isSome = true := fun c =>
    isSome_digit?_of_mem_hex
  cases hds : hex width n with
  | nil => exact absurd hds (hex_ne_nil width n)
  | cons d ds =>
    rw [hds] at hread hdigits
    have hplain : ∀ c ∈ ds, c ≠ '_' := fun c hc =>
      ne_underscore_of_isSome_digit? (hdigits c (List.mem_cons_of_mem d hc))
    rw [grouped?, ← hread, extend]
    simp only [extendGrouped_eq_extend hplain, Nat.zero_mul, Nat.zero_add]

end Numeral

theorem Text.decimalDigit?_eq_none {c : Char} (h : c.toNat < 0x80)
    (hdigit : ¬ (0x30 ≤ c.toNat ∧ c.toNat ≤ 0x39)) : Text.decimalDigit? c = none := by
  have hzeros : ∀ start ∈ Text.decimalZeros, start = 0x30 ∨ 0x80 ≤ start := by decide
  rw [Text.decimalDigit?, Option.map_eq_none_iff, List.find?_eq_none]
  intro start hstart hrange
  simp only [Bool.and_eq_true, decide_eq_true_eq] at hrange
  rcases hzeros start hstart with rfl | hlarge <;> omega

theorem Text.toAsciiDigit_of_lt {c : Char} (h : c.toNat < 0x80) : Text.toAsciiDigit c = c := by
  unfold Text.toAsciiDigit
  by_cases hdigit : 0x30 ≤ c.toNat ∧ c.toNat ≤ 0x39
  · have hsome : Text.decimalDigit? c = some (c.toNat - 0x30) := by
      have hlt : c.toNat < 0x30 + 10 := by omega
      simp [Text.decimalDigit?, Text.decimalZeros, hdigit.1, hlt]
    have hn : '0'.toNat + (c.toNat - 0x30) = c.toNat := by
      have hzero : '0'.toNat = 0x30 := rfl
      omega
    rw [hsome]
    simp only [hn, Char.ofNat_toNat]
  · rw [Text.decimalDigit?_eq_none h hdigit]

namespace Address

theorem char_of_mem_hexPadded {width : Nat} {n : Int} {c : Char}
    (h : c ∈ (hexPadded width n).toList) : Text.isBlank c = false ∧ c.toNat < 0x80 := by
  rw [hexPadded, String.toList_ofList, List.mem_cons, List.mem_cons] at h
  rcases h with rfl | rfl | h
  · decide
  · decide
  · have hc := Numeral.toNat_of_isSome_digit? (Numeral.isSome_digit?_of_mem_hex h)
    refine ⟨?_, by omega⟩
    simp [Text.isBlank, Text.isWhiteSpace]
    omega

theorem magnitude?_prefixed {x : Char} (letter : x = 'x' ∨ x = 'X') {cs : List Char}
    (h : ∀ c ∈ cs.head?, c ≠ '_') :
    magnitude? ('0' :: x :: cs) = Numeral.grouped? 16 cs := by
  cases cs with
  | nil => rcases letter with rfl | rfl <;> rfl
  | cons c cs =>
    have hc : c ≠ '_' := h c rfl
    rcases letter with rfl | rfl <;> simp [magnitude?, hc]

/-- The text of an address reads back as the address modulo `2 ^ 32`. -/
theorem ofText?_hexPadded (width : Nat) (n : Int) :
    ofText? (hexPadded width n) = some (n % modulus) := by
  have htrim : Text.trim Text.isBlank (hexPadded width n).toList = (hexPadded width n).toList :=
    Text.trim_eq_self fun c hc => (char_of_mem_hexPadded hc).1
  have hdigits : (hexPadded width n).toList.map Text.toAsciiDigit = (hexPadded width n).toList :=
    (List.map_congr_left fun c hc =>
      Text.toAsciiDigit_of_lt (char_of_mem_hexPadded hc).2).trans (List.map_id _)
  have hplain : ∀ c ∈ (Numeral.hex width (n % modulus).toNat).head?, c ≠ '_' := fun c hc =>
    Numeral.ne_underscore_of_isSome_digit?
      (Numeral.isSome_digit?_of_mem_hex (List.mem_of_mem_head? hc))
  have hnonneg : 0 ≤ n % modulus := Int.emod_nonneg n (by decide)
  rw [ofText?, htrim, hdigits, hexPadded, String.toList_ofList]
  change (magnitude? _).map Int.ofNat = _
  rw [magnitude?_prefixed (.inl rfl) hplain, Numeral.grouped?_hex, Option.map_some]
  exact congrArg some (Int.toNat_of_nonneg hnonneg)

/-- Two addresses have the same text exactly if they have the same low 32 bits. -/
theorem hexPadded_eq_iff (width : Nat) (n k : Int) :
    hexPadded width n = hexPadded width k ↔ n % modulus = k % modulus := by
  constructor
  · intro h
    have hread := congrArg ofText? h
    rw [ofText?_hexPadded, ofText?_hexPadded] at hread
    exact Option.some.inj hread
  · intro h
    rw [hexPadded, hexPadded, h]

theorem ofText?_hex {n : Int} (h : 0 ≤ n) (hlt : n < modulus) : ofText? (hex n) = some n := by
  rw [hex, ofText?_hexPadded, Int.emod_eq_of_lt h hlt]

end Address

end TraceReplay
