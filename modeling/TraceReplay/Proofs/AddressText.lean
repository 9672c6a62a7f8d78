import Mathlib.Algebra.Group.Int.Defs
import TraceReplay.Proofs.Address

/-! # The texts of addresses

An address is shown by its low 32 bits, in lower-case hexadecimal digits behind the prefix: as many
as the width asks for, more if the number needs them, and at least one. No zero stands in front that
the width does not ask for. The text is read back as the low 32 bits, so two addresses have the same
text exactly if they agree there.
-/

namespace TraceReplay

namespace Numeral

theorem exists_digitChar_of_mem_toDigits {base n : Nat} (hone : 1 < base) {c : Char}
    (h : c ∈ Nat.toDigits base n) : ∃ d < base, c = d.digitChar := by
  induction n using Nat.strongRecOn with
  | ind n ih =>
    rw [Nat.toDigits_eq_if hone] at h
    split at h
    · next hsmall => exact ⟨n, hsmall, List.mem_singleton.1 h⟩
    · next hlarge =>
      rcases List.mem_append.1 h with hfront | hlast
      · exact ih (n / base) (Nat.div_lt_self (by omega) hone) hfront
      · exact ⟨n % base, Nat.mod_lt n (by omega), List.mem_singleton.1 hlast⟩

theorem mem_lowerCase_of_mem_hex {width n : Nat} {c : Char} (h : c ∈ hex width n) :
    c ∈ "0123456789abcdef".toList := by
  have hall : ∀ d : Fin 16, Nat.digitChar d ∈ "0123456789abcdef".toList := by decide
  rcases List.mem_append.1 h with hzero | hdigit
  · rw [List.eq_of_mem_replicate hzero]
    decide
  · obtain ⟨d, hd, rfl⟩ := exists_digitChar_of_mem_toDigits (by decide) hdigit
    exact hall ⟨d, hd⟩

/-- A zero in front is the only digit, or one that the width asks for. -/
theorem length_hex_of_head? {width n : Nat} (h : (hex width n).head? = some '0') :
    (hex width n).length = max width 1 := by
  have hpos : 0 < (Nat.toDigits 16 n).length := Nat.length_toDigits_pos
  rw [length_hex]
  by_cases hn : n = 0
  · subst hn
    rfl
  · have hwide : (Nat.toDigits 16 n).length < width := by
      apply Nat.lt_of_not_le
      intro hle
      rw [hex, Nat.sub_eq_zero_of_le hle] at h
      exact head?_toDigits_ne (by decide) hn h
    omega

end Numeral

namespace Address

/-- A width that is not negative and fits 63 bits has a text. -/
theorem hexPadded?_eq_ok {width : Int} (h : 0 ≤ width) (hlt : width < 2 ^ 63) (n : Int) :
    hexPadded? width n = .ok (hexPadded width.toNat n) := by
  rw [hexPadded?, if_neg (by omega), if_neg (by omega)]

/-- In a width that fits 63 bits, an address of either sign has a text of the prefix and lower-case
hexadecimal digits, at least as many as the width and at least one, with a zero in front only where
these numbers ask for it; and the text is read as the low 32 bits of the address. A larger width is
refused, whatever the address. Two addresses are shown alike exactly if they agree modulo
`2 ^ 32`. -/
theorem hexPadded?_codec (n width : Int) (hwidth : 0 ≤ width) :
    (width < 2 ^ 63 →
      ∃ cs : List Char, hexPadded? width n = .ok (String.ofList ('0' :: 'x' :: cs)) ∧
        (∀ c ∈ cs, c ∈ "0123456789abcdef".toList) ∧
        width ≤ cs.length ∧ 1 ≤ cs.length ∧
        (cs.head? = some '0' → cs.length = max width 1) ∧
        ofJson? (.text (String.ofList ('0' :: 'x' :: cs))) = some (n % 2 ^ 32)) ∧
    (2 ^ 63 ≤ width → hexPadded? width n = .error .tooLarge) ∧
    hexPadded? digits n = .ok (hex n) ∧
    ∀ k, hex n = hex k ↔ n % 2 ^ 32 = k % 2 ^ 32 := by
  refine ⟨fun hlt => ?_, fun hge => ?_, rfl, fun k => hexPadded_eq_iff digits n k⟩
  · have hlength := Numeral.length_hex width.toNat (n % modulus).toNat
    have hpos : 0 < (Nat.toDigits 16 (n % modulus).toNat).length := Nat.length_toDigits_pos
    refine ⟨Numeral.hex width.toNat (n % modulus).toNat, hexPadded?_eq_ok hwidth hlt n,
      fun c => Numeral.mem_lowerCase_of_mem_hex, by omega, by omega, fun hzero => ?_, ?_⟩
    · rw [Numeral.length_hex_of_head? hzero]
      omega
    · exact ofText?_hexPadded width.toNat n
  · rw [hexPadded?, if_neg (by omega), if_pos (by omega)]

/-- A negative address in a width that is larger than its 32 bits ask for. -/
theorem hexPadded?_codec_negative :
    hexPadded? 10 (-1) = .ok "0x00ffffffff" ∧
      ofJson? (.text "0x00ffffffff") = some 0xffffffff ∧
      hex (-1) = hex 0x5ffffffff ∧ hex (-1) ≠ hex 1 := by
  obtain ⟨hfits, -, -, halike⟩ := hexPadded?_codec (-1) 10 (by decide)
  obtain ⟨cs, htext, -, -, -, -, hread⟩ := hfits (by decide)
  have hshown : hexPadded? 10 (-1) = .ok "0x00ffffffff" := rfl
  rw [Except.ok.inj (htext.symm.trans hshown)] at hread
  exact ⟨hshown, hread, (halike 0x5ffffffff).2 (by decide), mt (halike 1).1 (by decide)⟩

theorem hexPadded?_tooLarge :
    (0 : Int) ≤ 0x8000000000000000 ∧ ¬ ∃ text, hexPadded? 0x8000000000000000 0 = .ok text := by
  refine ⟨by decide, ?_⟩
  rintro ⟨text, h⟩
  cases h

end Address

end TraceReplay
