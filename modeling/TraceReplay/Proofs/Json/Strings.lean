import Mathlib.Data.List.Basic
import TraceReplay.Json.Reader
import TraceReplay.Json.Writer

/-! # Strings in JSON text

A string is written between quotation marks, with its characters as they are, behind a backslash,
or as the hexadecimal numerals of their code units. Reading collects the code units up to the
closing mark and joins the two that a character beyond the sixteen-bit range may be written as, so
that the characters come back one by one.
-/

namespace TraceReplay.Json

/-- The code units under which a character is read back. -/
def charUnits (asciiOnly : Bool) (c : Char) : List Nat :=
  if asciiOnly && 0x10000 ≤ c.toNat then
    [0xd800 + (c.toNat - 0x10000) / 0x400, 0xdc00 + (c.toNat - 0x10000) % 0x400]
  else [c.toNat]

theorem toNat_valid (c : Char) : c.toNat < 0xd800 ∨ 0xdfff < c.toNat ∧ c.toNat < 0x110000 :=
  c.valid

theorem hex_four {u : Nat} (hu : u < 0x10000) :
    ∃ a b c d, Numeral.hex 4 u = [a, b, c, d] ∧ Numeral.plain? 16 [a, b, c, d] = some u := by
  have hlength : (Numeral.hex 4 u).length = 4 := by
    have hle : (Nat.toDigits 16 u).length ≤ 4 :=
      (Nat.length_toDigits_le_iff (by decide) (by decide)).2 hu
    rw [Numeral.length_hex]
    omega
  obtain ⟨a, b, c, d, h⟩ := List.length_eq_four.1 hlength
  refine ⟨a, b, c, d, h, ?_⟩
  rw [← h]
  have hread := Numeral.extend_hex 4 u
  rw [h] at hread ⊢
  exact hread

/-- How a character is written: by a letter behind a backslash, by its numeric escape, or as it
is. -/
inductive Written (asciiOnly : Bool) (c : Char) : List Char → Prop
  | letter (letter : Char) (hletter : letter ≠ 'u') (he : escaped? letter = some c)
      (hc : asciiOnly = true → c.toNat < 0x10000) : Written asciiOnly c ['\\', letter]
  | numeric (hc : c.toNat < 0x20 ∨ asciiOnly = true) : Written asciiOnly c (numericEscape c)
  | plain (hquote : c ≠ '"') (hback : c ≠ '\\') (hcontrol : ¬ c.toNat < 0x20)
      (hascii : asciiOnly = true → c.toNat ≤ 0x7e) : Written asciiOnly c [c]

theorem writeChar_written (asciiOnly : Bool) (c : Char) :
    Written asciiOnly c (writeChar asciiOnly c) := by
  unfold writeChar
  split_ifs with hquote hback hnewline hreturn htab hfeed hbackspace hescape
  · subst hquote; exact .letter _ (by decide) rfl fun _ => by decide
  · subst hback; exact .letter _ (by decide) rfl fun _ => by decide
  · subst hnewline; exact .letter _ (by decide) rfl fun _ => by decide
  · subst hreturn; exact .letter _ (by decide) rfl fun _ => by decide
  · subst htab; exact .letter _ (by decide) rfl fun _ => by decide
  · subst hfeed; exact .letter _ (by decide) rfl fun _ => by decide
  · subst hbackspace; exact .letter _ (by decide) rfl fun _ => by decide
  · simp only [Bool.or_eq_true, Bool.and_eq_true, decide_eq_true_eq] at hescape
    exact .numeric (hescape.imp_right And.left)
  · simp only [Bool.or_eq_true, Bool.and_eq_true, decide_eq_true_eq, not_or, not_and] at hescape
    exact .plain hquote hback hescape.1 fun ha => Nat.le_of_not_lt (hescape.2 ha)

section

variable {opening rest tail : List Char} {units : List Nat}

theorem stringUnits_unitEscape {u : Nat} (hu : u < 0x10000)
    (h : stringUnits opening rest = .ok (units, tail)) :
    stringUnits opening (unitEscape u ++ rest) = .ok (u :: units, tail) := by
  obtain ⟨a, b, c, d, hhex, hvalue⟩ := hex_four hu
  cases rest with
  | nil => cases h
  | cons next more =>
    simp only [unitEscape, hhex, List.cons_append, List.nil_append]
    rw [stringUnits.eq_def]
    simp only [hvalue, h, bind, Except.bind]

theorem stringUnits_numericEscape {c : Char} (hc : c.toNat < 0x10000)
    (h : stringUnits opening rest = .ok (units, tail)) :
    stringUnits opening (numericEscape c ++ rest) = .ok (c.toNat :: units, tail) := by
  simp only [numericEscape, if_pos hc]
  exact stringUnits_unitEscape hc h

theorem stringUnits_pairEscape {c : Char} (hc : 0x10000 ≤ c.toNat)
    (h : stringUnits opening rest = .ok (units, tail)) :
    stringUnits opening (numericEscape c ++ rest) = .ok (charUnits true c ++ units, tail) := by
  have hvalid := toNat_valid c
  simp only [numericEscape, if_neg (Nat.not_lt.2 hc), charUnits, List.append_assoc]
  rw [stringUnits_unitEscape (by omega) (stringUnits_unitEscape (by omega) h)]
  simp [hc]

theorem stringUnits_escaped {letter e : Char} (hletter : letter ≠ 'u')
    (he : escaped? letter = some e) (h : stringUnits opening rest = .ok (units, tail)) :
    stringUnits opening ('\\' :: letter :: rest) = .ok (e.toNat :: units, tail) := by
  simp [stringUnits, hletter, he, h, bind, Except.bind]

theorem stringUnits_plain {c : Char} (hquote : c ≠ '"') (hback : c ≠ '\\')
    (hcontrol : ¬ c.toNat < 0x20) (h : stringUnits opening rest = .ok (units, tail)) :
    stringUnits opening (c :: rest) = .ok (c.toNat :: units, tail) := by
  simp [stringUnits, hback, hcontrol, h, bind, Except.bind]

/-- A written character is read back as its code units. -/
theorem stringUnits_writeChar (asciiOnly : Bool) (c : Char)
    (h : stringUnits opening rest = .ok (units, tail)) :
    stringUnits opening (writeChar asciiOnly c ++ rest) =
      .ok (charUnits asciiOnly c ++ units, tail) := by
  have hsmall (hc : asciiOnly = true → c.toNat < 0x10000) : charUnits asciiOnly c = [c.toNat] := by
    cases asciiOnly with
    | false => rfl
    | true => simp [charUnits, hc rfl]
  have hwritten := writeChar_written asciiOnly c
  -- The cases determine the written text, which must be a variable for that.
  generalize writeChar asciiOnly c = text at hwritten
  cases hwritten with
  | letter letter hletter he hunits =>
    rw [hsmall hunits]
    exact stringUnits_escaped hletter he h
  | numeric hc =>
    by_cases hn : c.toNat < 0x10000
    · rw [hsmall fun _ => hn]
      exact stringUnits_numericEscape hn h
    · cases asciiOnly with
      | false => exact absurd (hc.resolve_right Bool.false_ne_true) (by omega)
      | true => exact stringUnits_pairEscape (Nat.le_of_not_lt hn) h
  | plain hquote hback hcontrol hascii =>
    rw [hsmall fun ha => Nat.lt_of_le_of_lt (hascii ha) (by decide)]
    exact stringUnits_plain hquote hback hcontrol h

theorem stringUnits_flatMap_writeChar (asciiOnly : Bool) (opening cs rest : List Char) :
    stringUnits opening (cs.flatMap (writeChar asciiOnly) ++ '"' :: rest) =
      .ok (cs.flatMap (charUnits asciiOnly), rest) := by
  induction cs with
  | nil => simp [stringUnits]
  | cons c cs ih =>
    rw [List.flatMap_cons, List.flatMap_cons, List.append_assoc]
    exact stringUnits_writeChar asciiOnly c ih

end

theorem surrogate_toNat (c : Char) :
    highSurrogate c.toNat = false ∧ lowSurrogate c.toNat = false := by
  have hvalid := toNat_valid c
  simp only [highSurrogate, lowSurrogate, Bool.and_eq_false_iff, decide_eq_false_iff_not]
  omega

theorem charOfUnit_toNat (c : Char) : charOfUnit c.toNat = c := by
  simp [charOfUnit, surrogate_toNat]

theorem charsOfUnits_single (c : Char) (units : List Nat) :
    charsOfUnits (c.toNat :: units) = c :: charsOfUnits units := by
  cases units with
  | nil => simp [charsOfUnits, charOfUnit_toNat]
  | cons u units => simp [charsOfUnits, surrogate_toNat, charOfUnit_toNat]

theorem charsOfUnits_pair {c : Char} (hc : 0x10000 ≤ c.toNat) (units : List Nat) :
    charsOfUnits ((0xd800 + (c.toNat - 0x10000) / 0x400) ::
      (0xdc00 + (c.toNat - 0x10000) % 0x400) :: units) = c :: charsOfUnits units := by
  have hvalid := toNat_valid c
  have hhigh : highSurrogate (0xd800 + (c.toNat - 0x10000) / 0x400) = true := by
    simp only [highSurrogate, Bool.and_eq_true, decide_eq_true_eq]
    omega
  have hlow : lowSurrogate (0xdc00 + (c.toNat - 0x10000) % 0x400) = true := by
    simp only [lowSurrogate, Bool.and_eq_true, decide_eq_true_eq]
    omega
  have hjoined : 0x10000 + (0xd800 + (c.toNat - 0x10000) / 0x400 - 0xd800) * 0x400 +
      (0xdc00 + (c.toNat - 0x10000) % 0x400 - 0xdc00) = c.toNat := by
    omega
  rw [charsOfUnits, hhigh, hlow, hjoined, Char.ofNat_toNat]
  rfl

/-- The code units of a character are joined to the character, whatever follows them. -/
theorem charsOfUnits_charUnits (asciiOnly : Bool) (c : Char) (units : List Nat) :
    charsOfUnits (charUnits asciiOnly c ++ units) = c :: charsOfUnits units := by
  unfold charUnits
  split
  · next h =>
    simp only [Bool.and_eq_true, decide_eq_true_eq] at h
    exact charsOfUnits_pair h.2 units
  · exact charsOfUnits_single c units

theorem charsOfUnits_flatMap (asciiOnly : Bool) (cs : List Char) :
    charsOfUnits (cs.flatMap (charUnits asciiOnly)) = cs := by
  induction cs with
  | nil => rfl
  | cons c cs ih => rw [List.flatMap_cons, charsOfUnits_charUnits, ih]

/-- A written string is read back, whatever follows it. -/
theorem string_writeString (asciiOnly : Bool) (s : String) (opening rest : List Char) :
    string opening (s.toList.flatMap (writeChar asciiOnly) ++ '"' :: rest) = .ok (s, rest) := by
  simp only [string, stringUnits_flatMap_writeChar]
  change Except.ok (String.ofList (charsOfUnits _), rest) = _
  rw [charsOfUnits_flatMap, String.ofList_toList]

end TraceReplay.Json
