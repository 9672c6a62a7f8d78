import TraceReplay.Proofs.Bytes.LittleEndian

/-! # Strings among bytes

A string is stored as the low bytes of its code points with a zero behind them. It is read up to the
first zero, which is the one behind it only if no character of the string has a zero for its low
byte. What follows the zero is not looked at, and need not be characters at all.
-/

namespace TraceReplay

namespace Bytes

theorem charsOfNumbers_append_zero (bytes : List UInt8) (rest : List Int) :
    charsOfNumbers (numbers bytes ++ 0 :: rest) = .ok (toChars bytes) := by
  induction bytes with
  | nil => rfl
  | cons b bs ih =>
    change charsOfNumbers ((b.toNat : Int) :: (numbers bs ++ 0 :: rest)) = _
    rw [charsOfNumbers_byte, ih]
    by_cases h : b = 0 <;> simp [toChars, h, Functor.map, Except.map]

theorem ofNat_eq_zero_iff (n : Nat) : UInt8.ofNat n = 0 ↔ 256 ∣ n := by
  rw [← UInt8.toNat_inj, UInt8.toNat_ofNat']
  exact Nat.dvd_iff_mod_eq_zero.symm

/-- The characters that a string is read back as: the low bytes of the code points before the first
of them that is a multiple of 256. -/
def folded (cs : List Char) : List Char :=
  (cs.takeWhile fun c => ¬ 256 ∣ c.toNat).map fun c => Char.ofNat (c.toNat % 256)

theorem toChars_map_ofNat (cs : List Char) :
    toChars (cs.map fun c => UInt8.ofNat c.toNat) = folded cs := by
  have hzero : ((· != 0) ∘ fun c : Char => UInt8.ofNat c.toNat) =
      fun c => decide ¬ 256 ∣ c.toNat := by
    funext c
    by_cases h : 256 ∣ c.toNat
    · simp [h, (ofNat_eq_zero_iff c.toNat).2 h]
    · simp [h, mt (ofNat_eq_zero_iff c.toNat).1 h]
  rw [toChars, List.takeWhile_map, List.map_map, hzero, folded]
  exact List.map_congr_left fun c _ => by rw [Function.comp_apply, UInt8.toNat_ofNat']

/-- Reading a string goes no further than its end. -/
theorem charsOfNumbers_ofString (s : String) (rest : List Int) :
    charsOfNumbers (numbers (ofString s) ++ rest) = .ok (folded s.toList) := by
  have hend : numbers (ofString s) ++ rest =
      numbers (s.toList.map fun c => UInt8.ofNat c.toNat) ++ 0 :: rest := by
    simp [numbers, ofString]
  rw [hend, charsOfNumbers_append_zero, toChars_map_ofNat]

theorem ofNat_low_eq_iff (c : Char) : Char.ofNat (c.toNat % 256) = c ↔ c.toNat ≤ 255 := by
  constructor
  · intro h
    have hvalid : (c.toNat % 256).isValidChar := .inl (by omega)
    have hlow : (Char.ofNat (c.toNat % 256)).toNat = c.toNat % 256 := by
      rw [Char.ofNat, dif_pos hvalid]
      rfl
    rw [h] at hlow
    omega
  · intro h
    rw [Nat.mod_eq_of_lt (by omega), Char.ofNat_toNat]

theorem folded_cons (c : Char) (cs : List Char) :
    folded (c :: cs) =
      if 256 ∣ c.toNat then [] else Char.ofNat (c.toNat % 256) :: folded cs := by
  by_cases h : 256 ∣ c.toNat <;> simp [folded, h]

/-- A string is read back as itself exactly if its characters are bytes other than zero. -/
theorem folded_eq_self_iff (cs : List Char) :
    folded cs = cs ↔ ∀ c ∈ cs, 1 ≤ c.toNat ∧ c.toNat ≤ 255 := by
  induction cs with
  | nil => simp [folded]
  | cons c cs ih =>
    rw [folded_cons, List.forall_mem_cons, ← ih]
    by_cases h : 256 ∣ c.toNat
    · have hc : ¬ (1 ≤ c.toNat ∧ c.toNat ≤ 255) := by omega
      simp [h, hc]
    · have hc : 1 ≤ c.toNat ∧ c.toNat ≤ 255 ↔ c.toNat ≤ 255 := by omega
      rw [if_neg h, List.cons.injEq, ofNat_low_eq_iff, hc]

/-- A string that is stored as bytes, whatever follows them, is read back as the characters of the
low bytes of its code points, up to the first code point that is a multiple of 256; these are the
characters of the string exactly if its code points lie between 1 and 255. A store of these bytes
into a local of a character type leaves the characters that are read back. -/
theorem cString_codec (s : String) (rest : List Int) (m : Memory) (name : String) (v : Variable) :
    let data := numbers (ofString s) ++ rest
    let chars := (s.toList.takeWhile fun c => ¬ 256 ∣ c.toNat).map
      fun c => Char.ofNat (c.toNat % 256)
    charsOfNumbers data = .ok chars ∧
      (charsOfNumbers data = .ok s.toList ↔ ∀ c ∈ s.toList, 1 ≤ c.toNat ∧ c.toNat ≤ 255) ∧
      (m.local? name = some v → "char".toList <+: v.type.toList →
        ∃ m', m.storeNumbers name data = .ok (some (.chars chars), m') ∧
          m'.local? name = some { v with value := .chars chars }) := by
  intro data chars
  have hread : charsOfNumbers data = .ok chars := charsOfNumbers_ofString s rest
  refine ⟨hread, ?_, fun hv htype => Memory.storeNumbers_of_local? hv ?_⟩
  · rw [hread, Except.ok.injEq]
    exact folded_eq_self_iff s.toList
  · have hdata : (Variable.isCharType v.type && !data.isEmpty) = true := by
      simpa [Variable.isCharType, List.isPrefixOf_iff_prefix, data, numbers, ofString] using htype
    rw [Variable.storedNumbers, if_pos hdata, hread]
    rfl

/-- A string with a character beyond bytes, and one whose low byte is zero, stored into a local of a
character type with a number behind it that is no code point. -/
theorem cString_codec_foldedText :
    let v : Variable := ⟨"s", "char *", 0x7fffdff8, 8, .int 0⟩
    let m : Memory := { Memory.initial with frames := [⟨"main", [v]⟩], stackCursor := 0x7fffdff8 }
    "char".toList <+: "char *".toList ∧
      charsOfNumbers [0xe9, 0x42, 0, 0x63, 0, -1] = .ok ['\u00e9', 'B'] ∧
      ∃ m', m.storeNumbers "s" [0xe9, 0x42, 0, 0x63, 0, -1] =
          .ok (some (.chars ['\u00e9', 'B']), m') ∧
        m'.local? "s" = some { v with value := .chars ['\u00e9', 'B'] } := by
  intro v m
  have htype : "char".toList <+: "char *".toList := by decide
  obtain ⟨hread, -, hstored⟩ := cString_codec "\u00e9\u0142\u0100c" [-1] m "s" v
  exact ⟨htype, hread, hstored rfl htype⟩

end Bytes

end TraceReplay
