/-! # Positional numerals

Numerals are read in a base of at most sixteen, with letters of either case for the digits from
ten on; a grouped numeral may have single underscores strictly between its digits. Hexadecimal
numerals are written in lower case and padded with zeros to a width.
-/

namespace TraceReplay.Numeral

/-- The value of an ASCII digit or letter as a digit of the base. -/
def digit? (base : Nat) (c : Char) : Option Nat :=
  let n := c.toNat
  let value :=
    if 0x30 ≤ n && n ≤ 0x39 then some (n - 0x30)
    else if 0x41 ≤ n && n ≤ 0x46 then some (n - 0x41 + 10)
    else if 0x61 ≤ n && n ≤ 0x66 then some (n - 0x61 + 10)
    else none
  value.filter (· < base)

/-- Append digits to a numeral of value `acc`. -/
def extend (base : Nat) : Nat → List Char → Option Nat
  | acc, [] => some acc
  | acc, c :: cs => (digit? base c).bind fun d => extend base (acc * base + d) cs

/-- The value of a numeral: at least one digit and nothing else. -/
def plain? (base : Nat) : List Char → Option Nat
  | [] => none
  | cs => extend base 0 cs

/-- Append digits to a numeral of value `acc`; one underscore may stand before each digit. -/
def extendGrouped (base : Nat) : Nat → List Char → Option Nat
  | acc, [] => some acc
  | acc, '_' :: c :: cs => (digit? base c).bind fun d => extendGrouped base (acc * base + d) cs
  | acc, c :: cs => (digit? base c).bind fun d => extendGrouped base (acc * base + d) cs

def grouped? (base : Nat) : List Char → Option Nat
  | [] => none
  | c :: cs => (digit? base c).bind fun d => extendGrouped base d cs

/-- The hexadecimal numeral of `n` with at least `width` digits. -/
def hex (width n : Nat) : List Char :=
  let ds := Nat.toDigits 16 n
  List.replicate (width - ds.length) '0' ++ ds

theorem extend_append (base acc : Nat) (cs ds : List Char) :
    extend base acc (cs ++ ds) = (extend base acc cs).bind fun n => extend base n ds := by
  induction cs generalizing acc with
  | nil => rfl
  | cons c cs ih =>
    simp only [List.cons_append, extend]
    cases digit? base c with
    | none => rfl
    | some d => simp [ih]

theorem extend_replicate_zero {base : Nat} (h : 0 < base) (n : Nat) :
    extend base 0 (List.replicate n '0') = some 0 := by
  induction n with
  | zero => rfl
  | succ n ih =>
    have hd : digit? base '0' = some 0 := by simp [digit?, h]
    simp [List.replicate_succ, extend, hd, ih]

theorem digit?_digitChar {base d : Nat} (hbase : base ≤ 16) (h : d < base) :
    digit? base d.digitChar = some d := by
  have hall : ∀ d : Fin 16, digit? 16 (Nat.digitChar d) = some d.val := by decide
  have hd : digit? 16 d.digitChar = some d := hall ⟨d, Nat.lt_of_lt_of_le h hbase⟩
  simp only [digit?, Option.filter_eq_some_iff] at hd ⊢
  exact ⟨hd.1, decide_eq_true h⟩

/-- Reading a numeral gives back its value. -/
theorem extend_toDigits {base : Nat} (hone : 1 < base) (hbase : base ≤ 16) (n : Nat) :
    extend base 0 (Nat.toDigits base n) = some n := by
  induction n using Nat.strongRecOn with
  | ind n ih =>
    rw [Nat.toDigits_eq_if hone]
    split
    · next h => simp [extend, digit?_digitChar hbase h]
    · next h =>
      have hd := digit?_digitChar hbase (Nat.mod_lt n (Nat.zero_lt_of_lt hone))
      have hn : n / base * base + n % base = n := Nat.div_add_mod' n base
      rw [extend_append, ih (n / base) (Nat.div_lt_self (by omega) hone)]
      simp [extend, hd, hn]

theorem length_hex (width n : Nat) :
    (hex width n).length = max width (Nat.toDigits 16 n).length := by
  rw [hex, List.length_append, List.length_replicate]
  omega

theorem extend_hex (width n : Nat) : extend 16 0 (hex width n) = some n := by
  simp [hex, extend_append, extend_replicate_zero, extend_toDigits]

theorem plain?_toDigits {base : Nat} (hone : 1 < base) (hbase : base ≤ 16) (n : Nat) :
    plain? base (Nat.toDigits base n) = some n := by
  have hread := extend_toDigits hone hbase n
  cases hds : Nat.toDigits base n with
  | nil => exact absurd hds Nat.toDigits_ne_nil
  | cons c cs => rwa [hds] at hread

theorem head?_toDigits_ne {base n : Nat} (hone : 1 < base) (h : n ≠ 0) :
    (Nat.toDigits base n).head? ≠ some '0' := by
  induction n using Nat.strongRecOn with
  | ind n ih =>
    rw [Nat.toDigits_eq_if hone]
    split
    · simpa [Nat.digitChar_eq_zero] using h
    · have hquotient : 0 < n / base := Nat.div_pos (by omega) (by omega)
      have hhead := ih (n / base) (Nat.div_lt_self (by omega) hone) (by omega)
      cases hds : Nat.toDigits base (n / base) with
      | nil => exact absurd hds Nat.toDigits_ne_nil
      | cons d ds => rwa [hds] at hhead

theorem isSome_digit?_of_extend {base acc n : Nat} {cs : List Char}
    (h : extend base acc cs = some n) : ∀ c ∈ cs, (digit? base c).isSome = true := by
  induction cs generalizing acc with
  | nil => exact fun _ hc => nomatch hc
  | cons c cs ih =>
    obtain ⟨d, hd, hrest⟩ := Option.bind_eq_some_iff.1 h
    exact List.forall_mem_cons.2 ⟨Option.isSome_iff_exists.2 ⟨d, hd⟩, ih hrest⟩

end TraceReplay.Numeral
