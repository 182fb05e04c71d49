import Containment.Text.Numeral
import Containment.Proofs.Trimming
import Mathlib.Data.List.Induction

/-!
# Numerals

`Numeral` says which texts are numerals of a base, and of which number: digits in either case, with
a plus sign before them or without, and as many zeros in front as one likes. A text is read as a
number exactly if it is a numeral of that number and the type holds it (`readNatural_eq_ok_iff`).
The numerals that are written are among them.
-/

namespace Containment.Text

variable {base limit value n d : Nat} {overflow : NumeralError} {c : Char} {cs digits : List Char}

/-! ## Digits -/

/-- `c` is the digit `d`, as a small letter or as a capital one where it is a letter. -/
def IsDigit (base : Nat) (c : Char) (d : Nat) : Prop := d < base ∧ c.toLower = Nat.digitChar d

theorem toNat_toLower (c : Char) :
    c.toLower.toNat = if 0x41 ≤ c.toNat ∧ c.toNat ≤ 0x5A then c.toNat + 32 else c.toNat := by
  have hcapital : (c.val ≥ 'A'.val ∧ c.val ≤ 'Z'.val) ↔ 0x41 ≤ c.toNat ∧ c.toNat ≤ 0x5A := Iff.rfl
  unfold Char.toLower
  by_cases h : c.val ≥ 'A'.val ∧ c.val ≤ 'Z'.val
  · rw [dif_pos h, if_pos (hcapital.1 h)]
    have hsum : c.toNat + 32 < UInt32.size :=
      Nat.lt_of_le_of_lt (Nat.add_le_add_right (hcapital.1 h).2 32) (by decide)
    exact (UInt32.toNat_add c.val 32).trans (Nat.mod_eq_of_lt hsum)
  · rw [dif_neg h, if_neg (hcapital.not.1 h)]

theorem toNat_digitChar (hd : d < 16) :
    (Nat.digitChar d).toNat = if d < 10 then 0x30 + d else 0x57 + d := by
  revert d
  decide

theorem IsDigit.bounds (hbase : base ≤ 16) (h : IsDigit base c d) :
    0x30 ≤ c.toNat ∧ c.toNat ≤ 0x66 := by
  obtain ⟨hd, hc⟩ := h
  rw [← Char.toNat_inj, toNat_toLower, toNat_digitChar (Nat.lt_of_lt_of_le hd hbase)] at hc
  grind

theorem digitValue?_eq_some_iff (hbase : base ≤ 16) :
    digitValue? base c = some d ↔ IsDigit base c d := by
  unfold IsDigit digitValue?
  by_cases hd : d < base
  · rw [← Char.toNat_inj, toNat_toLower, toNat_digitChar (Nat.lt_of_lt_of_le hd hbase)]
    grind
  · grind

/-- The digits write the number `n`, the last one counting once. No digits write zero. -/
inductive Digits (base : Nat) : List Char → Nat → Prop
  | nil : Digits base [] 0
  | concat {cs : List Char} {c : Char} {n d : Nat} (front : Digits base cs n)
    (last : IsDigit base c d) : Digits base (cs ++ [c]) (n * base + d)

theorem digits_nil_iff : Digits base [] n ↔ n = 0 := by
  refine ⟨fun h => ?_, fun h => h ▸ .nil⟩
  generalize htext : ([] : List Char) = text at h
  cases h with
  | nil => rfl
  | concat => simp at htext

theorem digits_concat_iff :
    Digits base (cs ++ [c]) n ↔ ∃ m d, Digits base cs m ∧ IsDigit base c d ∧ m * base + d = n := by
  constructor
  · intro h
    generalize htext : cs ++ [c] = text at h
    cases h with
    | nil => simp at htext
    | concat front last =>
      obtain ⟨rfl, hc⟩ := List.append_inj' htext rfl
      cases hc
      exact ⟨_, _, front, last, rfl⟩
  · rintro ⟨m, d, hfront, hlast, rfl⟩
    exact .concat hfront hlast

theorem Digits.digit_of_mem (h : Digits base cs n) (hc : c ∈ cs) : ∃ d, IsDigit base c d := by
  induction h with
  | nil => cases hc
  | concat front last ih =>
    rcases List.mem_append.1 hc with hfront | hlast
    · exact ih hfront
    · exact ⟨_, List.mem_singleton.1 hlast ▸ last⟩

theorem Digits.zeros_append (hpos : 0 < base) (h : Digits base cs n) (zeros : Nat) :
    Digits base (List.replicate zeros '0' ++ cs) n := by
  induction h with
  | nil =>
    rw [List.append_nil]
    induction zeros with
    | zero => exact .nil
    | succ zeros ih =>
      rw [List.replicate_succ']
      have hzeros : Digits base (List.replicate zeros '0' ++ ['0']) (0 * base + 0) :=
        .concat ih ⟨hpos, rfl⟩
      rwa [Nat.zero_mul] at hzeros
  | concat front last ih =>
    rw [← List.append_assoc]
    exact .concat ih last

theorem toLower_toLower (c : Char) : c.toLower.toLower = c.toLower := by
  rw [← Char.toNat_inj, toNat_toLower, toNat_toLower]
  grind

theorem digits_map_toLower : Digits base (cs.map Char.toLower) n ↔ Digits base cs n := by
  induction cs using List.reverseRecOn generalizing n with
  | nil => rfl
  | append_singleton cs c ih =>
    rw [List.map_append, List.map_singleton, digits_concat_iff, digits_concat_iff]
    simp only [ih, IsDigit, toLower_toLower]

theorem isDigit_digitChar (hbase : base ≤ 16) (hd : d < base) :
    IsDigit base (Nat.digitChar d) d := by
  have hsmall : ∀ d < 16, (Nat.digitChar d).toLower = Nat.digitChar d := by decide
  exact ⟨hd, hsmall d (Nat.lt_of_lt_of_le hd hbase)⟩

theorem digits_toDigits (hone : 1 < base) (hbase : base ≤ 16) (n : Nat) :
    Digits base (Nat.toDigits base n) n := by
  induction n using Nat.base_induction base hone with
  | single d hd =>
    rw [Nat.toDigits_of_lt_base hd]
    have hdigit : Digits base ([] ++ [Nat.digitChar d]) (0 * base + d) :=
      .concat .nil (isDigit_digitChar hbase hd)
    rwa [Nat.zero_mul, Nat.zero_add] at hdigit
  | digit m d hd hm ih =>
    rw [← Nat.toDigits_append_toDigits hone hm hd, Nat.toDigits_of_lt_base hd, Nat.mul_comm]
    exact .concat ih (isDigit_digitChar hbase hd)

/-! ## Reading digits -/

theorem readDigits_concat (cs : List Char) (c : Char) (value : Nat) :
    readDigits base limit overflow value (cs ++ [c]) =
      (readDigits base limit overflow value cs).bind fun n =>
        readDigits base limit overflow n [c] := by
  induction cs generalizing value with
  | nil => rfl
  | cons c' cs ih =>
    simp only [List.cons_append, readDigits]
    split
    · rfl
    · split
      · exact ih _
      · rfl

theorem readDigits_single (hbase : base ≤ 16) :
    readDigits base limit overflow value [c] = .ok n ↔
      ∃ d, IsDigit base c d ∧ value * base + d = n ∧ n ≤ limit := by
  simp only [← digitValue?_eq_some_iff hbase, readDigits]
  cases digitValue? base c with
  | none => simp
  | some d =>
    simp only [Option.some.injEq, exists_eq_left']
    split
    · rename_i hle
      rw [Except.ok.injEq]
      exact ⟨fun h => ⟨h, h ▸ hle⟩, And.left⟩
    · rename_i hgt
      exact iff_of_false nofun fun ⟨h, hle⟩ => hgt (h ▸ hle)

/-- The number is below the limit at every digit as it is below it at the last one. -/
theorem readDigits_eq_ok_iff (hpos : 0 < base) (hbase : base ≤ 16) :
    readDigits base limit overflow 0 cs = .ok n ↔ Digits base cs n ∧ n ≤ limit := by
  induction cs using List.reverseRecOn generalizing n with
  | nil =>
    rw [readDigits, Except.ok.injEq, digits_nil_iff]
    exact ⟨fun h => ⟨h.symm, h ▸ Nat.zero_le _⟩, fun h => h.1.symm⟩
  | append_singleton cs c ih =>
    rw [readDigits_concat, digits_concat_iff]
    constructor
    · intro h
      cases hcs : readDigits base limit overflow 0 cs with
      | error e =>
        rw [hcs] at h
        cases h
      | ok m =>
        rw [hcs] at h
        obtain ⟨d, hd, heq, hle⟩ := (readDigits_single hbase).1 h
        exact ⟨⟨m, d, (ih.1 hcs).1, hd, heq⟩, hle⟩
    · rintro ⟨⟨m, d, hm, hd, rfl⟩, hle⟩
      have hmle : m ≤ m * base := Nat.le_mul_of_pos_right m hpos
      rw [ih.2 ⟨hm, by omega⟩]
      exact (readDigits_single hbase).2 ⟨d, hd, rfl, hle⟩

/-! ## Numerals -/

inductive Numeral (base : Nat) : List Char → Nat → Prop
  | plain {cs : List Char} {n : Nat} (nonempty : cs ≠ []) (digits : Digits base cs n) :
    Numeral base cs n
  | plus {cs : List Char} {n : Nat} (nonempty : cs ≠ []) (digits : Digits base cs n) :
    Numeral base ('+' :: cs) n

/-- A numeral of an integer that the type holds, where a type without negative numbers has no minus
sign. -/
inductive IntegerRange.Numeral (range : IntegerRange) (base : Nat) : List Char → Int → Prop
  | natural {cs : List Char} {n : Nat} (numeral : Text.Numeral base cs n)
    (fits : n ≤ range.above) : Numeral range base cs n
  | minus {cs : List Char} {n : Nat} (negative : 0 < range.below) (nonempty : cs ≠ [])
    (digits : Digits base cs n) (fits : n ≤ range.below) : Numeral range base ('-' :: cs) (-n)

theorem Numeral.mem (h : Numeral base cs n) (hc : c ∈ cs) : c = '+' ∨ ∃ d, IsDigit base c d := by
  cases h with
  | plain _ digits => exact .inr (digits.digit_of_mem hc)
  | plus _ digits =>
    rcases List.mem_cons.1 hc with hplus | hdigit
    · exact .inl hplus
    · exact .inr (digits.digit_of_mem hdigit)

theorem IsDigit.compact (hbase : base ≤ 16) (h : IsDigit base c d) :
    isBlank c = false ∧ c ≠ ',' := by
  obtain ⟨hlow, hhigh⟩ := h.bounds hbase
  constructor
  · unfold isBlank
    grind
  · rintro rfl
    exact absurd hlow (by decide)

theorem Digits.compact (hbase : base ≤ 16) (h : Digits base cs n) : Compact cs := by
  intro c hc
  obtain ⟨d, hd⟩ := h.digit_of_mem hc
  exact hd.compact hbase

theorem Numeral.compact (hbase : base ≤ 16) (h : Numeral base cs n) : Compact cs := by
  cases h with
  | plain _ digits => exact digits.compact hbase
  | plus _ digits => exact List.forall_mem_cons.2 ⟨by decide, digits.compact hbase⟩

theorem IntegerRange.Numeral.compact {range : IntegerRange} {z : Int} (hbase : base ≤ 16)
    (h : range.Numeral base cs z) : Compact cs := by
  cases h with
  | natural numeral _ => exact numeral.compact hbase
  | minus _ _ digits _ => exact List.forall_mem_cons.2 ⟨by decide, digits.compact hbase⟩

theorem Numeral.ne_nil (h : Numeral base cs n) : cs ≠ [] := by
  cases h with
  | plain nonempty _ => exact nonempty
  | plus _ _ => exact List.cons_ne_nil _ _

theorem IntegerRange.Numeral.ne_nil {range : IntegerRange} {z : Int}
    (h : range.Numeral base cs z) : cs ≠ [] := by
  cases h with
  | natural numeral _ => exact numeral.ne_nil
  | minus _ _ _ _ => exact List.cons_ne_nil _ _

theorem Numeral.zeros_append (hpos : 0 < base) (hsome : cs ≠ []) (h : Digits base cs n)
    (zeros : Nat) : Numeral base (List.replicate zeros '0' ++ cs) n :=
  .plain (List.append_ne_nil_of_right_ne_nil _ hsome) (h.zeros_append hpos zeros)

theorem numeral_toDigits (hone : 1 < base) (hbase : base ≤ 16) (n : Nat) :
    Numeral base (Nat.toDigits base n) n :=
  .plain Nat.toDigits_ne_nil (digits_toDigits hone hbase n)

theorem numeral_decimalInt {range : IntegerRange} {z : Int} (hlow : -(range.below : Int) ≤ z)
    (hhigh : z ≤ range.above) : range.Numeral 10 (decimalInt z).toList z := by
  unfold decimalInt
  split
  · rename_i hneg
    obtain ⟨n, rfl⟩ := Int.exists_eq_neg_ofNat (Int.le_of_lt hneg)
    rw [String.toList_ofList, Int.natAbs_neg, Int.natAbs_natCast]
    exact .minus (by omega) Nat.toDigits_ne_nil (digits_toDigits (by decide) (by decide) n)
      (by omega)
  · rename_i hpos
    obtain ⟨n, rfl⟩ := Int.eq_ofNat_of_zero_le (Int.not_lt.1 hpos)
    rw [Int.toNat_natCast, decimal, String.toList_ofList]
    exact .natural (numeral_toDigits (by decide) (by decide) n) (by omega)

/-! ## Reading numerals -/

theorem map_eq_ok_iff {ε α β : Type} {x : Except ε α} {f : α → β} {b : β} :
    x.map f = .ok b ↔ ∃ a, x = .ok a ∧ f a = b := by
  cases x with
  | error e => simp [Except.map]
  | ok a => simp [Except.map]

theorem readInteger_digits {range : IntegerRange} (hbase : base ≤ 16) (hsome : cs ≠ [])
    (h : Digits base cs n) :
    readInteger range base cs = (readDigits base range.above .tooLarge 0 cs).map Int.ofNat := by
  have hsign : ∀ c ∈ cs, c ≠ '+' ∧ c ≠ '-' := by
    intro c hc
    obtain ⟨d, hd⟩ := h.digit_of_mem hc
    obtain ⟨hlow, -⟩ := hd.bounds hbase
    constructor
    · rintro rfl
      exact absurd hlow (by decide)
    · rintro rfl
      exact absurd hlow (by decide)
  unfold readInteger
  split
  · exact absurd rfl hsome
  · simp at hsign
  · simp at hsign
  · simp at hsign
  · simp at hsign
  · rfl

theorem readInteger_eq_ok_iff {range : IntegerRange} {z : Int} (hpos : 0 < base)
    (hbase : base ≤ 16) : readInteger range base cs = .ok z ↔ range.Numeral base cs z := by
  have hread {limit : Nat} {overflow : NumeralError} {digits : List Char} {n : Nat} :
      readDigits base limit overflow 0 digits = .ok n ↔ Digits base digits n ∧ n ≤ limit :=
    readDigits_eq_ok_iff hpos hbase
  constructor
  · intro h
    unfold readInteger at h
    split at h
    · cases h
    · cases h
    · cases h
    · rename_i digits hsome
      obtain ⟨n, hn, rfl⟩ := map_eq_ok_iff.1 h
      exact .natural (.plus hsome (hread.1 hn).1) (hread.1 hn).2
    · rename_i digits hsome
      split at h
      · cases h
      · rename_i hbelow
        obtain ⟨n, hn, rfl⟩ := map_eq_ok_iff.1 h
        exact .minus (Nat.pos_of_ne_zero hbelow) hsome (hread.1 hn).1 (hread.1 hn).2
    · rename_i hsome _ _ _ _
      obtain ⟨n, hn, rfl⟩ := map_eq_ok_iff.1 h
      exact .natural (.plain hsome (hread.1 hn).1) (hread.1 hn).2
  · intro h
    cases h with
    | natural numeral fits =>
      cases numeral with
      | plain hsome digits =>
        rw [readInteger_digits hbase hsome digits, hread.2 ⟨digits, fits⟩]
        rfl
      | plus hsome digits =>
        rw [readInteger, hread.2 ⟨digits, fits⟩]
        · rfl
        · exact hsome
    | minus negative hsome digits fits =>
      rw [readInteger, if_neg (Nat.ne_of_gt negative), hread.2 ⟨digits, fits⟩]
      · rfl
      · exact hsome

theorem readNatural_eq_ok_iff {bits : Nat} (hpos : 0 < base) (hbase : base ≤ 16) :
    readNatural bits base cs = .ok n ↔ Numeral base cs n ∧ n < Nat.pow 2 bits := by
  have hpow : 0 < Nat.pow 2 bits := Nat.two_pow_pos bits
  unfold readNatural
  rw [map_eq_ok_iff]
  simp only [readInteger_eq_ok_iff hpos hbase]
  constructor
  · rintro ⟨z, hz, rfl⟩
    cases hz with
    | natural numeral fits => exact ⟨numeral, Nat.lt_of_le_sub_one hpow fits⟩
    | minus negative _ _ _ => exact absurd negative (Nat.lt_irrefl 0)
  · rintro ⟨hn, hlt⟩
    exact ⟨n, .natural hn (Nat.le_sub_one_of_lt hlt), rfl⟩

end Containment.Text
