import Containment.Ident
import Containment.Proofs.Numerals

/-!
# Texts of identifiers

A text names a file exactly if, without the blanks around it, it spells the file's number in one of
the two bases (`FileId.Spells`, `FileId.read_eq_ok_iff`). So what is written for a file is read as
that file, except for the one that names nothing, and no two files are written alike
(`identifier_text_unambiguous`).
-/

namespace Containment

open Text

variable {cs : List Char} {n : Nat} {x : Char}

/-! ## Numbers of files -/

namespace FileId

inductive Spells : List Char → Nat → Prop
  | decimal {cs : List Char} {n : Nat} (numeral : Numeral 10 cs n) : Spells cs n
  | hexadecimal {x : Char} {cs : List Char} {n : Nat} (marker : x = 'x' ∨ x = 'X')
    (numeral : Numeral 16 cs n) : Spells ('0' :: x :: cs) n

theorem spells_marked_iff (hx : x = 'x' ∨ x = 'X') :
    Spells ('0' :: x :: cs) n ↔ Numeral 16 cs n := by
  refine ⟨fun h => ?_, .hexadecimal hx⟩
  cases h with
  | hexadecimal _ numeral => exact numeral
  | decimal numeral =>
    -- no decimal digit is a marker
    have hlower : x.toLower = 'x' := by rcases hx with rfl | rfl <;> rfl
    have hdigit : ∀ d < 10, 'x' ≠ Nat.digitChar d := by decide
    rcases numeral.mem (List.mem_cons_of_mem _ List.mem_cons_self) with rfl | ⟨d, hd, heq⟩
    · exact absurd hlower (by decide)
    · exact absurd (hlower.symm.trans heq) (hdigit d hd)

theorem Spells.compact (h : Spells cs n) : Compact cs := by
  cases h with
  | decimal numeral => exact numeral.compact (by decide)
  | hexadecimal marker numeral =>
    refine List.forall_mem_cons.2 ⟨by decide, List.forall_mem_cons.2 ⟨?_, ?_⟩⟩
    · rcases marker with rfl | rfl <;> decide
    · exact numeral.compact (by decide)

theorem Spells.ne_nil (h : Spells cs n) : cs ≠ [] := by
  cases h with
  | decimal numeral => exact numeral.ne_nil
  | hexadecimal _ _ => exact List.cons_ne_nil _ _

theorem readTrimmed_eq_ok_iff : readTrimmed cs = .ok n ↔ Spells cs n ∧ n < UInt64.size := by
  have hread {base : Nat} {digits : List Char} (hpos : 0 < base) (hbase : base ≤ 16) :
      readNatural 64 base digits = .ok n ↔ Numeral base digits n ∧ n < UInt64.size :=
    readNatural_eq_ok_iff hpos hbase
  unfold readTrimmed
  split
  · rw [hread (by decide) (by decide), spells_marked_iff (.inl rfl)]
  · rw [hread (by decide) (by decide), spells_marked_iff (.inr rfl)]
  · rename_i hsmall hcapital
    rw [hread (by decide) (by decide)]
    refine and_congr_left fun _ => ⟨.decimal, fun h => ?_⟩
    cases h with
    | decimal numeral => exact numeral
    | hexadecimal marker _ =>
      rcases marker with rfl | rfl
      · exact absurd rfl (hsmall _)
      · exact absurd rfl (hcapital _)

theorem read_eq_ok_iff {file : FileId} :
    read cs = .ok file ↔ Spells (trim cs) file.raw.toNat := by
  rw [read, map_eq_ok_iff]
  simp only [readTrimmed_eq_ok_iff]
  constructor
  · rintro ⟨n, ⟨hn, hlt⟩, rfl⟩
    rwa [UInt64.toNat_ofNat_of_lt' hlt]
  · intro h
    refine ⟨_, ⟨h, file.raw.toNat_lt⟩, ?_⟩
    rw [UInt64.ofNat_toNat]

theorem read_of_padded {file : FileId} {core : List Char} (h : Spells core file.raw.toNat)
    (hcs : Padded core cs) : read cs = .ok file := by
  rw [read_eq_ok_iff, hcs.trim_eq_core h.compact.noBlank]
  exact h

/-! ## What is written for a file -/

theorem spells_text {file : FileId} (h : file.isValid = true) :
    Spells file.text.toList file.raw.toNat := by
  rw [text, if_pos h, hexadecimal, String.toList_ofList]
  exact .hexadecimal (.inl rfl) (numeral_toDigits (by decide) (by decide) _)

theorem read_text (file : FileId) :
    read file.text.toList = if file.isValid then .ok file else .error .invalidDigit := by
  split
  · rename_i h
    exact read_of_padded (spells_text h) (padded_self _)
  · rename_i h
    rw [text, if_neg h]
    rfl

theorem text_injective : Function.Injective text := by
  intro a b h
  have hread := read_text a
  rw [h, read_text b] at hread
  split at hread
  · split at hread
    · exact (Except.ok.inj hread).symm
    · cases hread
  · rename_i hb
    split at hread
    · cases hread
    · rename_i ha
      exact (not_not.1 (isValid_iff.not.1 ha)).trans (not_not.1 (isValid_iff.not.1 hb)).symm

end FileId

/-! ## Processes -/

theorem Pid.read_eq_ok_iff {pid : Pid} :
    Pid.read cs = .ok pid ↔ Numeral 10 (trim cs) pid.raw.toNat := by
  rw [Pid.read, map_eq_ok_iff]
  simp only [readNatural_eq_ok_iff (show 0 < 10 by decide) (show 10 ≤ 16 by decide)]
  constructor
  · rintro ⟨n, ⟨hn, hlt⟩, rfl⟩
    rwa [UInt32.toNat_ofNat_of_lt' hlt]
  · intro h
    refine ⟨_, ⟨h, pid.raw.toNat_lt⟩, ?_⟩
    rw [UInt32.ofNat_toNat]

theorem Pid.read_of_padded {pid : Pid} {core : List Char} (h : Numeral 10 core pid.raw.toNat)
    (hcs : Padded core cs) : Pid.read cs = .ok pid := by
  rw [Pid.read_eq_ok_iff, hcs.trim_eq_core (h.compact (by decide)).noBlank]
  exact h

theorem Pid.numeral_text (pid : Pid) : Numeral 10 pid.text.toList pid.raw.toNat := by
  rw [Pid.text, decimal, String.toList_ofList]
  exact numeral_toDigits (by decide) (by decide) _

/-! ## Both kinds -/

/-- In both bases every numeral of a word is read, with `digits` of either case after a marker, and
nothing else is. What is written for an identifier is read as that identifier. -/
theorem identifier_text_unambiguous :
    (∀ (value : UInt64) (zeros : Nat) (cs : List Char),
      Padded (List.replicate zeros '0' ++ Nat.toDigits 10 value.toNat) cs →
        FileId.read cs = .ok ⟨value⟩) ∧
    (∀ (value : UInt64) (zeros : Nat) (x : Char) (digits cs : List Char), x = 'x' ∨ x = 'X' →
      digits.map Char.toLower = Nat.toDigits 16 value.toNat →
      Padded ('0' :: x :: (List.replicate zeros '0' ++ digits)) cs →
        FileId.read cs = .ok ⟨value⟩) ∧
    (∀ file : FileId, file.isValid = true → FileId.read file.text.toList = .ok file) ∧
    (∃ error, FileId.read FileId.invalid.text.toList = .error error) ∧
    Function.Injective FileId.text ∧
    (∀ (cs : List Char) (file : FileId), FileId.read cs = .ok file ↔
      ∃ n, FileId.Spells (trim cs) n ∧ n < UInt64.size ∧ file.raw.toNat = n) ∧
    ∀ (pid : Pid) (cs : List Char), Padded pid.text.toList cs → Pid.read cs = .ok pid := by
  refine ⟨fun value zeros cs hcs => ?_, fun value zeros x digits cs hx hdigits hcs => ?_,
    fun file hvalid => ?_, ⟨.invalidDigit, FileId.read_text _⟩, FileId.text_injective,
    fun cs file => ?_, fun pid cs hcs => Pid.read_of_padded pid.numeral_text hcs⟩
  · have hnumeral : Digits 10 (Nat.toDigits 10 value.toNat) value.toNat :=
      digits_toDigits (by decide) (by decide) _
    exact FileId.read_of_padded
      (.decimal (.zeros_append (by decide) Nat.toDigits_ne_nil hnumeral zeros)) hcs
  · have hnumeral : Digits 16 digits value.toNat := by
      rw [← digits_map_toLower, hdigits]
      exact digits_toDigits (by decide) (by decide) _
    have hsome : digits ≠ [] := by
      rintro rfl
      exact Nat.toDigits_ne_nil hdigits.symm
    exact FileId.read_of_padded
      (.hexadecimal hx (.zeros_append (by decide) hsome hnumeral zeros)) hcs
  · rw [FileId.read_text, if_pos hvalid]
  · rw [FileId.read_eq_ok_iff]
    constructor
    · exact fun h => ⟨_, h, file.raw.toNat_lt, rfl⟩
    · rintro ⟨n, h, -, rfl⟩
      exact h

/-- Zeros, capital letters and a capital marker, with blanks around them, and the other texts of
that file. -/
theorem identifier_text_unambiguous_capital :
    FileId.read "\t0X00FF ".toList = .ok ⟨255⟩ ∧ FileId.read " 0255".toList = .ok ⟨255⟩ ∧
      FileId.read (FileId.text ⟨255⟩).toList = .ok ⟨255⟩ ∧
      Pid.read " 255\n".toList = .ok ⟨255⟩ := by
  obtain ⟨hdecimal, hmarked, htext, -, -, -, hpid⟩ := identifier_text_unambiguous
  refine ⟨hmarked 255 2 'X' ['F', 'F'] _ (.inr rfl) (by decide) ?_, hdecimal 255 1 _ ?_,
    htext _ (by decide), hpid _ _ ?_⟩
  · exact ⟨['\t'], [' '], by decide, by decide, rfl⟩
  · exact ⟨[' '], [], by decide, by decide, rfl⟩
  · exact ⟨[' '], ['\n'], by decide, by decide, rfl⟩

/-- A sign stands after the marker and not before it. -/
example : FileId.read "0x+ff".toList = .ok ⟨255⟩ ∧
    FileId.read "+0xff".toList = .error .invalidDigit := by decide

end Containment
