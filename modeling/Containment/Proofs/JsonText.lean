import Mathlib.Tactic.SplitIfs
import Containment.Json.Reader

/-!
# The text of a tree

What the text of a tree is read as. A tree can be told from its text if nothing in it is broken, cut
short or without text and all its numbers are kept as integers. Its compact text is then read back
as this tree (`Document.read_compact`). A part of the tree is read with the rest of the text behind
it, so the lemmas speak of any rest. Only behind a number not everything may follow.
-/

namespace Containment.Json

variable {rest : List Char}

/-! ## Strings -/

theorem readPieces?_short {e c : Char} (h : escaped? e = some c) (cs : List Char) :
    readPieces? ('\\' :: e :: cs) =
      (readPieces? cs).map fun (pieces, rest) => (.char c :: pieces, rest) := by
  rw [readPieces?]
  · rw [h]
    cases readPieces? cs <;> rfl
  · rintro _ _ _ _ _ rfl
    simp [escaped?] at h

theorem readPieces?_plain {c : Char} (hquote : c ≠ '"') (hslash : c ≠ '\\')
    (hcontrol : ¬ c.toNat < 0x20) (cs : List Char) :
    readPieces? (c :: cs) =
      (readPieces? cs).map fun (pieces, rest) => (.char c :: pieces, rest) := by
  rw [readPieces?, if_neg hcontrol]
  · cases readPieces? cs <;> rfl
  · exact hquote
  · exact fun _ _ _ _ _ h => absurd h hslash
  · exact fun _ _ h => absurd h hslash

theorem hexUnit?_control {n : Nat} (h : n < 0x20) :
    hexUnit? '0' '0' (Nat.digitChar (n / 16)) (Nat.digitChar (n % 16)) = some n := by
  revert n
  decide

theorem readPieces?_control {n : Nat} (h : n < 0x20) (cs : List Char) :
    readPieces? (['\\', 'u', '0', '0', Nat.digitChar (n / 16), Nat.digitChar (n % 16)] ++ cs) =
      (readPieces? cs).map fun (pieces, rest) => (.unit n :: pieces, rest) := by
  simp only [List.cons_append, List.nil_append]
  rw [readPieces?, hexUnit?_control h]
  cases readPieces? cs <;> rfl

theorem joinPieces?_control {c : Char} (h : c.toNat < 0x20) (pieces : List Piece) :
    joinPieces? (.unit c.toNat :: pieces) = (joinPieces? pieces).map (c :: ·) := by
  have hhigh : isHighSurrogate c.toNat = false := by simp [isHighSurrogate]; omega
  have hlow : isLowSurrogate c.toNat = false := by simp [isLowSurrogate]; omega
  rw [joinPieces?.eq_def]
  simp only [hhigh, hlow, Char.ofNat_toNat, Bool.false_eq_true, ↓reduceIte]

theorem readPieces?_escape (c : Char) :
    ∃ piece, (∀ cs, readPieces? (escape c ++ cs) =
        (readPieces? cs).map fun (pieces, rest) => (piece :: pieces, rest)) ∧
      ∀ pieces, joinPieces? (piece :: pieces) = (joinPieces? pieces).map (c :: ·) := by
  unfold escape
  split_ifs with hquote hslash hb hf hn hr ht hcontrol
  · subst hquote
    exact ⟨.char '"', readPieces?_short rfl, fun _ => rfl⟩
  · subst hslash
    exact ⟨.char '\\', readPieces?_short rfl, fun _ => rfl⟩
  · subst hb
    exact ⟨.char '\x08', readPieces?_short rfl, fun _ => rfl⟩
  · subst hf
    exact ⟨.char '\x0c', readPieces?_short rfl, fun _ => rfl⟩
  · subst hn
    exact ⟨.char '\n', readPieces?_short rfl, fun _ => rfl⟩
  · subst hr
    exact ⟨.char '\r', readPieces?_short rfl, fun _ => rfl⟩
  · subst ht
    exact ⟨.char '\t', readPieces?_short rfl, fun _ => rfl⟩
  · exact ⟨.unit c.toNat, readPieces?_control hcontrol, joinPieces?_control hcontrol⟩
  · exact ⟨.char c, readPieces?_plain hquote hslash hcontrol, fun _ => rfl⟩

theorem readText?_escaped (s : String) (rest : List Char) :
    readText? (s.toList.flatMap escape ++ '"' :: rest) = some (some s, rest) := by
  have hpieces (cs : List Char) : ∃ pieces,
      readPieces? (cs.flatMap escape ++ '"' :: rest) = some (pieces, rest) ∧
        joinPieces? pieces = some cs := by
    induction cs with
    | nil => exact ⟨[], rfl, rfl⟩
    | cons c cs ih =>
      obtain ⟨pieces, hread, hjoin⟩ := ih
      obtain ⟨piece, hpiece, hchar⟩ := readPieces?_escape c
      refine ⟨piece :: pieces, ?_, ?_⟩
      · rw [List.flatMap_cons, List.append_assoc, hpiece, hread, Option.map_some]
      · rw [hchar, hjoin, Option.map_some]
  obtain ⟨pieces, hread, hjoin⟩ := hpieces s.toList
  simp [readText?, hread, hjoin]

theorem readKey?_quoted (key : String) (rest : List Char) :
    readKey? (quoted key ++ ':' :: rest) = some (some key, some rest) := by
  have htext := readText?_escaped key (':' :: rest)
  rw [quoted, List.cons_append, List.append_assoc, List.singleton_append, readKey?, htext]
  rfl

theorem skipBlanks_quoted (s : String) (rest : List Char) :
    skipBlanks (quoted s ++ rest) = quoted s ++ rest := rfl

/-! ## Numbers -/

def Number.IsExact : Number → Prop
  | .natural n => n < UInt64.size
  | .negative n => n < UInt64.size / 2
  | .real _ => False

/-- What may follow a value without being taken for a part of it. -/
def Follows : List Char → Prop
  | [] => True
  | c :: _ => c = ',' ∨ c = ']' ∨ c = '}'

theorem Follows.ends (h : Follows rest) :
    rest.takeWhile isDigit = [] ∧ rest.dropWhile isDigit = rest ∧
      readFraction? rest = some (none, rest) ∧ readExponent? rest = some (none, rest) := by
  cases rest with
  | nil => exact ⟨rfl, rfl, rfl, rfl⟩
  | cons c cs => obtain rfl | rfl | rfl := h <;> exact ⟨rfl, rfl, rfl, rfl⟩

theorem isDigit_eq (c : Char) : isDigit c = c.isDigit := by
  simp [isDigit, Char.isDigit, UInt32.le_iff_toNat_le]

theorem isDigit_toDigits {n : Nat} {c : Char} (h : c ∈ Nat.toDigits 10 n) : isDigit c = true := by
  rw [isDigit_eq]
  exact Nat.isDigit_of_mem_toDigits (by omega) (by omega) h

theorem naturalOf_toDigits (n : Nat) : naturalOf (Nat.toDigits 10 n) = n := by
  have h : Nat.ofDigitChars 10 (Nat.toDigits 10 n) 0 = n := Nat.ofDigitChars_ten_toDigits
  simp only [Nat.ofDigitChars_eq_foldl, Nat.mul_comm 10] at h
  exact h

theorem head?_toDigits {n : Nat} (h : 0 < n) : (Nat.toDigits 10 n).head? ≠ some '0' := by
  induction n using Nat.base_induction 10 (by omega) with
  | single d hd =>
    rw [Nat.toDigits_of_lt_base hd]
    simp
    omega
  | digit m d hd hm ih =>
    rw [← Nat.toDigits_append_toDigits (by omega) hm hd]
    obtain ⟨c, cs, hcs⟩ := List.exists_cons_of_ne_nil (Nat.toDigits_ne_nil (n := m) (b := 10))
    simpa [hcs] using ih hm

theorem readWhole?_toDigits (n : Nat) (h : Follows rest) :
    readWhole? (Nat.toDigits 10 n ++ rest) = some (Nat.toDigits 10 n, rest) := by
  have hdigits : readDigits? (Nat.toDigits 10 n ++ rest) = some (Nat.toDigits 10 n, rest) := by
    have hall : ∀ c ∈ Nat.toDigits 10 n, isDigit c = true := fun c => isDigit_toDigits
    obtain ⟨htake, hdrop, -⟩ := h.ends
    rw [readDigits?, List.takeWhile_append_of_pos hall, List.dropWhile_append_of_pos hall, htake,
      hdrop]
    simp
  rw [readWhole?, hdigits]
  cases Nat.eq_zero_or_pos n with
  | inl hzero =>
    subst hzero
    rfl
  | inr hpos => simp [head?_toDigits hpos]

theorem readUnsigned?_toDigits (isNegative : Bool) (n : Nat) (h : Follows rest) :
    readUnsigned? isNegative (Nat.toDigits 10 n ++ rest) =
      some (Literal.value { isNegative, whole := Nat.toDigits 10 n }, rest) := by
  obtain ⟨-, -, hfraction, hexponent⟩ := h.ends
  simp [readUnsigned?, readWhole?_toDigits n h, hfraction, hexponent]

theorem toDigits_eq_cons (n : Nat) : ∃ c cs, Nat.toDigits 10 n = c :: cs ∧ isDigit c = true := by
  obtain ⟨c, cs, hcs⟩ := List.exists_cons_of_ne_nil (Nat.toDigits_ne_nil (n := n) (b := 10))
  exact ⟨c, cs, hcs, isDigit_toDigits (hcs ▸ List.mem_cons_self)⟩

theorem Number.text_eq_cons {number : Number} (hn : number.IsExact) :
    ∃ c cs, number.text = c :: cs ∧ 0x2D ≤ c.toNat ∧ c.toNat ≤ 0x39 := by
  cases number with
  | natural n =>
    obtain ⟨c, cs, hcs, hc⟩ := toDigits_eq_cons n
    simp only [isDigit, Bool.and_eq_true, decide_eq_true_eq] at hc
    exact ⟨c, cs, hcs, by omega, hc.2⟩
  | negative n => exact ⟨'-', _, rfl, by decide, by decide⟩
  | real finite => cases hn

theorem readNumber?_text {number : Number} (hn : number.IsExact) (h : Follows rest) :
    readNumber? (number.text ++ rest) = some (number, rest) := by
  cases number with
  | natural n =>
    have hn : n < UInt64.size := hn
    rw [Number.text, readNumber?, readUnsigned?_toDigits false n h]
    · simp [Literal.value, naturalOf_toDigits, hn]
    · intro cs heq
      obtain ⟨c, ds, hds, hc⟩ := toDigits_eq_cons n
      rw [hds, List.cons_append] at heq
      cases heq
      cases hc
  | negative n =>
    have hn : n + 1 ≤ UInt64.size / 2 := hn
    rw [Number.text, List.cons_append, readNumber?, readUnsigned?_toDigits true (n + 1) h]
    simp [Literal.value, naturalOf_toDigits, hn]
  | real finite => cases hn

/-! ## Trees -/

mutual
/-- Whether a tree can be told from its text. -/
def Tree.IsExact : Tree → Prop
  | .broken => False
  | .null | .bool _ => True
  | .number n => n.IsExact
  | .text value => value.isSome
  | .array items => items.IsExact
  | .object fields => fields.IsExact
def Items.IsExact : Items → Prop
  | .close => True
  | .cut => False
  | .item v rest => v.IsExact ∧ rest.IsExact
def Fields.IsExact : Fields → Prop
  | .close => True
  | .cut => False
  | .field key v rest => key.isSome ∧ v.IsExact ∧ rest.IsExact
end

theorem skipBlanks_cons {c : Char} {cs : List Char} (h : isBlank c = false) :
    skipBlanks (c :: cs) = c :: cs := by
  simp [skipBlanks, h]

theorem isBlank_eq_false {c : Char} (h : 0x20 < c.toNat) : isBlank c = false := by
  simp only [isBlank, Bool.or_eq_false_iff, decide_eq_false_iff_not]
  refine ⟨⟨⟨?_, ?_⟩, ?_⟩, ?_⟩ <;> rintro rfl <;> exact absurd h (by decide)

theorem Tree.print_eq_cons {t : Tree} (h : t.IsExact) :
    ∃ c cs, t.print = c :: cs ∧ isBlank c = false ∧ c ≠ ']' := by
  cases t with
  | broken => cases h
  | null => exact ⟨_, _, rfl, rfl, by decide⟩
  | bool value => cases value <;> exact ⟨_, _, rfl, rfl, by decide⟩
  | number n =>
    obtain ⟨c, cs, hcs, hlow, hhigh⟩ := Number.text_eq_cons h
    refine ⟨c, cs, hcs, isBlank_eq_false (by omega), ?_⟩
    rintro rfl
    exact absurd hhigh (by decide)
  | text value => exact ⟨_, _, rfl, rfl, by decide⟩
  | array items => exact ⟨_, _, rfl, rfl, by decide⟩
  | object fields => exact ⟨_, _, rfl, rfl, by decide⟩

theorem readTree_number {number : Number} (hn : number.IsExact) (h : Follows rest) (fuel : Nat) :
    readTree (fuel + 1) (number.text ++ rest) = (.number number, some rest) := by
  have hread := readNumber?_text hn h
  obtain ⟨c, cs, hcs, hlow, hhigh⟩ := Number.text_eq_cons hn
  have hne (d : Char) (hd : d.toNat < 0x2D ∨ 0x39 < d.toNat) : c ≠ d := by
    rintro rfl
    omega
  rw [hcs, List.cons_append] at hread ⊢
  have hblank : isBlank c = false := isBlank_eq_false (by omega)
  simp [readTree, skipBlanks_cons hblank, readScalar, hread, hne '[' (by decide),
    hne '{' (by decide), hne 'n' (by decide), hne 't' (by decide), hne 'f' (by decide),
    hne '"' (by decide)]

theorem readTree_text (s : String) (rest : List Char) (fuel : Nat) :
    readTree (fuel + 1) (quoted s ++ rest) = (.string s, some rest) := by
  have htext := readText?_escaped s rest
  rw [quoted, List.cons_append, List.append_assoc, List.singleton_append]
  simp [readTree, skipBlanks, isBlank, readScalar, htext]
  rfl

theorem Items.eq_close {items : Items} (h : items.isClose = true) : items = .close := by
  cases items with
  | close => rfl
  | _ => cases h

theorem Items.print_last (v : Tree) : (Items.item v .close).print = v.print ++ [']'] := by
  simp [Items.print, Items.isClose, separator]

theorem Items.print_item (v : Tree) {items : Items} (h : items.isClose = false) :
    (Items.item v items).print = v.print ++ ',' :: items.print := by
  simp [Items.print, h, separator]

theorem Items.print_eq_cons {items : Items} (h : items.IsExact) (hclose : items.isClose = false) :
    ∃ c cs, items.print = c :: cs ∧ isBlank c = false ∧ c ≠ ']' := by
  cases items with
  | close => cases hclose
  | cut => cases h
  | item v items =>
    obtain ⟨c, cs, hcs, hc⟩ := Tree.print_eq_cons h.1
    exact ⟨c, _, by rw [Items.print, hcs]; rfl, hc⟩

theorem Fields.eq_close {fields : Fields} (h : fields.isClose = true) : fields = .close := by
  cases fields with
  | close => rfl
  | _ => cases h

theorem Fields.print_last (key : String) (v : Tree) :
    (Fields.field (some key) v .close).print = quoted key ++ ':' :: (v.print ++ ['}']) := by
  simp [Fields.print, Fields.isClose, separator]

theorem Fields.print_field (key : String) (v : Tree) {fields : Fields}
    (h : fields.isClose = false) : (Fields.field (some key) v fields).print =
      quoted key ++ ':' :: (v.print ++ ',' :: fields.print) := by
  simp [Fields.print, h, separator]

theorem readTree_array {items : Items} {fuel : Nat} (h : items.IsExact)
    (hread : items.isClose = false → readItems fuel (items.print ++ rest) = (items, some rest)) :
    readTree (fuel + 1) ((Tree.array items).print ++ rest) = (.array items, some rest) := by
  cases hclose : items.isClose with
  | true =>
    rw [Items.eq_close hclose]
    rfl
  | false =>
    have hread := hread hclose
    obtain ⟨c, cs, hcs, hblank, hend⟩ := Items.print_eq_cons h hclose
    have hopen : isBlank '[' = false := rfl
    rw [hcs, List.cons_append] at hread
    simp [readTree, Tree.print, hcs, skipBlanks_cons hopen, skipBlanks_cons hblank, hend, hread]

theorem readTree_object {fields : Fields} {fuel : Nat} (h : fields.IsExact)
    (hread : fields.isClose = false →
      readFields fuel (fields.print ++ rest) = (fields, some rest)) :
    readTree (fuel + 1) ((Tree.object fields).print ++ rest) = (.object fields, some rest) := by
  cases fields with
  | close => rfl
  | cut => cases h
  | field key v fields =>
    obtain ⟨cs, hcs⟩ : ∃ cs, (Fields.field key v fields).print = '"' :: cs := ⟨_, rfl⟩
    have hread := hread rfl
    have hopen : isBlank '{' = false := rfl
    have hquote : isBlank '"' = false := rfl
    rw [hcs, List.cons_append] at hread
    simp [readTree, Tree.print, hcs, skipBlanks_cons hopen, skipBlanks_cons hquote, hread]

-- An item and its value take one unit of fuel each, and there are no items without a character.
mutual
theorem readTree_print : ∀ (t : Tree) (fuel : Nat) (rest : List Char), t.IsExact → Follows rest →
    2 * t.print.length ≤ fuel → readTree fuel (t.print ++ rest) = (t, some rest)
  | .null, fuel + 1, rest, _, _, _ => by rfl
  | .bool true, fuel + 1, rest, _, _, _ => by rfl
  | .bool false, fuel + 1, rest, _, _, _ => by rfl
  | .number n, fuel + 1, rest, hn, hrest, _ => readTree_number hn hrest fuel
  | .text (some s), fuel + 1, rest, _, _, _ => readTree_text s rest fuel
  | .array items, fuel + 1, rest, h, _, hfuel =>
    readTree_array h fun hclose => readItems_print items fuel rest h hclose (by
      simp only [Tree.print, List.length_cons] at hfuel
      omega)
  | .object fields, fuel + 1, rest, h, _, hfuel =>
    readTree_object h fun hclose => readFields_print fields fuel rest h hclose (by
      simp only [Tree.print, List.length_cons] at hfuel
      omega)
  | t, 0, rest, h, _, hfuel => by
    obtain ⟨c, cs, hcs, -⟩ := Tree.print_eq_cons h
    simp [hcs] at hfuel
theorem readItems_print : ∀ (items : Items) (fuel : Nat) (rest : List Char), items.IsExact →
    items.isClose = false → 2 * items.print.length ≤ fuel →
    readItems fuel (items.print ++ rest) = (items, some rest)
  | .item v items, fuel + 1, rest, ⟨hv, hitems⟩, _, hfuel => by
    cases hclose : items.isClose with
    | true =>
      rw [Items.eq_close hclose] at hfuel ⊢
      rw [Items.print_last] at hfuel ⊢
      simp only [List.length_append, List.length_cons] at hfuel
      have hread := readTree_print v fuel (']' :: rest) hv (.inr (.inl rfl)) (by omega)
      simp [readItems, hread, skipBlanks, isBlank]
    | false =>
      rw [Items.print_item v hclose] at hfuel ⊢
      simp only [List.length_append, List.length_cons] at hfuel
      have hread := readTree_print v fuel (',' :: (items.print ++ rest)) hv (.inl rfl) (by omega)
      have hmore := readItems_print items fuel rest hitems hclose (by omega)
      simp [readItems, hread, hmore, skipBlanks, isBlank]
  | .item v items, 0, rest, h, hclose, hfuel => by
    obtain ⟨c, cs, hcs, -⟩ := Items.print_eq_cons h hclose
    simp [hcs] at hfuel
theorem readFields_print : ∀ (fields : Fields) (fuel : Nat) (rest : List Char), fields.IsExact →
    fields.isClose = false → 2 * fields.print.length ≤ fuel →
    readFields fuel (fields.print ++ rest) = (fields, some rest)
  | .field (some key) v fields, fuel + 1, rest, ⟨_, hv, hfields⟩, _, hfuel => by
    cases hclose : fields.isClose with
    | true =>
      rw [Fields.eq_close hclose] at hfuel ⊢
      rw [Fields.print_last] at hfuel ⊢
      simp only [List.length_append, List.length_cons] at hfuel
      have hkey := readKey?_quoted key (v.print ++ '}' :: rest)
      have hread := readTree_print v fuel ('}' :: rest) hv (.inr (.inr rfl)) (by omega)
      rw [List.append_assoc, List.cons_append, List.append_assoc, List.singleton_append, readFields,
        skipBlanks_quoted, hkey]
      simp [hread, skipBlanks, isBlank]
    | false =>
      rw [Fields.print_field key v hclose] at hfuel ⊢
      simp only [List.length_append, List.length_cons] at hfuel
      have hread := readTree_print v fuel (',' :: (fields.print ++ rest)) hv (.inl rfl) (by omega)
      have hmore := readFields_print fields fuel rest hfields hclose (by omega)
      have hkey := readKey?_quoted key (v.print ++ ',' :: (fields.print ++ rest))
      rw [List.append_assoc, List.cons_append, List.append_assoc, List.cons_append, readFields,
        skipBlanks_quoted, hkey]
      simp [hread, hmore, skipBlanks, isBlank]
  | .field key v fields, 0, rest, h, _, hfuel => by
    simp [Fields.print, quoted] at hfuel
end

theorem Document.read_compact {t : Tree} (h : t.IsExact) :
    Document.read t.compact = { tree := t, isComplete := true } := by
  have hread := readTree_print t (2 * t.print.length + 2) [] h trivial (by omega)
  rw [List.append_nil] at hread
  simp [Document.read, Tree.compact, hread, skipBlanks]

/-! ## Sound trees -/

mutual
theorem Tree.isWhole_of_exact : ∀ t : Tree, t.IsExact → t.isWhole = true
  | .null, _ => rfl
  | .bool _, _ => rfl
  | .number (.natural _), _ => rfl
  | .number (.negative _), _ => rfl
  | .text _, h => h
  | .array items, h => Items.isWhole_of_exact items h
  | .object fields, h => Fields.isWhole_of_exact fields h
theorem Items.isWhole_of_exact : ∀ items : Items, items.IsExact → items.isWhole = true
  | .close, _ => rfl
  | .item v rest, ⟨hv, hrest⟩ => by
    simp [Items.isWhole, Tree.isWhole_of_exact v hv, Items.isWhole_of_exact rest hrest]
theorem Fields.isWhole_of_exact : ∀ fields : Fields, fields.IsExact → fields.isWhole = true
  | .close, _ => rfl
  | .field key v rest, ⟨hkey, hv, hrest⟩ => by
    simp [Fields.isWhole, hkey, Tree.isWhole_of_exact v hv, Fields.isWhole_of_exact rest hrest]
end

theorem Tree.isExact_list {items : List Tree} :
    (Tree.list items).IsExact ↔ ∀ t ∈ items, t.IsExact := by
  rw [Tree.list, Tree.IsExact]
  induction items with
  | nil => simp [Items.ofList, Items.IsExact]
  | cons t ts ih => simp [Items.ofList, Items.IsExact, ih]

theorem Tree.isExact_record {fields : List (String × Tree)} :
    (Tree.record fields).IsExact ↔ ∀ field ∈ fields, field.2.IsExact := by
  rw [Tree.record, Tree.IsExact]
  induction fields with
  | nil => simp [Fields.ofList, Fields.IsExact]
  | cons field rest ih => simp [Fields.ofList, Fields.IsExact, ih]

theorem Items.depth_ofList {items : List Tree} {n : Nat} (h : ∀ t ∈ items, t.depth ≤ n) :
    (Items.ofList items).depth ≤ n := by
  induction items with
  | nil => exact Nat.zero_le n
  | cons t ts ih =>
    obtain ⟨ht, hts⟩ := List.forall_mem_cons.1 h
    exact Nat.max_le.2 ⟨ht, ih hts⟩

theorem Fields.depth_ofList {fields : List (String × Tree)} {n : Nat}
    (h : ∀ field ∈ fields, field.2.depth ≤ n) : (Fields.ofList fields).depth ≤ n := by
  induction fields with
  | nil => exact Nat.zero_le n
  | cons field rest ih =>
    obtain ⟨hfield, hrest⟩ := List.forall_mem_cons.1 h
    exact Nat.max_le.2 ⟨hfield, ih hrest⟩

end Containment.Json
