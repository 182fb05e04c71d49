import Containment.Daemon
import Containment.Proofs.Trimming

/-!
# Documents

A document is shown by many texts: there may be comments and blank lines between its lines, and a
line ends with a line break of either kind, or with the text. Where no character of a line means
anything to the reader, every such text is read as the document (`read_of_shows`).
-/

namespace Containment.Ini

open Text

variable {cs rest ending word : List Char} {c : Char} {document : Document} {line : Line}

/-! ## Files -/

def marks : List Char := ['\\', '=', ':', '[', ']', ';', '#', '"', '\'', byteOrderMark]

/-- The character stands for itself wherever it is. -/
def IsPlain (c : Char) : Prop := isBlank c = false ∧ c ∉ marks

instance (c : Char) : Decidable (IsPlain c) := inferInstanceAs (Decidable (_ ∧ _))

def IsWord (s : String) : Prop := s ≠ "" ∧ ∀ c ∈ s.toList, IsPlain c

instance (s : String) : Decidable (IsWord s) :=
  decidable_of_iff (s ≠ "" ∧ s.toList.all (fun c => decide (IsPlain c)) = true) (by
    simp only [IsWord, List.all_eq_true, decide_eq_true_eq])

def Line.IsPlain : Line → Prop
  | .heading name => IsWord name
  | .pair key value => IsWord key ∧ IsWord value

instance : (line : Line) → Decidable line.IsPlain
  | .heading name => inferInstanceAs (Decidable (IsWord name))
  | .pair key value => inferInstanceAs (Decidable (IsWord key ∧ IsWord value))

def IsEnding (ending rest : List Char) : Prop :=
  ending = ['\n'] ∨ ending = ['\r', '\n'] ∨ ending = [] ∧ rest = []

/-- The text shows a document line by line, with comments and blank lines anywhere. -/
inductive Shows : Document → List Char → Prop
  | nothing : Shows [] []
  | line {document : Document} {rest : List Char} (line : Line) (ending : List Char)
    (ends : IsEnding ending rest) (others : Shows document rest) :
    Shows (line :: document) (line.text.toList ++ (ending ++ rest))
  | comment {document : Document} {rest : List Char} (mark : Char) (words ending : List Char)
    (isMark : mark = ';' ∨ mark = '#') (oneLine : '\n' ∉ words) (ends : IsEnding ending rest)
    (others : Shows document rest) : Shows document (mark :: (words ++ (ending ++ rest)))
  | blank {document : Document} {rest : List Char} (blanks ending : List Char)
    (allBlank : AllBlank blanks) (ends : IsEnding ending rest) (others : Shows document rest) :
    Shows document (blanks ++ (ending ++ rest))

/-! ## Words -/

theorem isBlank_of_isAlphanum (h : c.isAlphanum = true) : isBlank c = false := by
  have hrange : 0x30 ≤ c.toNat ∧ c.toNat ≤ 0x7A := by
    change ((decide (0x41 ≤ c.val ∧ c.val ≤ 0x5A) ||
      (decide (0x61 ≤ c.val) && decide (c.val ≤ 0x7A))) ||
      (decide (0x30 ≤ c.val) && decide (c.val ≤ 0x39))) = true at h
    simp only [Bool.or_eq_true, Bool.and_eq_true, decide_eq_true_eq] at h
    rcases h with (⟨low, high⟩ | ⟨low, high⟩) | ⟨low, high⟩ <;>
      exact ⟨Nat.le_trans (by decide) low, Nat.le_trans high (by decide)⟩
  refine Bool.eq_false_iff.2 fun hblank => ?_
  simp only [isBlank, Bool.or_eq_true, Bool.and_eq_true, decide_eq_true_eq, beq_iff_eq] at hblank
  omega

theorem isPlain_of_isAlphanum (h : c.isAlphanum = true ∨ c ∈ ['_', '-', '.', '/']) :
    IsPlain c := by
  rcases h with h | h
  · have hmarks : marks.filter Char.isAlphanum = [] := by decide
    exact ⟨isBlank_of_isAlphanum h, fun hmark => List.filter_eq_nil_iff.1 hmarks c hmark h⟩
  · have hsigns : ['_', '-', '.', '/'].filter (fun c => !decide (IsPlain c)) = [] := by decide
    simpa using List.filter_eq_nil_iff.1 hsigns c h

theorem ne_mark_of_isPlain {mark : Char} (hc : IsPlain c) (hmark : mark ∈ marks) : c ≠ mark :=
  fun heq => hc.2 (heq ▸ hmark)

theorem IsWord.plain {s : String} (h : IsWord s) (hc : c ∈ s.toList) : IsPlain c := h.2 c hc

theorem IsWord.noBlank {s : String} (h : IsWord s) : NoBlank s.toList :=
  fun _ hc => (h.plain hc).1

theorem IsWord.ofList_trim {s : String} (h : IsWord s) : String.ofList (trim s.toList) = s := by
  rw [trim_eq_self h.noBlank, String.ofList_toList]

theorem IsWord.exists_cons {s : String} (h : IsWord s) :
    ∃ c cs, s.toList = c :: cs ∧ IsPlain c := by
  obtain ⟨c, cs, hcs⟩ := List.exists_cons_of_ne_nil (String.toList_eq_nil_iff.not.2 h.1)
  exact ⟨c, cs, hcs, h.plain (hcs ▸ List.mem_cons_self)⟩

/-! ## Reading up to a mark -/

section
variable {stops : Char → Bool} {endStops : Bool}

theorem readUntil_cons (hc : c ≠ '\\') :
    readUntil stops endStops (c :: cs) =
      if stops c then .ok ([], c :: cs)
      else do
        let (text, rest) ← readUntil stops endStops cs
        return (c :: text, rest) := by
  rw [readUntil]
  -- the equation of any other character asks that none of the four escapes is there
  · exact fun _ h => absurd h hc
  · exact fun _ _ _ _ _ h => absurd h hc
  · exact fun h _ => absurd h hc
  · exact fun _ _ h => absurd h hc

theorem readUntil_word (hword : ∀ c ∈ word, c ≠ '\\' ∧ stops c = false)
    (hrest : readUntil stops endStops rest = .ok ([], rest)) :
    readUntil stops endStops (word ++ rest) = .ok (word, rest) := by
  induction word with
  | nil => exact hrest
  | cons c cs ih =>
    obtain ⟨⟨hc, hstop⟩, hcs⟩ := List.forall_mem_cons.1 hword
    rw [List.cons_append, readUntil_cons hc, hstop, if_neg Bool.false_ne_true, ih hcs]
    rfl

theorem readUntil_stop (hc : c ≠ '\\') (hstop : stops c = true) :
    readUntil stops endStops (c :: cs) = .ok ([], c :: cs) := by
  rw [readUntil_cons hc, if_pos hstop]

end

/-! ## Items -/

theorem readHeading_word {name : String} (h : IsWord name) (rest : List Char) :
    readHeading (name.toList ++ ']' :: rest) = .ok (.heading name, rest) := by
  have hname : readUntil (· = ']') false (name.toList ++ ']' :: rest) =
      .ok (name.toList, ']' :: rest) := by
    refine readUntil_word (fun c hc => ⟨?_, ?_⟩) (readUntil_stop (by decide) rfl)
    · exact ne_mark_of_isPlain (h.plain hc) (by decide)
    · exact decide_eq_false (ne_mark_of_isPlain (h.plain hc) (by decide))
  rw [readHeading, hname]
  simp [bind, Except.bind, pure, Except.pure, h.ofList_trim]

theorem readToLineEnd_ending (h : IsEnding ending rest) :
    readToLineEnd (ending ++ rest) = .ok ([], ending ++ rest) := by
  rcases h with rfl | rfl | ⟨rfl, rfl⟩
  · exact readUntil_stop (by decide) rfl
  · exact readUntil_stop (by decide) rfl
  · rfl

theorem isLineBreak_eq_false (h : isBlank c = false) : isLineBreak c = false := by
  refine Bool.eq_false_iff.2 fun hbreak => ?_
  rw [isLineBreak, Bool.or_eq_true, decide_eq_true_eq, decide_eq_true_eq] at hbreak
  rcases hbreak with rfl | rfl <;> cases h

theorem readValue_word {value : String} (h : IsWord value) (hends : IsEnding ending rest) :
    readValue (value.toList ++ (ending ++ rest)) = .ok (value.toList, ending ++ rest) := by
  have hline : readToLineEnd (value.toList ++ (ending ++ rest)) =
      .ok (value.toList, ending ++ rest) := by
    refine readUntil_word (fun c hc => ⟨?_, ?_⟩) (readToLineEnd_ending hends)
    · exact ne_mark_of_isPlain (h.plain hc) (by decide)
    · exact isLineBreak_eq_false (h.plain hc).1
  obtain ⟨c, cs, hcs, hplain⟩ := h.exists_cons
  rw [hcs, List.cons_append] at hline ⊢
  rw [readValue, List.dropWhile_cons_of_neg (by simp [hplain.1])]
  split
  · rename_i heq
    exact absurd (List.cons.inj heq).1 (ne_mark_of_isPlain hplain (by decide))
  · rename_i heq
    exact absurd (List.cons.inj heq).1 (ne_mark_of_isPlain hplain (by decide))
  · exact hline

theorem readPair_words {key value : String} (hkey : IsWord key) (hvalue : IsWord value)
    (hends : IsEnding ending rest) :
    readPair (key.toList ++ '=' :: (value.toList ++ (ending ++ rest))) =
      .ok (.pair key value, ending ++ rest) := by
  have hread : readUntil (fun c => c = '=' || c = ':') false
      (key.toList ++ '=' :: (value.toList ++ (ending ++ rest))) =
        .ok (key.toList, '=' :: (value.toList ++ (ending ++ rest))) := by
    refine readUntil_word (fun c hc => ⟨?_, ?_⟩) (readUntil_stop (by decide) rfl)
    · exact ne_mark_of_isPlain (hkey.plain hc) (by decide)
    · have hequals : c ≠ '=' := ne_mark_of_isPlain (hkey.plain hc) (by decide)
      have hcolon : c ≠ ':' := ne_mark_of_isPlain (hkey.plain hc) (by decide)
      rw [decide_eq_false hequals, decide_eq_false hcolon, Bool.or_self]
  rw [readPair, hread]
  simp [bind, Except.bind, pure, Except.pure, trim_eq_self hkey.noBlank, hkey.1,
    readValue_word hvalue hends, hvalue.ofList_trim]

/-! ## Between the items -/

section
variable {fuel : Nat} {startsLine startsLine' : Bool} {cs' blanks words : List Char}

theorem readLines_nil : readLines fuel startsLine [] = .ok [] := by
  cases fuel with
  | zero => rfl
  | succ fuel => rfl

theorem readLines_congr (h : skipBlanks startsLine cs = skipBlanks startsLine' cs') :
    readLines fuel startsLine cs = readLines fuel startsLine' cs' := by
  cases fuel with
  | zero => rfl
  | succ fuel => rw [readLines, readLines, h]

theorem readLines_ending (h : IsEnding ending rest) :
    readLines fuel startsLine (ending ++ rest) = readLines fuel true rest := by
  rcases h with rfl | rfl | ⟨rfl, rfl⟩
  · exact readLines_congr rfl
  · exact readLines_congr rfl
  · exact readLines_nil.trans readLines_nil.symm

theorem skipBlanks_append (h : AllBlank blanks) (startsLine : Bool) (cs : List Char) :
    ∃ startsLine', skipBlanks startsLine (blanks ++ cs) = skipBlanks startsLine' cs := by
  induction blanks generalizing startsLine with
  | nil => exact ⟨startsLine, rfl⟩
  | cons c blanks ih =>
    obtain ⟨hc, hblanks⟩ := List.forall_mem_cons.1 h
    obtain ⟨startsLine', hskip⟩ := ih hblanks (c = '\n')
    exact ⟨startsLine', by rw [List.cons_append, skipBlanks, if_pos hc, hskip]⟩

theorem readLines_blank (hblanks : AllBlank blanks) (hends : IsEnding ending rest) :
    readLines fuel startsLine (blanks ++ (ending ++ rest)) = readLines fuel true rest := by
  obtain ⟨startsLine', hskip⟩ := skipBlanks_append hblanks startsLine (ending ++ rest)
  exact (readLines_congr hskip).trans (readLines_ending hends)

theorem skipComment_ending (hwords : '\n' ∉ words) (hends : IsEnding ending rest) :
    skipComment (words ++ (ending ++ rest)) = rest := by
  have hpass : ∀ c ∈ words, decide (c ≠ '\n') = true := by
    exact fun c hc => decide_eq_true fun heq => hwords (heq ▸ hc)
  rw [skipComment, List.dropWhile_append_of_pos hpass]
  rcases hends with rfl | rfl | ⟨rfl, rfl⟩ <;> rfl

theorem readLines_comment (hmark : c = ';' ∨ c = '#') (hwords : '\n' ∉ words)
    (hends : IsEnding ending rest) :
    readLines (fuel + 1) true (c :: (words ++ (ending ++ rest))) = readLines fuel true rest := by
  have hskip := skipComment_ending hwords hends
  -- `rest` is in the text of the comment too, and only what is left behind it is rewritten
  generalize words ++ (ending ++ rest) = cs at hskip ⊢
  subst hskip
  rcases hmark with rfl | rfl <;> rfl

theorem readLines_item (hblank : isBlank c = false) (hmark : c ≠ ';' ∧ c ≠ '#')
    (hitem : (if c = '[' then readHeading cs else readPair (c :: cs)) = .ok (line, rest))
    (hrest : readLines fuel false rest = .ok document) :
    readLines (fuel + 1) startsLine (c :: cs) = .ok (line :: document) := by
  have hskip : skipBlanks startsLine (c :: cs) = (startsLine, c :: cs) := by
    rw [skipBlanks, hblank, if_neg Bool.false_ne_true]
  rw [readLines, hskip]
  by_cases hc : c = '['
  · rw [if_pos hc] at hitem
    simp [hc, hitem, hrest, bind, Except.bind, pure, Except.pure]
  · rw [if_neg hc] at hitem
    simp [hc, hmark, hitem, hrest, bind, Except.bind, pure, Except.pure]

end

/-! ## Lines -/

theorem Line.toList_text_heading (name : String) :
    (heading name).text.toList = '[' :: (name.toList ++ [']']) := by
  rw [Line.text, String.toList_append, String.toList_append]
  rfl

theorem Line.toList_text_pair (key value : String) :
    (pair key value).text.toList = key.toList ++ '=' :: value.toList := by
  rw [Line.text, String.toList_append, String.toList_append, List.append_assoc]
  rfl

theorem Line.IsPlain.exists_cons (h : line.IsPlain) :
    ∃ c cs, line.text.toList = c :: cs ∧ (c = '[' ∨ Ini.IsPlain c) := by
  cases line with
  | heading name => exact ⟨'[', _, toList_text_heading name, .inl rfl⟩
  | pair key value =>
    obtain ⟨c, cs, hcs, hplain⟩ := IsWord.exists_cons h.1
    refine ⟨c, cs ++ '=' :: value.toList, ?_, .inr hplain⟩
    rw [toList_text_pair, hcs, List.cons_append]

theorem ne_mark_of_starts {mark : Char} (hc : c = '[' ∨ IsPlain c)
    (hmark : mark ∈ marks.erase '[') : c ≠ mark := by
  rcases hc with rfl | hplain
  · rintro rfl
    exact absurd hmark (by decide)
  · exact ne_mark_of_isPlain hplain (List.mem_of_mem_erase hmark)

theorem isBlank_of_starts (hc : c = '[' ∨ IsPlain c) : isBlank c = false := by
  rcases hc with rfl | hplain
  · rfl
  · exact hplain.1

theorem Line.IsPlain.reads (h : line.IsPlain) (hcs : line.text.toList = c :: cs)
    (hends : IsEnding ending rest) :
    (if c = '[' then readHeading (cs ++ (ending ++ rest))
      else readPair (c :: (cs ++ (ending ++ rest)))) = .ok (line, ending ++ rest) := by
  cases line with
  | heading name =>
    rw [toList_text_heading] at hcs
    obtain ⟨rfl, rfl⟩ := List.cons.inj hcs
    rw [if_pos rfl, List.append_assoc]
    exact readHeading_word h _
  | pair key value =>
    obtain ⟨d, ds, hds, hplain⟩ := IsWord.exists_cons h.1
    have hread := readPair_words h.1 h.2 hends
    have htext : key.toList ++ '=' :: (value.toList ++ (ending ++ rest)) =
        c :: (cs ++ (ending ++ rest)) := by
      have happend := congrArg (· ++ (ending ++ rest)) ((toList_text_pair key value).symm.trans hcs)
      simpa only [List.append_assoc, List.cons_append] using happend
    have hc : c = d := by
      rw [hds] at htext
      exact (List.cons.inj htext).1.symm
    rw [if_neg (hc ▸ ne_mark_of_isPlain hplain (by decide)), ← htext, hread]

/-- By induction on how the text shows the document: behind each line, the reader is where it would
be at the start of a text. -/
theorem readLines_shows (h : Shows document cs) (hplain : ∀ line ∈ document, line.IsPlain)
    {fuel : Nat} (hfuel : cs.length ≤ fuel) : readLines fuel true cs = .ok document := by
  induction h generalizing fuel with
  | nothing => exact readLines_nil
  | @line document rest line ending ends _ ih =>
    obtain ⟨hline, hothers⟩ := List.forall_mem_cons.1 hplain
    obtain ⟨c, cs, hcs, hstarts⟩ := hline.exists_cons
    rw [hcs, List.cons_append] at hfuel ⊢
    simp only [List.length_cons, List.length_append] at hfuel
    obtain ⟨fuel, rfl⟩ : ∃ n, fuel = n + 1 := ⟨fuel - 1, by omega⟩
    have hmark : c ≠ ';' ∧ c ≠ '#' :=
      ⟨ne_mark_of_starts hstarts (by decide), ne_mark_of_starts hstarts (by decide)⟩
    refine readLines_item (isBlank_of_starts hstarts) hmark (hline.reads hcs ends) ?_
    exact (readLines_ending ends).trans (ih hothers (by omega))
  | @comment document rest mark words ending isMark oneLine ends _ ih =>
    simp only [List.length_cons, List.length_append] at hfuel
    obtain ⟨fuel, rfl⟩ : ∃ n, fuel = n + 1 := ⟨fuel - 1, by omega⟩
    rw [readLines_comment isMark oneLine ends]
    exact ih hplain (by omega)
  | @blank document rest blanks ending allBlank ends _ ih =>
    simp only [List.length_append] at hfuel
    rw [readLines_blank allBlank ends]
    exact ih hplain (by omega)

theorem IsEnding.head?_ne (h : IsEnding ending rest) (hrest : rest.head? ≠ some byteOrderMark) :
    (ending ++ rest).head? ≠ some byteOrderMark := by
  rcases h with rfl | rfl | ⟨rfl, rfl⟩
  · exact fun heq => absurd (Option.some.inj heq) (by decide)
  · exact fun heq => absurd (Option.some.inj heq) (by decide)
  · exact hrest

theorem Shows.head?_ne (h : Shows document cs) (hplain : ∀ line ∈ document, line.IsPlain) :
    cs.head? ≠ some byteOrderMark := by
  induction h with
  | nothing => nofun
  | line line ending ends others ih =>
    obtain ⟨hline, hothers⟩ := List.forall_mem_cons.1 hplain
    obtain ⟨c, cs, hcs, hstarts⟩ := hline.exists_cons
    rw [hcs]
    exact fun heq => ne_mark_of_starts hstarts (by decide) (Option.some.inj heq)
  | comment mark words ending isMark oneLine ends others ih =>
    rcases isMark with rfl | rfl <;> exact fun heq => absurd (Option.some.inj heq) (by decide)
  | blank blanks ending allBlank ends others ih =>
    cases blanks with
    | nil => exact ends.head?_ne (ih hplain)
    | cons c blanks =>
      intro heq
      have hblank : isBlank c = true := allBlank c List.mem_cons_self
      rw [Option.some.inj heq] at hblank
      exact absurd hblank (by decide)

theorem read_of_shows {text : String} (h : Shows document text.toList)
    (hplain : ∀ line ∈ document, line.IsPlain) : Document.read text = .ok document := by
  rw [Document.read, if_neg (h.head?_ne hplain)]
  exact readLines_shows h hplain le_rfl

end Containment.Ini
