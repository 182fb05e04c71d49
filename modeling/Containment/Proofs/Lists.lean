import Containment.Settings.Section
import Containment.Proofs.Identifiers

/-!
# Lists in settings

The list of a value is put together from its items, whatever their type: a comma joins the lists of
what is on both sides of it, blank items do not count, and the leftmost item that its type does not
read is the error (`ListLaws`). What is written for integers, processes and files has no comma and
no blank, so a list of such texts is read as it was written (`lists_compose`).
-/

namespace Containment

open Text

variable {α : Type} {reader : ValueReader α} {s : Section} {field value : String} {a : α}
variable {part core : List Char} {parts : List (List Char)}

namespace Section

/-! ## Part by part -/

/-- The list of a value that the commas divide into these parts. -/
def readParts (reader : ValueReader α) (field : String) (parts : List (List Char)) :
    Except SectionError (List α) :=
  ((parts.map trim).filter fun item => !item.isEmpty).mapM fun item =>
    readValue reader field (String.ofList item)

theorem splitAt_eq_splitOn (separator : Char) (cs : List Char) :
    splitAt separator cs = cs.splitOn separator := by
  induction cs with
  | nil => rfl
  | cons c cs ih =>
    obtain ⟨part, parts, h⟩ := List.exists_cons_of_ne_nil (splitAt_ne_nil separator cs)
    rw [List.splitOn_cons_eq_if_modifyHead, ← ih, splitAt, h]
    simp only [beq_iff_eq, List.modifyHead_cons]

theorem list_of_raw? (h : s.raw? field = some value) :
    s.list reader field = readParts reader field (value.toList.splitOn ',') := by
  rw [list, h, readParts, ← splitAt_eq_splitOn]
  rfl

theorem readParts_blank (h : AllBlank part) :
    readParts reader field (part :: parts) = readParts reader field parts := by
  rw [readParts, List.map_cons, trim_eq_nil_iff.2 h]
  rfl

theorem readParts_some (h : ¬ AllBlank part) :
    readParts reader field (part :: parts) = do
      let a ← (reader (trim part)).mapError (.invalid field (String.ofList (trim part)))
      return a :: (← readParts reader field parts) := by
  have hsome : (!(trim part).isEmpty) = true := by
    rw [Bool.not_eq_true', List.isEmpty_eq_false_iff]
    exact trim_eq_nil_iff.not.2 h
  rw [readParts, List.map_cons, List.filter_cons, if_pos hsome, List.mapM_cons, readValue,
    String.toList_ofList, trim_trim]
  rfl

theorem readParts_append (left right : List (List Char)) :
    readParts reader field (left ++ right) =
      do return (← readParts reader field left) ++ (← readParts reader field right) := by
  rw [readParts, List.map_append, List.filter_append, List.mapM_append]
  rfl

theorem splitOn_comma (a b : String) :
    (a ++ "," ++ b).toList.splitOn ',' = a.toList.splitOn ',' ++ b.toList.splitOn ',' := by
  rw [String.toList_append, String.toList_append, List.append_assoc]
  exact List.splitOn_append_cons_self _ _

theorem list_of_intercalate {texts : List String}
    (h : s.raw? field = some (",".intercalate texts)) :
    s.list reader field =
      readParts reader field (texts.flatMap fun text => text.toList.splitOn ',') := by
  rw [list_of_raw? h]
  clear h
  induction texts with
  | nil => exact readParts_blank nofun
  | cons text texts ih =>
    cases texts with
    | nil => rw [String.intercalate_singleton, List.flatMap_singleton]
    | cons next texts =>
      rw [String.intercalate_cons_cons, splitOn_comma, List.flatMap_cons, readParts_append,
        readParts_append, ih]

/-! ## Laws for every type -/

theorem splitOn_blank (h : AllBlank part) : part.splitOn ',' = [part] :=
  List.splitOn_eq_singleton fun hmem => absurd (h _ hmem) (by decide)

theorem readParts_filter (texts : List String) :
    readParts reader field (texts.flatMap fun text => text.toList.splitOn ',') =
      readParts reader field
        ((texts.filter fun text => ¬ AllBlank text.toList).flatMap fun text =>
          text.toList.splitOn ',') := by
  induction texts with
  | nil => rfl
  | cons text texts ih =>
    by_cases h : AllBlank text.toList
    · rw [List.flatMap_cons, splitOn_blank h, List.singleton_append, readParts_blank h, ih,
        List.filter_cons_of_neg (by simpa using h)]
    · rw [List.filter_cons_of_pos (by simpa using h), List.flatMap_cons, List.flatMap_cons,
        readParts_append, readParts_append, ih]

/-- Of the parts that are not blank, the leftmost one that is not read, without the blanks around
it, and the cause. -/
inductive LeftmostFault (reader : ValueReader α) :
    List (List Char) → List Char → ValueError → Prop
  | here {part : List Char} {parts : List (List Char)} {cause : ValueError}
    (nonblank : ¬ AllBlank part) (fault : reader (trim part) = .error cause) :
    LeftmostFault reader (part :: parts) (trim part) cause
  | later {part item : List Char} {parts : List (List Char)} {cause : ValueError}
    (fine : AllBlank part ∨ ∃ a, reader (trim part) = .ok a)
    (rest : LeftmostFault reader parts item cause) :
    LeftmostFault reader (part :: parts) item cause

theorem LeftmostFault.readParts {item : List Char} {cause : ValueError}
    (h : LeftmostFault reader parts item cause) :
    readParts reader field parts = .error (.invalid field (String.ofList item) cause) := by
  induction h with
  | here nonblank fault =>
    rw [readParts_some nonblank, fault]
    rfl
  | @later part item parts cause fine rest ih =>
    by_cases hblank : AllBlank part
    · rw [readParts_blank hblank, ih]
    · obtain ⟨a, ha⟩ := fine.resolve_left hblank
      rw [readParts_some hblank, ha, ih]
      rfl

theorem exists_leftmostFault {e : SectionError} (h : readParts reader field parts = .error e) :
    ∃ item cause, LeftmostFault reader parts item cause ∧
      e = .invalid field (String.ofList item) cause := by
  induction parts with
  | nil => cases h
  | cons part parts ih =>
    by_cases hblank : AllBlank part
    · rw [readParts_blank hblank] at h
      obtain ⟨item, cause, hfault, he⟩ := ih h
      exact ⟨item, cause, .later (.inl hblank) hfault, he⟩
    · rw [readParts_some hblank] at h
      cases hread : reader (trim part) with
      | error cause =>
        rw [hread] at h
        exact ⟨_, cause, .here hblank hread, (Except.error.inj h).symm⟩
      | ok a =>
        cases hrest : readParts reader field parts with
        | ok as =>
          rw [hread, hrest] at h
          cases h
        | error e' =>
          rw [hread, hrest] at h
          obtain ⟨item, cause, hfault, he⟩ := ih (hrest.trans h)
          exact ⟨item, cause, .later (.inr ⟨a, hread⟩) hfault, he⟩

/-- How the list of a field depends on the value of the field. -/
structure ListLaws (reader : ValueReader α) (field : String) : Prop where
  append (s₁ s₂ s : Section) (a b : String) : s₁.raw? field = some a → s₂.raw? field = some b →
    s.raw? field = some (a ++ "," ++ b) →
    s.list reader field = do return (← s₁.list reader field) ++ (← s₂.list reader field)
  blanks (s₁ s₂ : Section) (texts : List String) : s₁.raw? field = some (",".intercalate texts) →
    s₂.raw? field = some (",".intercalate (texts.filter fun text => ¬ AllBlank text.toList)) →
    s₁.list reader field = s₂.list reader field
  fault (s : Section) (value : String) (e : SectionError) : s.raw? field = some value →
    (s.list reader field = .error e ↔
      ∃ item cause, LeftmostFault reader (value.toList.splitOn ',') item cause ∧
        e = .invalid field (String.ofList item) cause)

theorem listLaws (reader : ValueReader α) (field : String) : ListLaws reader field where
  append s₁ s₂ s a b h₁ h₂ h := by
    rw [list_of_raw? h₁, list_of_raw? h₂, list_of_raw? h, splitOn_comma, readParts_append]
  blanks s₁ s₂ texts h₁ h₂ := by
    rw [list_of_intercalate h₁, list_of_intercalate h₂, readParts_filter]
  fault s value e h := by
    rw [list_of_raw? h]
    constructor
    · exact exists_leftmostFault
    · rintro ⟨item, cause, hfault, rfl⟩
      exact hfault.readParts

end Section

/-! ## Texts that come back -/

/-- The text can be an item of a list, and as such is read as `a`. -/
structure ValueReader.Entry (reader : ValueReader α) (text : List Char) (a : α) : Prop where
  compact : Compact text
  nonempty : text ≠ []
  read : reader text = .ok a

theorem integer_entry {range : IntegerRange} {z : Int} (h : range.Numeral 10 core z) :
    (ValueReader.integer range).Entry core z where
  compact := h.compact (by decide)
  nonempty := h.ne_nil
  read := by
    rw [ValueReader.integer, (readInteger_eq_ok_iff (by decide) (by decide)).2 h]
    rfl

theorem word_entry {w : UInt64} (h : Numeral 10 core w.toNat) : ValueReader.word.Entry core w where
  compact := h.compact (by decide)
  nonempty := h.ne_nil
  read := by
    have hread : readNatural 64 10 core = .ok w.toNat :=
      (readNatural_eq_ok_iff (by decide) (by decide)).2 ⟨h, w.toNat_lt⟩
    rw [ValueReader.word, hread, Except.map, UInt64.ofNat_toNat]
    rfl

theorem Pid.entry (pid : Pid) : ValueReader.pid.Entry pid.text.toList pid where
  compact := pid.numeral_text.compact (by decide)
  nonempty := pid.numeral_text.ne_nil
  read := by
    rw [ValueReader.pid, Pid.read_of_padded pid.numeral_text (padded_self _)]
    rfl

theorem FileId.entry {file : FileId} (h : file.isValid = true) :
    ValueReader.file.Entry file.text.toList file where
  compact := (FileId.spells_text h).compact
  nonempty := (FileId.spells_text h).ne_nil
  read := by
    rw [ValueReader.file, FileId.read_of_padded (FileId.spells_text h) (padded_self _)]
    rfl

namespace Section

theorem splitOn_padded (hcore : Compact core) (h : Padded core part) :
    part.splitOn ',' = [part] := by
  obtain ⟨before, after, hbefore, hafter, rfl⟩ := h
  refine List.splitOn_eq_singleton fun hmem => ?_
  rcases List.mem_append.1 hmem with hmem | hmem
  · rcases List.mem_append.1 hmem with hmem | hmem
    · exact absurd (hbefore _ hmem) (by decide)
    · exact (hcore _ hmem).2 rfl
  · exact absurd (hafter _ hmem) (by decide)

/-- Items that satisfy `valid`, written with commas between them and any blanks around them, are
read back. -/
def ListsBack (reader : ValueReader α) (text : α → String) (valid : α → Prop) : Prop :=
  ∀ (s : Section) (field : String) (items : List α) (texts : List String),
    (∀ a ∈ items, valid a) →
    List.Forall₂ (fun a written => Padded (text a).toList written.toList) items texts →
    s.raw? field = some (",".intercalate texts) → s.list reader field = .ok items

theorem listsBack {text : α → String} {valid : α → Prop}
    (hentry : ∀ a, valid a → reader.Entry (text a).toList a) : ListsBack reader text valid := by
  intro s field items texts hvalid htexts hraw
  rw [list_of_intercalate hraw]
  clear hraw
  induction htexts with
  | nil => rfl
  | @cons a written items texts hwritten _ ih =>
    have ha := hentry a (hvalid a List.mem_cons_self)
    have htrim : trim written.toList = (text a).toList := hwritten.trim_eq_core ha.compact.noBlank
    have hsome : ¬ AllBlank written.toList := by
      rw [← trim_eq_nil_iff, htrim]
      exact ha.nonempty
    rw [List.flatMap_cons, splitOn_padded ha.compact hwritten, List.singleton_append,
      readParts_some hsome, htrim, ha.read, ih fun b hb => hvalid b (List.mem_cons_of_mem _ hb)]
    rfl

/-- Lists compose with commas for every type, and lists of integers, processes and files that exist
are read as they were written. -/
theorem lists_compose :
    (∀ {α : Type} (reader : ValueReader α) (field : String), ListLaws reader field) ∧
    (∀ range : IntegerRange, ListsBack (ValueReader.integer range) decimalInt fun z =>
      -(range.below : Int) ≤ z ∧ z ≤ range.above) ∧
    ListsBack ValueReader.word (fun w => decimal w.toNat) (fun _ => True) ∧
    ListsBack ValueReader.pid Pid.text (fun _ => True) ∧
    ListsBack ValueReader.file FileId.text fun file => file.isValid = true := by
  refine ⟨listLaws, fun range => listsBack fun z hz => ?_, listsBack fun w _ => ?_,
    listsBack fun pid _ => pid.entry, listsBack fun file hvalid => FileId.entry hvalid⟩
  · exact integer_entry (numeral_decimalInt hz.1 hz.2)
  · rw [decimal, String.toList_ofList]
    exact word_entry (numeral_toDigits (by decide) (by decide) _)

theorem lists_compose_files :
    (ofList [("files", " 0x1 ,\t0xff")]).list ValueReader.file "files" = .ok [⟨1⟩, ⟨255⟩] ∧
      (ofList [("pids", "1,,x")]).list ValueReader.pid "pids" = do
        return (← (ofList [("pids", "1,")]).list ValueReader.pid "pids") ++
          (← (ofList [("pids", "x")]).list ValueReader.pid "pids") := by
  obtain ⟨hlaws, -, -, -, hfiles⟩ := lists_compose
  constructor
  · refine hfiles _ "files" [⟨1⟩, ⟨255⟩] [" 0x1 ", "\t0xff"] (by decide) ?_ rfl
    exact .cons ⟨[' '], [' '], by decide, by decide, rfl⟩
      (.cons ⟨['\t'], [], by decide, by decide, rfl⟩ .nil)
  · exact (hlaws ValueReader.pid "pids").append _ _ _ "1," "x" rfl rfl rfl

/-- The item before the last is the leftmost one that is no number. -/
example : (ofList [("pids", "1, 2,,\tx ,-3")]).list ValueReader.pid "pids" =
    .error (.invalid "pids" "x" (.numeral .invalidDigit)) := by decide

end Section

end Containment
