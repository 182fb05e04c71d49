import Containment.Proofs.Documents
import Mathlib.Data.List.Induction
import Mathlib.Tactic.SplitIfs

/-!
# Configuration files

A configuration file has pairs in front of its first heading, which count for nothing, and then one
part after another: a heading and the pairs under it. Parts of one name are one section, in which
the last value of a key counts (`Daemon.loaded_as_written`).
-/

namespace Containment

/-! ## Sections -/

namespace Section

variable {s : Section} {field key value : String}

theorem lookup_filter_ne (h : key ≠ field) (values : List (String × String)) :
    (values.filter fun entry => entry.1 != field).lookup key = values.lookup key := by
  induction values with
  | nil => rfl
  | cons entry values ih =>
    rw [List.filter_cons, List.lookup_cons]
    split
    · rw [List.lookup_cons, ih]
    · rename_i hfield
      have hentry : key ≠ entry.1 := by
        rintro rfl
        exact hfield (bne_iff_ne.2 h)
      rw [ih, beq_eq_false_iff_ne.2 hentry]

theorem raw?_insert :
    (s.insert field value).raw? key = if key = field then some value else s.raw? key := by
  rw [raw?, insert, List.lookup_cons]
  split_ifs with h
  · rw [beq_iff_eq.2 h]
  · rw [beq_eq_false_iff_ne.2 h]
    exact lookup_filter_ne h s.values

theorem ofList_concat (pairs : List (String × String)) (pair : String × String) :
    ofList (pairs ++ [pair]) = (ofList pairs).insert pair.1 pair.2 := by
  rw [ofList, List.foldl_append]
  rfl

theorem raw?_ofList (pairs : List (String × String)) (key : String) :
    (ofList pairs).raw? key = ((pairs.filter (·.1 = key)).getLast?).map (·.2) := by
  -- from the end of the list, as the last insertion decides
  induction pairs using List.reverseRecOn with
  | nil => rfl
  | append_singleton pairs pair ih =>
    rw [ofList_concat, raw?_insert, ih, List.filter_append]
    split_ifs with h
    · simp [h]
    · simp [Ne.symm h]

theorem mem_ofList {pairs : List (String × String)} {pair : String × String}
    (h : pair ∈ (ofList pairs).values) : pair ∈ pairs := by
  induction pairs using List.reverseRecOn with
  | nil => cases h
  | append_singleton pairs last ih =>
    rw [ofList_concat] at h
    rcases List.mem_cons.1 h with rfl | h
    · simp
    · exact List.mem_append_left _ (ih (List.mem_filter.1 h).1)

end Section

/-! ## Contents -/

namespace Ini

structure Part where
  name : String
  pairs : List (String × String)

def pairLines (pairs : List (String × String)) : Document :=
  pairs.map fun pair => .pair pair.1 pair.2

def Part.lines (part : Part) : Document := .heading part.name :: pairLines part.pairs

structure Content where
  /-- The pairs in front of the first heading. -/
  stray : List (String × String)
  parts : List Part

namespace Content

def document (content : Content) : Document :=
  pairLines content.stray ++ content.parts.flatMap Part.lines

/-- The pairs in all parts of one name, in the order of the file. -/
def pairsOf (content : Content) (name : String) : List (String × String) :=
  (content.parts.filter (·.name = name)).flatMap Part.pairs

def value? (content : Content) (name key : String) : Option String :=
  (((content.pairsOf name).filter (·.1 = key)).getLast?).map (·.2)

end Content

variable {name : String} {current : Option String} {document : Document}

theorem pairsUnder_pairLines (pairs : List (String × String)) :
    pairsUnder name current (pairLines pairs ++ document) =
      (if current = some name then pairs else []) ++ pairsUnder name current document := by
  induction pairs with
  | nil => simp [pairLines]
  | cons pair pairs ih =>
    rw [pairLines, List.map_cons, ← pairLines, List.cons_append, pairsUnder, ih]
    split_ifs <;> rfl

theorem pairsUnder_parts (parts : List Part) :
    pairsUnder name current (parts.flatMap Part.lines) =
      (parts.filter (·.name = name)).flatMap Part.pairs := by
  induction parts generalizing current with
  | nil => rfl
  | cons part parts ih =>
    rw [List.flatMap_cons, Part.lines, List.cons_append, pairsUnder, pairsUnder_pairLines, ih]
    by_cases h : part.name = name <;> simp [h]

namespace Content

theorem section_document (content : Content) (name : String) :
    content.document.section name = .ofList (content.pairsOf name) := by
  rw [Document.section, document, pairsUnder_pairLines, pairsUnder_parts]
  rfl

end Content

end Ini

namespace Daemon

theorem configuration_of_shows {fs : Filesystem} {path text : String} {id : FileId}
    {document : Ini.Document} (hfile : fs.lookup path = .ok ⟨.readable text, id⟩)
    (hplain : ∀ line ∈ document, line.IsPlain) (hshows : Ini.Shows document text.toList) :
    configuration fs path = .ok document := by
  rw [configuration, hfile]
  show (Ini.Document.read text).mapError _ = _
  rw [Ini.read_of_shows hshows hplain]
  rfl

/-- A file is loaded as it was written: each key of a section has its last value there, and a
section holds no pair but those in the parts of its name, so a stray one is in none. -/
theorem loaded_as_written :
    (∀ c : Char, c.isAlphanum = true ∨ c ∈ ['_', '-', '.', '/'] → Ini.IsPlain c) ∧
    ∀ (fs : Filesystem) (path text : String) (id : FileId) (content : Ini.Content),
      fs.lookup path = .ok ⟨.readable text, id⟩ →
      (∀ line ∈ content.document, line.IsPlain) →
      Ini.Shows content.document text.toList →
      ∃ document, configuration fs path = .ok document ∧
        (∀ name key, (document.section name).raw? key = content.value? name key) ∧
        ∀ name, ∀ pair ∈ (document.section name).values, pair ∈ content.pairsOf name := by
  refine ⟨fun c => Ini.isPlain_of_isAlphanum, ?_⟩
  intro fs path text id content hfile hplain hshows
  refine ⟨content.document, configuration_of_shows hfile hplain hshows, ?_, ?_⟩
  · intro name key
    rw [content.section_document, Section.raw?_ofList]
    rfl
  · intro name pair hpair
    rw [content.section_document] at hpair
    exact Section.mem_ofList hpair

/-- Two parts have one name, the key of a stray pair is given in parts too, and the last line has no
line break. -/
theorem loaded_as_written_web :
    let text := "# ports\nport=1\n\n[web]\nport=80\nroot=/srv\n[mail]\r\n[web]\n;\nport=8080"
    ∃ document,
      configuration ⟨⟨2⟩, [(["c.ini"], ⟨.readable text, ⟨3⟩⟩)]⟩ "/c.ini" = .ok document ∧
        (document.section "web").raw? "port" = some "8080" ∧
        (document.section "web").raw? "root" = some "/srv" ∧
        (document.section "mail").raw? "port" = none := by
  intro text
  let content : Ini.Content :=
    { stray := [("port", "1")]
      parts := [⟨"web", [("port", "80"), ("root", "/srv")]⟩, ⟨"mail", []⟩,
        ⟨"web", [("port", "8080")]⟩] }
  have hshown : Ini.Shows content.document _ :=
    .comment '#' " ports".toList ['\n'] (.inr rfl) (by decide) (.inl rfl) <|
    .line _ ['\n'] (.inl rfl) <| .blank [] ['\n'] nofun (.inl rfl) <|
    .line _ ['\n'] (.inl rfl) <| .line _ ['\n'] (.inl rfl) <| .line _ ['\n'] (.inl rfl) <|
    .line _ ['\r', '\n'] (.inr (.inl rfl)) <| .line _ ['\n'] (.inl rfl) <|
    .comment ';' [] ['\n'] (.inl rfl) nofun (.inl rfl) <|
    .line _ [] (.inr (.inr ⟨rfl, rfl⟩)) .nothing
  have hshows : Ini.Shows content.document text.toList := by
    simp only [Ini.Line.toList_text_heading, Ini.Line.toList_text_pair] at hshown
    simp only [text]
    exact hshown
  have hfile : Filesystem.lookup ⟨⟨2⟩, [(["c.ini"], ⟨.readable text, ⟨3⟩⟩)]⟩ "/c.ini" =
      .ok ⟨.readable text, ⟨3⟩⟩ := by
    have hnul : "/c.ini".contains '\x00' = false := by simp
    have hstart : "/c.ini".startsWith "/" = true := by simp
    rw [Filesystem.lookup, hnul, hstart]
    rfl
  obtain ⟨document, hread, hvalue, -⟩ := loaded_as_written.2
    ⟨⟨2⟩, [(["c.ini"], ⟨.readable text, ⟨3⟩⟩)]⟩ "/c.ini" text ⟨3⟩ content hfile (by decide) hshows
  exact ⟨document, hread, (hvalue ..).trans (by decide), (hvalue ..).trans (by decide),
    (hvalue ..).trans (by decide)⟩

end Daemon

end Containment
