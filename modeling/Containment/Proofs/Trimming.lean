import Containment.Text.Blank
import Mathlib.Data.List.TakeWhile

/-!
# Trimming

A text is trimmed to what is between the blanks at its ends. So blanks that are put around a text
make no difference (`Padded.trim_eq`), and a text without any stays as it is (`trim_eq_self`).
-/

namespace Containment.Text

variable {cs core text : List Char}

def AllBlank (cs : List Char) : Prop := ∀ c ∈ cs, isBlank c = true

instance (cs : List Char) : Decidable (AllBlank cs) :=
  decidable_of_iff (cs.all isBlank = true) List.all_eq_true

def NoBlank (cs : List Char) : Prop := ∀ c ∈ cs, isBlank c = false

/-- There is no blank and no comma, so the text can be an item of a list. -/
def Compact (cs : List Char) : Prop := ∀ c ∈ cs, isBlank c = false ∧ c ≠ ','

theorem Compact.noBlank (h : Compact cs) : NoBlank cs := fun c hc => (h c hc).1

def Padded (core text : List Char) : Prop :=
  ∃ before after, AllBlank before ∧ AllBlank after ∧ text = before ++ core ++ after

theorem trimEnd_append (h : AllBlank cs) (core : List Char) :
    trimEnd (core ++ cs) = trimEnd core := by
  have hrev : ∀ c ∈ cs.reverse, isBlank c = true := fun c hc => h c (List.mem_reverse.1 hc)
  rw [trimEnd, List.reverse_append, List.dropWhile_append_of_pos hrev]
  rfl

theorem trimStart_eq_nil_iff : trimStart cs = [] ↔ AllBlank cs := List.dropWhile_eq_nil_iff

theorem Padded.trim_eq (h : Padded core text) : trim text = trim core := by
  obtain ⟨before, after, hbefore, hafter, rfl⟩ := h
  rw [trim, trimStart, List.append_assoc, List.dropWhile_append_of_pos hbefore,
    List.dropWhile_append]
  split
  · rename_i hcore
    -- of a core that is blank too, nothing is left at the start
    rw [List.isEmpty_iff] at hcore
    rw [trim, trimStart, hcore, List.dropWhile_eq_nil_iff.2 hafter]
  · exact trimEnd_append hafter _

theorem padded_trim (cs : List Char) : Padded (trim cs) cs := by
  refine ⟨cs.takeWhile isBlank, ((trimStart cs).reverse.takeWhile isBlank).reverse, ?_, ?_, ?_⟩
  · exact fun c hc => List.mem_takeWhile_imp hc
  · exact fun c hc => List.mem_takeWhile_imp (List.mem_reverse.1 hc)
  · have hend : trim cs ++ ((trimStart cs).reverse.takeWhile isBlank).reverse = trimStart cs := by
      rw [trim, trimEnd, ← List.reverse_append, List.takeWhile_append_dropWhile,
        List.reverse_reverse]
    rw [List.append_assoc, hend, trimStart, List.takeWhile_append_dropWhile]

theorem padded_self (cs : List Char) : Padded cs cs :=
  ⟨[], [], nofun, nofun, (List.append_nil cs).symm⟩

theorem trim_trim (cs : List Char) : trim (trim cs) = trim cs := (padded_trim cs).trim_eq.symm

theorem trimStart_eq_self (h : NoBlank cs) : trimStart cs = cs := by
  refine List.dropWhile_eq_self_iff.2 fun hlength => ?_
  rw [h _ (List.getElem_mem hlength)]
  exact Bool.false_ne_true

theorem trim_eq_self (h : NoBlank cs) : trim cs = cs := by
  have hrev : NoBlank cs.reverse := fun c hc => h c (List.mem_reverse.1 hc)
  have hdrop : cs.reverse.dropWhile isBlank = cs.reverse := trimStart_eq_self hrev
  rw [trim, trimStart_eq_self h, trimEnd, hdrop, List.reverse_reverse]

theorem Padded.trim_eq_core (h : Padded core text) (hcore : NoBlank core) : trim text = core :=
  h.trim_eq.trans (trim_eq_self hcore)

theorem trim_eq_nil_iff : trim cs = [] ↔ AllBlank cs := by
  constructor
  · intro h
    obtain ⟨before, after, hbefore, hafter, heq⟩ := padded_trim cs
    rw [h, List.append_nil] at heq
    rw [heq]
    exact fun c hc => (List.mem_append.1 hc).elim (hbefore c) (hafter c)
  · intro h
    rw [trim, trimStart_eq_nil_iff.2 h]
    rfl

end Containment.Text
