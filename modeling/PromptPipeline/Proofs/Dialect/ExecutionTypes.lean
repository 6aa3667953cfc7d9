import PromptPipeline.Proofs.Dialect.Unambiguous

/-!
# The names of execution types

The pattern of an execution command matches its words by case folding, while the execution type is
told by the words in ASCII capitals, and whatever they are not is a dialog. The two agree on all
spellings but those with a long s, which folds to an s and is its own capital: a script or a simple
template that is spelled with a long s is taken for a dialog.

Main statement: `Command.parse_execute`.
-/

namespace PromptPipeline

open Text

variable {s : List Char} {type other : ExecutionType} {kind : List (List Char)}

namespace ExecutionType

/-- Words name at most one execution type. -/
theorem NamedBy.unique (h : type.NamedBy kind) (h' : other.NamedBy kind) : other = type := by
  have heq := (map_folded_eq h').symm.trans (map_folded_eq h)
  revert heq
  cases type <;> cases other <;> decide

/-- An item says at most one execution type. -/
theorem eq_of_mem_lead (hs : Trimmed s) (h : s ∈ executeLead * type.language)
    (h' : s ∈ executeLead * other.language) : other = type := by
  rcases (Form.mem_lead_iff hs type).mp h with hkind | ⟨first, kind, heq, hfirst, hkind⟩ <;>
    rcases (Form.mem_lead_iff hs other).mp h' with hkind' | ⟨first', kind', heq', hfirst', hkind'⟩
  · exact hkind.unique hkind'
  · cases hfirst'.symm.trans (heq' ▸ hkind).head_ne_execute
  · cases hfirst.symm.trans (heq ▸ hkind').head_ne_execute
  · obtain ⟨-, rfl⟩ := List.cons.inj (heq.symm.trans heq')
    exact hkind.unique hkind'

/-- Words without a long s are the keywords in ASCII capitals. -/
theorem NamedBy.executionTypeOfWords (h : type.NamedBy kind) (hlong : ∀ w ∈ kind, longS ∉ w) :
    executionTypeOfWords kind = type := by
  have hkeywords : ∀ k ∈ type.keywords,
      longS ∉ k.toList ∧ foldChar kelvinSign ∉ k.toList.map foldChar := by
    cases type <;> decide
  unfold PromptPipeline.executionTypeOfWords
  rw [map_capitals_eq hkeywords hlong h]
  cases type <;> rfl

/-- Only a script and a simple template can be spelled with a long s. -/
theorem NamedBy.eq_of_longS (h : type.NamedBy kind) (hlong : ∃ w ∈ kind, longS ∈ w) :
    type = .simpleTemplate ∨ type = .script := by
  by_contra hother
  have hkeywords : ∀ k ∈ type.keywords, foldChar longS ∉ k.toList.map foldChar := by
    revert hother
    cases type <;> decide
  obtain ⟨w, hw, hlong⟩ := hlong
  obtain ⟨k, hk, hspells⟩ := exists_spells_of_mem h hw
  exact notMem_of_spells (hkeywords k hk) hspells hlong

end ExecutionType

/-- Words with a long s are taken for a dialog. -/
theorem executionTypeOfWords_of_longS (hlong : ∃ w ∈ kind, longS ∈ w) :
    executionTypeOfWords kind = .promptDialog := by
  obtain ⟨w, hw, hlong⟩ := hlong
  have hne {ts : List String} (hts : ∀ t ∈ ts, longS ∉ t.toList) : kind.map capitals ≠ ts :=
    fun heq => capitals_ne_of_longS hlong (hts _ (heq ▸ List.mem_map_of_mem hw)) rfl
  unfold executionTypeOfWords
  split
  next heq => exact absurd heq (hne (by decide))
  next heq => exact absurd heq (hne (by decide))
  next heq => exact absurd heq (hne (by decide))
  next => rfl

/-- **What the pattern of an execution command matches means.** The item says exactly one execution
type. That is the type of its command unless it has a long s; then the type that it says is a simple
template or a script, and the command is one for a dialog. -/
theorem Command.parse_execute {item : String} (h : trim item.toList ∈ Form.execute.language)
    (line : Nat) : ∃ type : ExecutionType, trim item.toList ∈ executeLead * type.language ∧
      (∀ other : ExecutionType, trim item.toList ∈ executeLead * other.language → other = type) ∧
      parse item line = .ok (.execute (if longS ∈ item.toList then .promptDialog else type)) ∧
      (longS ∈ item.toList → type = .simpleTemplate ∨ type = .script) := by
  have hs := trimmed_trim item.toList
  obtain ⟨type, htype⟩ := Form.mem_execute_iff.mp h
  obtain ⟨lead, kind, hwords, hlead, hkind, hread⟩ := Form.read?_execute_of_mem hs htype
  -- there is no s in EXECUTE, so a long s is in one of the words that name the type
  have hlong : longS ∈ item.toList ↔ ∃ w ∈ kind, longS ∈ w := by
    have hlead : ∀ w ∈ lead, longS ∉ w := fun w hw => notMem_of_spells (by decide) (hlead w hw)
    rw [← exists_mem_words_iff (by decide), ← words_trim, hwords]
    simp only [List.mem_append, or_and_right, exists_or]
    exact or_iff_right fun ⟨w, hw, hmem⟩ => hlead w hw hmem
  have hparse := parseTrying_of_read? hread (Form.mem_all .execute) line
  refine ⟨type, htype, fun other => ExecutionType.eq_of_mem_lead hs htype, ?_, ?_⟩
  · rw [← parseTrying_all, hparse]
    split
    next hmem =>
      rw [executionTypeOfWords_of_longS (hlong.mp hmem)]
      rfl
    next hmem =>
      rw [hkind.executionTypeOfWords fun w hw hlongS => hmem (hlong.mpr ⟨w, hw, hlongS⟩)]
      rfl
  · exact fun hmem => hkind.eq_of_longS (hlong.mp hmem)

/-- A script that is spelled with a long s is taken for a dialog. -/
theorem Command.long_script_is_dialog :
    trim "EXECUTE \u017fCRIPT".toList ∈ executeLead * ExecutionType.script.language ∧
      parse "EXECUTE \u017fCRIPT" 1 = .ok (.execute .promptDialog) := by
  have hs := trimmed_trim "EXECUTE \u017fCRIPT".toList
  have hscript : trim "EXECUTE \u017fCRIPT".toList ∈ executeLead * ExecutionType.script.language :=
    (Form.mem_lead_iff hs .script).mpr
      (.inr ⟨"EXECUTE".toList, ["\u017fCRIPT".toList], by decide +kernel, by decide,
        .cons (mem_keyword.mpr (by decide)) .nil⟩)
  obtain ⟨type, -, -, hparse, -⟩ :=
    parse_execute (Form.mem_execute_iff.mpr ⟨.script, hscript⟩) 1
  rw [if_pos (by decide)] at hparse
  exact ⟨hscript, hparse⟩

end PromptPipeline
