import Mathlib.Data.List.Chain
import PromptPipeline.Script.JavaScript.Scope

/-!
# Scripts that only read names

A script without declaring words and arrows declares nothing. If it has no points and colons either
and calls nothing, it reads each name in it that is no keyword and no global (`freeNames_eq`).
-/

namespace PromptPipeline.JavaScript

variable {t : Token} {ts before after : List Token}

namespace Token

/-- Whether names are declared beside the token. -/
def declares : Token → Bool
  | .identifier word => ["const", "let", "var", "function", "class", "catch"].contains word
  | .punctuation p => p == .arrow

/-- The name that the token may read. -/
def readName? : Token → Option String
  | .identifier name =>
    if !keywords.contains name && !globals.contains name then some name else none
  | .punctuation _ => none

/-- Whether the token makes the name beside it a property or a key. -/
def labels (t : Token) : Bool :=
  t.isPunctuation .dot || t.isPunctuation .colon

end Token

/-- All words that declare names are keywords. -/
theorem declares_of_notMem_keywords {name : String} (h : name ∉ keywords) :
    (Token.identifier name).declares = false := by
  have hwords : ["const", "let", "var", "function", "class", "catch"].all keywords.contains =
      true := by decide
  show ["const", "let", "var", "function", "class", "catch"].contains name = false
  rw [← Bool.not_eq_true, List.contains_iff_mem]
  intro hmem
  exact h (List.contains_iff_mem.mp (List.all_eq_true.mp hwords _ hmem))

theorem namesDeclaredAt_eq_nil (h : t.declares = false) : namesDeclaredAt before t after = [] := by
  cases t with
  | identifier word =>
    simp only [Token.declares, List.contains_cons, List.contains_nil, Bool.or_false,
      Bool.or_eq_false_iff, beq_eq_false_iff_ne] at h
    obtain ⟨hconst, hlet, hvar, hfunction, hclass, hcatch⟩ := h
    simp only [namesDeclaredAt, hconst, hlet, hvar, hfunction, hclass, hcatch, or_self, if_false]
  | punctuation p => cases p <;> first | rfl | cases h

theorem declaredFrom_eq_nil (h : ∀ t ∈ ts, t.declares = false) : declaredFrom before ts = [] := by
  induction ts generalizing before with
  | nil => rfl
  | cons t ts ih =>
    obtain ⟨ht, hts⟩ := List.forall_mem_cons.mp h
    rw [declaredFrom, namesDeclaredAt_eq_nil ht, ih hts, List.nil_append]

/-- A name that is no property and no key is used as a value unless it is called. -/
theorem isValueUse_eq {previous next : Option Token} (hprevious : ∀ t ∈ previous, t.labels = false)
    (hnext : ∀ t ∈ next, t.labels = false) :
    isValueUse previous next = !next.any (·.isPunctuation .openRound) := by
  have hdot : previous.any (·.isPunctuation .dot) = false := by
    cases previous with
    | none => rfl
    | some t => exact (Bool.or_eq_false_iff.mp (hprevious t rfl)).1
  have hcolon : next.any (·.isPunctuation .colon) = false := by
    cases next with
    | none => rfl
    | some t => exact (Bool.or_eq_false_iff.mp (hnext t rfl)).2
  simp only [isValueUse, hdot, hcolon, Bool.false_and, Bool.false_or]

/-- The names used as values in the tokens, if all names are that are not called. -/
def valuesIn : List Token → List String
  | [] => []
  | t :: rest =>
    (if rest.head?.any (·.isPunctuation .openRound) then [] else t.readName?.toList) ++
      valuesIn rest

theorem valuesIn_punctuation {p : Punctuation} :
    valuesIn (.punctuation p :: ts) = valuesIn ts := by
  rw [valuesIn]
  exact congrArg (· ++ _) (ite_self _)

/-- Without properties and keys each name that may be read is used unless it is called. -/
theorem usedFrom_eq_valuesIn {previous : Option Token}
    (hprevious : ∀ t ∈ previous, t.labels = false) (hlabels : ∀ t ∈ ts, t.labels = false) :
    usedFrom previous ts = valuesIn ts := by
  induction ts generalizing previous with
  | nil => rfl
  | cons t ts ih =>
    obtain ⟨ht, hts⟩ := List.forall_mem_cons.mp hlabels
    have hlater : usedFrom (some t) ts = valuesIn ts :=
      ih (fun t' ht' => Option.some.inj ht' ▸ ht) hts
    cases t with
    | punctuation p => exact hlater.trans valuesIn_punctuation.symm
    | identifier name =>
      have huse := isValueUse_eq hprevious fun next hmem => hts next (List.mem_of_mem_head? hmem)
      rw [usedFrom, huse, hlater, valuesIn, Token.readName?]
      cases !keywords.contains name && !globals.contains name <;>
        cases ts.head?.any (·.isPunctuation .openRound) <;> rfl

/-- Without callees these are all names that may be read. -/
theorem valuesIn_eq
    (hcalls : ts.IsChain fun t next => t.readName?.isSome → next.isPunctuation .openRound = false) :
    valuesIn ts = ts.filterMap Token.readName? := by
  induction ts with
  | nil => rfl
  | cons t ts ih =>
    obtain ⟨hnext, hcalls⟩ := List.isChain_cons.mp hcalls
    rw [valuesIn, List.filterMap_cons, ih hcalls]
    cases hread : t.readName? with
    | none => exact congrArg (· ++ _) (ite_self _)
    | some name =>
      have hround : ts.head?.any (·.isPunctuation .openRound) = false := by
        cases ts with
        | nil => rfl
        | cons next ts => exact hnext next rfl (by rw [hread]; rfl)
      rw [hround]
      rfl

/-- **What a script without declarations, properties, keys and calls reads:** each name that is no
keyword and no global. -/
theorem freeNames_eq (hdeclares : ∀ t ∈ ts, t.declares = false)
    (hlabels : ∀ t ∈ ts, t.labels = false)
    (hcalls : ts.IsChain fun t next => t.readName?.isSome → next.isPunctuation .openRound = false) :
    freeNames ts = .ofList (ts.filterMap Token.readName?) := by
  have hnone : declaredNames ts = .empty := by
    rw [declaredNames, declaredFrom_eq_nil hdeclares]
    rfl
  rw [freeNames, hnone, usedFrom_eq_valuesIn (fun t ht => by cases ht) hlabels, valuesIn_eq hcalls]
  refine NameSet.ext fun name => ?_
  rw [NameSet.mem_diff]
  exact and_iff_left (NameSet.not_mem_empty name)

end PromptPipeline.JavaScript
