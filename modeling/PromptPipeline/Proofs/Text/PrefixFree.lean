import Mathlib.Data.List.Infix
import PromptPipeline.Digest.Blake3
import PromptPipeline.Proofs.Files.Tree

/-!
# Codes that are read off the front

A code is prefix-free if the code of a value can be told, and cut off, at the front of any list: no
continuation makes it look like the code of another value (`PrefixFree`). What a prefix-free code
makes of a list, part by part, can be taken apart again (`PrefixFree.isPrefix_or_isPrefix`). The
bytes of characters are such a code, and so are the two hexadecimal digits of a byte; so a text is
told by its bytes (`utf8Bytes_injective`), and a digest by the text of it (`hexDigest_inj`).
-/

namespace PromptPipeline

variable {α β : Type} {code : α → List β}

/-- What the code makes of a value is told apart, and cut off, at the front of any list. -/
def PrefixFree (code : α → List β) : Prop :=
  ∀ a b x y, code a ++ x = code b ++ y → a = b ∧ x = y

namespace PrefixFree

/-- A code of fixed length is prefix-free if it is injective. -/
theorem of_length {n : Nat} (hlength : ∀ a, (code a).length = n)
    (hinjective : Function.Injective code) : PrefixFree code := by
  intro a b x y heq
  have hsame : (code a).length = (code b).length := by rw [hlength, hlength]
  obtain ⟨hcode, hrest⟩ := List.append_inj heq hsame
  exact ⟨hinjective hcode, hrest⟩

/-- Of two lists whose codes start alike up to the end of one of them, one is the beginning of the
other. -/
theorem isPrefix_or_isPrefix (h : PrefixFree code) {as bs : List α} {x y : List β}
    (heq : as.flatMap code ++ x = bs.flatMap code ++ y) : as <+: bs ∨ bs <+: as := by
  induction as generalizing bs with
  | nil => exact .inl List.nil_prefix
  | cons a as ih =>
    cases bs with
    | nil => exact .inr List.nil_prefix
    | cons b bs =>
      rw [List.flatMap_cons, List.flatMap_cons, List.append_assoc, List.append_assoc] at heq
      obtain ⟨rfl, hrest⟩ := h a b _ _ heq
      rcases ih hrest with hstart | hstart
      · exact .inl ((List.prefix_cons_inj a).mpr hstart)
      · exact .inr ((List.prefix_cons_inj a).mpr hstart)

/-- A list whose beginning has the same code as the whole has nothing after it. -/
theorem eq_of_isPrefix (hne : ∀ a, code a ≠ []) {as bs : List α} (hstart : as <+: bs)
    (heq : as.flatMap code = bs.flatMap code) : as = bs := by
  obtain ⟨rest, rfl⟩ := hstart
  rw [List.flatMap_append, List.self_eq_append_right] at heq
  cases rest with
  | nil => rw [List.append_nil]
  | cons a rest =>
    have hcode := (List.append_eq_nil_iff.mp heq).1
    exact absurd hcode (hne a)

/-- A list is told by what a prefix-free code makes of its members. -/
theorem flatMap_injective (h : PrefixFree code) (hne : ∀ a, code a ≠ []) :
    Function.Injective fun as : List α => as.flatMap code := by
  intro as bs heq
  have hrest : as.flatMap code ++ [] = bs.flatMap code ++ [] := congrArg (· ++ []) heq
  rcases h.isPrefix_or_isPrefix hrest with hstart | hstart
  · exact eq_of_isPrefix hne hstart heq
  · exact (eq_of_isPrefix hne hstart heq.symm).symm

end PrefixFree

/-! ## Bytes of texts -/

namespace Text

/-- The bytes of a text are those of its characters. -/
theorem utf8Bytes_eq_flatMap (text : String) :
    utf8Bytes text = text.toList.flatMap String.utf8EncodeChar := by
  rw [utf8Bytes_eq, ← String.utf8Encode_toList, List.utf8Encode]
  simp

/-- No character has bytes that start like those of another one. -/
theorem prefixFree_utf8EncodeChar : PrefixFree String.utf8EncodeChar := by
  intro c d x y heq
  -- what is decoded at the front of the bytes is the first character
  have hdecode (c : Char) (x : List UInt8) :
      ByteArray.utf8DecodeChar? (String.utf8EncodeChar c ++ x).toByteArray 0 = some c := by
    rw [List.toByteArray_append]
    exact ByteArray.utf8DecodeChar?_utf8EncodeChar_append
  have hc := hdecode c x
  rw [heq, hdecode d y] at hc
  obtain rfl := Option.some.inj hc
  exact ⟨rfl, List.append_cancel_left heq⟩

/-- A text is told by its bytes. -/
theorem utf8Bytes_injective : Function.Injective utf8Bytes := by
  intro text text' heq
  have hsame : some text = some text' := by
    rw [← ofUtf8?_utf8Bytes, ← ofUtf8?_utf8Bytes, heq]
  exact Option.some.inj hsame

/-- Of two texts whose bytes start alike up to the end of one of them, one is the beginning of the
other. -/
theorem isPrefix_or_isPrefix_of_utf8Bytes {text text' : String} {x y : List UInt8}
    (heq : utf8Bytes text ++ x = utf8Bytes text' ++ y) :
    text.toList <+: text'.toList ∨ text'.toList <+: text.toList := by
  rw [utf8Bytes_eq_flatMap, utf8Bytes_eq_flatMap] at heq
  exact prefixFree_utf8EncodeChar.isPrefix_or_isPrefix heq

end Text

/-! ## Digests -/

namespace Blake3

theorem hexByte_injective : Function.Injective hexByte := by
  intro byte byte' heq
  have hdigit : ∀ d e : Fin 16, d.val.digitChar = e.val.digitChar → d = e := by decide
  have hbyte := byte.toNat_lt
  have hbyte' := byte'.toNat_lt
  obtain ⟨hhigh, hrest⟩ := List.cons.inj heq
  obtain ⟨hlow, -⟩ := List.cons.inj hrest
  have hhigh := hdigit ⟨byte.toNat / 16, by omega⟩ ⟨byte'.toNat / 16, by omega⟩ hhigh
  have hlow := hdigit ⟨byte.toNat % 16, by omega⟩ ⟨byte'.toNat % 16, by omega⟩ hlow
  rw [Fin.mk.injEq] at hhigh hlow
  have hsame : byte.toNat = byte'.toNat := by omega
  exact UInt8.toNat_inj.mp hsame

/-- A digest is told by the text of it. -/
theorem hexDigest_inj {bytes bytes' : List UInt8} :
    hexDigest bytes = hexDigest bytes' ↔ digest bytes = digest bytes' := by
  have hcode : PrefixFree hexByte := .of_length (n := 2) (fun _ => rfl) hexByte_injective
  constructor
  · intro heq
    have hdigits := String.ofList_injective heq
    exact hcode.flatMap_injective (fun _ => List.cons_ne_nil _ _) hdigits
  · intro heq
    unfold hexDigest
    rw [heq]

end Blake3

end PromptPipeline
