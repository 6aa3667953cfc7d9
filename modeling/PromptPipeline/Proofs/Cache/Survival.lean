import PromptPipeline.Proofs.Cache.Map

/-!
# Entries in a directory of any kind

The directory of a cache may hold anything: files that are no entries, directories in their place,
entries that were cut short. What counts is which entries can be read (`recalled?`). An entry that
was stored can be (`recalled?_of_store`), and an entry of another key that could be read before
still can (`recalled?_of_store_of_ne`). Nothing is asked of the directory but that the entry was
stored at all.
-/

namespace PromptPipeline.FileCache

variable {c : FileCache} {files files' : FileTree} {key : String} {entry entry' : CacheEntry}

/-- The entry of a key, if there is one that can be read. -/
def recalled? (c : FileCache) (files : FileTree) (key : String) : Option CacheEntry :=
  match c.get files key with
  | .ok entry => entry
  | .error _ => none

theorem get_eq_some_iff :
    c.get files key = .ok (some entry) ↔ c.recalled? files key = some entry := by
  unfold recalled?
  cases c.get files key <;> simp

/-- Nothing is recalled where there is no entry, and where what is there cannot be read. -/
theorem recalled?_eq_none_iff : c.recalled? files key = none ↔
    c.get files key = .ok none ∨ ∃ e, c.get files key = .error e := by
  unfold recalled?
  cases c.get files key <;> simp

/-- To recall an entry is to read it from the text at its place. -/
theorem recalled?_eq_some_iff : c.recalled? files key = some entry ↔
    files.contains (c.entryLocation key) = true ∧
      ∃ text, files.readText (c.entryLocation key) = .ok text ∧
        CacheEntry.ofText? text = some entry := by
  rw [← get_eq_some_iff]
  unfold get
  dsimp only
  split
  next hcontains =>
    rw [bind_eq_ok_iff]
    simp only [attempt_eq_ok_iff]
    refine ⟨fun ⟨text, hread, hentry⟩ => ⟨hcontains, text, hread, ?_⟩,
      fun ⟨_, text, hread, hentry⟩ => ⟨text, hread, by rw [hentry]⟩⟩
    split at hentry
    next heq =>
      cases hentry
      exact heq
    next => cases hentry
  next hcontains =>
    constructor
    · intro h
      cases h
    · exact fun h => absurd h.1 hcontains

/-- An entry that was stored was written into a directory, which was made if it was not there. -/
theorem exists_of_store (h : c.store files entry = .ok files') :
    ∃ made : FileTree, made.Leads (c.entryLocation entry.key).dropLast ∧ made.Extends files ∧
      c.entryLocation entry.key ≠ [] ∧
      files' = made.put (c.entryLocation entry.key)
        (.file (Text.utf8Bytes entry.toJson.pretty)) := by
  unfold store at h
  obtain ⟨made, hmake, hwrite⟩ := bind_eq_ok_iff.mp h
  obtain ⟨hleads, hextends⟩ := FileTree.makeDirectories_eq_ok (attempt_eq_ok_iff.mp hmake)
  obtain ⟨hne, rfl⟩ := FileTree.write_eq_ok (attempt_eq_ok_iff.mp hwrite)
  exact ⟨made, hleads, hextends, hne, rfl⟩

/-- **An entry that was stored can be read**, if it survives its text. -/
theorem recalled?_of_store (h : c.store files entry = .ok files') (hkey : IsCacheKey entry.key)
    (hentry : CacheEntry.ofText? entry.toJson.pretty = some entry') :
    c.recalled? files' entry.key = some entry' := by
  obtain ⟨made, hleads, -, hne, rfl⟩ := exists_of_store h
  rw [recalled?_eq_some_iff]
  rw [c.entryLocation_eq hkey, List.append_cons] at hleads hne ⊢
  rw [List.dropLast_concat] at hleads
  have hfile : ∀ node, (made.put (c.location ++ [shard entry.key] ++ [fileName entry.key])
      node).at? (c.location ++ [shard entry.key] ++ [fileName entry.key]) = some node :=
    fun node => by rw [FileTree.at?_put hne, if_pos rfl]
  have hway : (made.put (c.location ++ [shard entry.key] ++ [fileName entry.key])
      (.file (Text.utf8Bytes entry.toJson.pretty))).Leads (c.location ++ [shard entry.key]) := by
    refine hleads.of_at? fun l' hl' => ?_
    rw [FileTree.at?_put hne, if_neg (FileTree.ne_append_of_ancestor hl' (by simp))]
  refine ⟨?_, entry.toJson.pretty, ?_, hentry⟩
  · rw [FileTree.contains, hfile]
    rfl
  · rw [FileTree.readText_of_leads hway (hfile _), Text.ofUtf8?_utf8Bytes]

/-- **An entry of another key stays**, wherever it could be read. -/
theorem recalled?_of_store_of_ne (h : c.store files entry = .ok files')
    (hstored : IsCacheKey entry.key) (hkey : IsCacheKey key) (hne : key ≠ entry.key)
    (hrecall : c.recalled? files key = some entry') : c.recalled? files' key = some entry' := by
  obtain ⟨made, -, hextends, hroot, rfl⟩ := exists_of_store h
  obtain ⟨hcontains, text, hread, hentry⟩ := recalled?_eq_some_iff.mp hrecall
  -- The two places are equally deep, so that neither is on the way to the other one.
  have hother : ¬c.entryLocation entry.key <+: c.entryLocation key := by
    rw [c.entryLocation_eq hkey, c.entryLocation_eq hstored]
    intro hprefix
    have heq := hprefix.eq_of_length (by simp)
    obtain ⟨hshard, hname⟩ : shard entry.key = shard key ∧ fileName entry.key = fileName key := by
      simpa using heq
    exact hne (eq_of_place hshard hname).symm
  have hsame : ∀ l', l' <+: c.entryLocation key → ∀ node, files.at? l' = some node →
      (made.put (c.entryLocation entry.key) (.file (Text.utf8Bytes entry.toJson.pretty))).at? l' =
        some node := by
    intro l' hl' node hnode
    have hplace : l' ≠ c.entryLocation entry.key := by
      rintro rfl
      exact hother hl'
    rw [FileTree.at?_put hroot, if_neg hplace]
    exact hextends l' node hnode
  refine recalled?_eq_some_iff.mpr ⟨?_, text, FileTree.readText_mono hsame hread, hentry⟩
  obtain ⟨node, hnode⟩ := Option.isSome_iff_exists.mp hcontains
  rw [FileTree.contains, hsame _ List.prefix_rfl node hnode]
  rfl

end PromptPipeline.FileCache
