import PromptPipeline.Files.Tree

/-!
# Ways in a tree of files

Where every location on the way is a directory, the operations of the tree do what one expects of
them: `find` gives what is at the end, and `makeDirectories` adds the last directory unless it is
there. In any tree, directories that were made lead down the way and take nothing away
(`makeDirectories_eq_ok`), and a text is read as before when nothing on its way has changed
(`readText_mono`). And a text that is written to a file is read back (`ofUtf8?_utf8Bytes`).
-/

namespace PromptPipeline

/-! ## Texts as bytes -/

namespace Text

theorem toList_loop_eq (bytes : ByteArray) (i : Nat) (acc : List UInt8) :
    ByteArray.toList.loop bytes i acc = acc.reverse ++ bytes.data.toList.drop i := by
  fun_induction ByteArray.toList.loop bytes i acc with
  | case1 i acc hlt ih =>
    have hi : i < bytes.data.toList.length := hlt
    have hget : bytes.get! i = bytes.data.toList[i] := getElem!_pos bytes.data i hlt
    rw [ih, List.drop_eq_getElem_cons hi, hget]
    simp
  | case2 i acc hge =>
    have hle : bytes.data.toList.length ≤ i := Nat.le_of_not_lt hge
    rw [List.drop_eq_nil_of_le hle, List.append_nil]

theorem utf8Bytes_eq (text : String) : utf8Bytes text = text.toByteArray.data.toList := by
  show ByteArray.toList.loop text.toByteArray 0 [] = _
  rw [toList_loop_eq]
  rfl

/-- A text is what its bytes stand for. -/
theorem ofUtf8?_utf8Bytes (text : String) : ofUtf8? (utf8Bytes text) = some text := by
  unfold ofUtf8? String.fromUTF8?
  rw [utf8Bytes_eq]
  exact dif_pos text.isValidUTF8

end Text

namespace FileTree

variable {t : FileTree} {l base : Location} {name : String} {node : FileNode}

/-- The location and all those on the way to it are directories. -/
def Leads (t : FileTree) (l : Location) : Prop :=
  ∀ l', l' <+: l → t.at? l' = some .directory

theorem Leads.concat (h : t.Leads l) (hname : t.at? (l ++ [name]) = some .directory) :
    t.Leads (l ++ [name]) := by
  intro l' hl'
  rcases List.prefix_concat_iff.mp hl' with rfl | hl'
  · exact hname
  · exact h l' hl'

/-- The way to a location does not lead past what is below it. -/
theorem not_append_prefix_of_ancestor {l' way : Location} (h : l' <+: l) (hway : way ≠ []) :
    ¬l ++ way <+: l' := by
  intro hpast
  have hlength := (hpast.trans h).length_le
  have hpos := List.length_pos_iff.mpr hway
  rw [List.length_append] at hlength
  omega

/-- What is below a location is not on the way to it. -/
theorem ne_append_of_ancestor {l' way : Location} (h : l' <+: l) (hway : way ≠ []) :
    l' ≠ l ++ way := by
  rintro rfl
  exact not_append_prefix_of_ancestor h hway List.prefix_rfl

/-- What is on the way to a location stays when something below it is removed. -/
theorem at?_removeTree_of_ancestor {l' way : Location} (h : l' <+: l) (hway : way ≠ []) :
    (t.removeTree (l ++ way)).at? l' = t.at? l' := by
  have hno : ¬(l ++ way).isPrefixOf l' = true := by
    rw [List.isPrefixOf_iff_prefix]
    exact not_append_prefix_of_ancestor h hway
  rw [at?_removeTree, if_neg hno]
  split
  next hroot => rw [hroot]; rfl
  next => rfl

/-- A way stays if nothing on it changes. -/
theorem Leads.of_at? {t' : FileTree} (h : t.Leads l)
    (heq : ∀ l', l' <+: l → t'.at? l' = t.at? l') : t'.Leads l :=
  fun l' hl' => (heq l' hl').trans (h l' hl')

/-- The step from a directory to what is in it, or not. -/
theorem walk_of_leads (h : ∀ l', l' <+: l → t.at? (base ++ l') = some .directory) :
    t.walk base (l ++ [name]) =
      match t.at? (base ++ l ++ [name]) with
      | none => .error .notFound
      | some node => .ok node := by
  induction l generalizing base with
  | nil =>
    rw [List.append_nil, List.nil_append, walk]
    cases t.at? (base ++ [name]) with
    | none => rfl
    | some node => cases node <;> rfl
  | cons a l ih =>
    have ha : t.at? (base ++ [a]) = some .directory := h [a] ⟨l, rfl⟩
    rw [List.cons_append, walk, ha]
    dsimp only
    rw [ih fun l' hl' => ?_, List.append_assoc base]
    · rfl
    · rw [List.append_assoc]
      exact h (a :: l') (List.cons_prefix_cons.mpr ⟨rfl, hl'⟩)

theorem find_of_leads (h : t.Leads l) :
    t.find (l ++ [name]) =
      match t.at? (l ++ [name]) with
      | none => .error .notFound
      | some node => .ok node :=
  walk_of_leads h

theorem find_directory (h : t.Leads l) : t.find l = .ok .directory := by
  rcases List.eq_nil_or_concat l with rfl | ⟨l, name, rfl⟩
  · rfl
  · rw [List.concat_eq_append] at h ⊢
    have hl : t.Leads l := fun l' hl' => h l' (hl'.trans (List.prefix_append l [name]))
    rw [find_of_leads hl, h _ (List.prefix_refl _)]

theorem makeWay_of_leads (h : ∀ l', l' <+: l → t.at? (base ++ l') = some .directory) :
    t.makeWay base (l ++ [name]) =
      match t.at? (base ++ l ++ [name]) with
      | none => .ok (t.put (base ++ l ++ [name]) .directory)
      | some .directory => .ok t
      | some (.file _) => .error .alreadyExists := by
  induction l generalizing base with
  | nil =>
    rw [List.append_nil, List.nil_append, makeWay]
    cases t.at? (base ++ [name]) with
    | none => rfl
    | some node => cases node <;> rfl
  | cons a l ih =>
    have ha : t.at? (base ++ [a]) = some .directory := h [a] ⟨l, rfl⟩
    rw [List.cons_append, makeWay, ha]
    dsimp only
    rw [ih fun l' hl' => ?_, List.append_assoc base]
    · rfl
    · rw [List.append_assoc]
      exact h (a :: l') (List.cons_prefix_cons.mpr ⟨rfl, hl'⟩)

/-- Only the last directory of a location may have to be made. -/
theorem makeDirectories_of_leads (h : t.Leads l) :
    t.makeDirectories (l ++ [name]) =
      match t.at? (l ++ [name]) with
      | none => .ok (t.put (l ++ [name]) .directory)
      | some .directory => .ok t
      | some (.file _) => .error .alreadyExists :=
  makeWay_of_leads h

/-- Where no file is in the way, the last directory of a location is there afterwards, and all else
is as before. -/
theorem exists_makeDirectories (h : t.Leads l)
    (hfile : ∀ bytes, t.at? (l ++ [name]) ≠ some (.file bytes)) :
    ∃ t', t.makeDirectories (l ++ [name]) = .ok t' ∧
      ∀ l', t'.at? l' = if l' = l ++ [name] then some .directory else t.at? l' := by
  rw [makeDirectories_of_leads h]
  cases hnode : t.at? (l ++ [name]) with
  | none => exact ⟨_, rfl, fun l' => at?_put (by simp)⟩
  | some node =>
    cases node with
    | directory =>
      refine ⟨t, rfl, fun l' => ?_⟩
      split
      next heq => rw [heq, hnode]
      next => rfl
    | file bytes => exact absurd hnode (hfile bytes)

/-- A file is written into a directory, unless a directory is in its place. -/
theorem write_of_leads (h : t.Leads l) (hnode : t.at? (l ++ [name]) ≠ some .directory)
    (bytes : List UInt8) :
    t.write (l ++ [name]) bytes = .ok (t.put (l ++ [name]) (.file bytes)) := by
  have hfile : t.isDirectory (l ++ [name]) = false := by
    rw [isDirectory, beq_eq_false_iff_ne]
    exact hnode
  unfold write
  rw [List.dropLast_concat, find_directory h]
  show (if _ then _ else _) = _
  rw [hfile]
  rfl

/-- A file is removed from a directory with what is at its place. -/
theorem removeFile_of_leads (h : t.Leads l) {bytes : List UInt8}
    (hnode : t.at? (l ++ [name]) = some (.file bytes)) :
    t.removeFile (l ++ [name]) = .ok (t.removeTree (l ++ [name])) := by
  unfold removeFile
  rw [find_of_leads h, hnode]
  rfl

/-- A directory that was removed with all that is in it can be made again, and is empty. -/
theorem exists_recreate (h : t.Leads l) :
    ∃ t', (t.removeTree l).makeDirectories l = .ok t' ∧ t'.Leads l ∧
      ∀ way, way ≠ [] → t'.at? (l ++ way) = none := by
  have hbelow (way : Location) (hway : way ≠ []) : (t.removeTree l).at? (l ++ way) = none := by
    rw [at?_removeTree, if_neg (by simp [hway]), if_pos (by simp)]
  rcases List.eq_nil_or_concat l with rfl | ⟨base, name, rfl⟩
  · exact ⟨_, rfl, fun l' hl' => by rw [List.prefix_nil.mp hl']; rfl, hbelow⟩
  · rw [List.concat_eq_append] at h hbelow ⊢
    have hbase : (t.removeTree (base ++ [name])).Leads base := by
      intro l' hl'
      rw [at?_removeTree_of_ancestor hl' (by simp)]
      exact h l' (hl'.trans (List.prefix_append _ _))
    have hfile (bytes : List UInt8) :
        (t.removeTree (base ++ [name])).at? (base ++ [name]) ≠ some (.file bytes) := by
      rw [at?_removeTree, if_neg (by simp), if_pos (by simp)]
      exact fun heq => nomatch heq
    obtain ⟨t', hmake, hat⟩ := exists_makeDirectories hbase hfile
    refine ⟨t', hmake, Leads.concat (hbase.of_at? fun l' hl' => ?_) ?_, fun way hway => ?_⟩
    · rw [hat, if_neg (ne_append_of_ancestor hl' (by simp))]
    · rw [hat, if_pos rfl]
    · rw [hat, if_neg (by simpa using hway)]
      exact hbelow way hway

/-- The text of a file that is in a directory. -/
theorem readText_of_leads (h : t.Leads l) {bytes : List UInt8}
    (hnode : t.at? (l ++ [name]) = some (.file bytes)) :
    t.readText (l ++ [name]) =
      match Text.ofUtf8? bytes with
      | some text => .ok text
      | none => .error .notText := by
  unfold readText read
  rw [find_of_leads h, hnode]
  rfl

/-! ## Trees that grow -/

/-- What is in one tree is in the other one, at the same location. -/
def Extends (t' t : FileTree) : Prop :=
  ∀ l node, t.at? l = some node → t'.at? l = some node

/-- Something new is put where nothing was. -/
theorem extends_put (hl : l ≠ []) (hnone : t.at? l = none) : (t.put l node).Extends t := by
  intro l' node' hnode
  have hne : l' ≠ l := by
    rintro rfl
    rw [hnone] at hnode
    cases hnode
  rw [at?_put hl, if_neg hne]
  exact hnode

/-- Making the directories of a way leads down it, and adds directories only. -/
theorem makeWay_eq_ok {t' : FileTree} (h : t.makeWay base l = .ok t') :
    (∀ l', l' <+: l → l' ≠ [] → t'.at? (base ++ l') = some .directory) ∧ t'.Extends t := by
  induction l generalizing t base with
  | nil =>
    cases h
    exact ⟨fun l' hl' hne => absurd (List.prefix_nil.mp hl') hne, fun _ _ hnode => hnode⟩
  | cons name l ih =>
    have hbelow {t : FileTree} (hname : t.at? (base ++ [name]) = some .directory)
        (h : t.makeWay (base ++ [name]) l = .ok t') :
        (∀ l', l' <+: name :: l → l' ≠ [] → t'.at? (base ++ l') = some .directory) ∧
          t'.Extends t := by
      obtain ⟨hway, hextends⟩ := ih h
      refine ⟨fun l' hl' hne => ?_, hextends⟩
      rcases List.prefix_cons_iff.mp hl' with rfl | ⟨way, rfl, hprefix⟩
      · exact absurd rfl hne
      · rcases List.eq_nil_or_concat way with rfl | ⟨_, _, rfl⟩
        · exact hextends _ _ hname
        · rw [List.append_cons]
          exact hway _ hprefix (by simp)
    rw [makeWay] at h
    split at h
    next hnone =>
      obtain ⟨hway, hextends⟩ := hbelow (by rw [at?_put (by simp), if_pos rfl]) h
      exact ⟨hway,
        fun l' node hnode => hextends l' node (extends_put (by simp) hnone l' node hnode)⟩
    next hname => exact hbelow hname h
    next => cases h

/-- After directories were made they are there, and all else is as before. -/
theorem makeDirectories_eq_ok {t' : FileTree} (h : t.makeDirectories l = .ok t') :
    t'.Leads l ∧ t'.Extends t := by
  obtain ⟨hway, hextends⟩ := makeWay_eq_ok h
  refine ⟨fun l' hl' => ?_, hextends⟩
  rcases List.eq_nil_or_concat l' with rfl | ⟨_, _, rfl⟩
  · rfl
  · exact hway _ hl' (by simp)

/-- To write is to put a file, below the root. -/
theorem write_eq_ok {t' : FileTree} {bytes : List UInt8} (h : t.write l bytes = .ok t') :
    l ≠ [] ∧ t' = t.put l (.file bytes) := by
  unfold write at h
  cases hfind : t.find l.dropLast with
  | error fault =>
    rw [hfind] at h
    cases h
  | ok node =>
    rw [hfind] at h
    cases node with
    | file => cases h
    | directory =>
      change (if _ then _ else _) = _ at h
      split at h
      next => cases h
      next hfree =>
        cases h
        refine ⟨?_, rfl⟩
        rintro rfl
        exact hfree rfl

/-- What is found at the end of a way is found there, as long as nothing on the way changes. -/
theorem walk_mono {t' : FileTree} (h : ∀ l', l' <+: l → l' ≠ [] → ∀ node,
      t.at? (base ++ l') = some node → t'.at? (base ++ l') = some node)
    (hwalk : t.walk base l = .ok node) : t'.walk base l = .ok node := by
  induction l generalizing base with
  | nil => exact hwalk
  | cons name l ih =>
    have hname := h [name] ⟨l, rfl⟩ (by simp)
    rw [walk] at hwalk ⊢
    cases hfirst : t.at? (base ++ [name]) with
    | none =>
      rw [hfirst] at hwalk
      cases hwalk
    | some first =>
      rw [hfirst] at hwalk
      rw [hname first hfirst]
      cases first with
      | file => exact hwalk
      | directory =>
        refine ih (fun l' hl' hne node hnode => ?_) hwalk
        rw [List.append_assoc] at hnode ⊢
        exact h (name :: l') (List.cons_prefix_cons.mpr ⟨rfl, hl'⟩) (by simp) node hnode

/-- A text is still read when nothing on the way to its file has changed. -/
theorem readText_mono {t' : FileTree} {text : String}
    (h : ∀ l', l' <+: l → ∀ node, t.at? l' = some node → t'.at? l' = some node)
    (hread : t.readText l = .ok text) : t'.readText l = .ok text := by
  cases hfind : t.find l with
  | error fault =>
    unfold readText read at hread
    rw [hfind] at hread
    cases hread
  | ok node =>
    have hwalk : t.walk [] l = .ok node := hfind
    have hfind' : t'.find l = .ok node := walk_mono (fun l' hl' _ => h l' hl') hwalk
    unfold readText read at hread ⊢
    rw [hfind] at hread
    rw [hfind']
    exact hread

end FileTree

end PromptPipeline
