import PromptPipeline.Cache.Key
import PromptPipeline.Proofs.Cache.Entry
import PromptPipeline.Proofs.Files.Tree

/-!
# What the cache gives back

The key of a call is a digest, so its entry is a file in a directory of its own below that of the
cache. If there is nothing else below the directory of the cache (`IsOpen`), then an entry can
always be stored, what was stored is what one gets (`get_store`), and the directory stays as it was
in this respect (`IsOpen.store`).
-/

namespace PromptPipeline

/-! ## Keys -/

/-- A digit of a key. -/
def isKeyDigit (c : Char) : Bool :=
  c.isDigit || ('a' ≤ c && c ≤ 'f')

/-- A key as digests are: of hexadecimal digits, and of three at least. -/
structure IsCacheKey (key : String) : Prop where
  digits : ∀ c ∈ key.toList, isKeyDigit c = true
  length : 3 ≤ key.toList.length

instance (key : String) : Decidable (IsCacheKey key) :=
  decidable_of_iff (key.toList.all isKeyDigit = true ∧ 3 ≤ key.toList.length)
    ⟨fun ⟨hdigits, hlength⟩ => ⟨List.all_eq_true.mp hdigits, hlength⟩,
      fun ⟨hdigits, hlength⟩ => ⟨List.all_eq_true.mpr hdigits, hlength⟩⟩

namespace Blake3

theorem isKeyDigit_of_mem_hexByte {byte : UInt8} {c : Char} (h : c ∈ hexByte byte) :
    isKeyDigit c = true := by
  have hall : ∀ d : Fin 16, isKeyDigit d.val.digitChar = true := by decide
  have hhigh : byte.toNat / 16 < 16 := by
    have hlt := byte.toNat_lt
    omega
  simp only [hexByte, List.mem_cons, List.not_mem_nil, or_false] at h
  rcases h with rfl | rfl
  · exact hall ⟨_, hhigh⟩
  · exact hall ⟨_, Nat.mod_lt _ (by decide)⟩

theorem length_flatMap_of_forall {α β : Type} {f : α → List β} {k : Nat}
    (h : ∀ a, (f a).length = k) (l : List α) : (l.flatMap f).length = l.length * k := by
  induction l with
  | nil => simp
  | cons a l ih => rw [List.flatMap_cons, List.length_append, ih, h, List.length_cons,
      Nat.succ_mul, Nat.add_comm]

theorem length_digest (bytes : List UInt8) : (digest bytes).length = 32 := by
  unfold digest
  rw [length_flatMap_of_forall (k := 4) fun _ => rfl, Vector.length_toList]

/-- Digests are keys. -/
theorem hexDigest_isCacheKey (bytes : List UInt8) : IsCacheKey (hexDigest bytes) := by
  unfold hexDigest
  constructor
  · intro c hc
    rw [String.toList_ofList] at hc
    obtain ⟨byte, -, hc⟩ := List.mem_flatMap.mp hc
    exact isKeyDigit_of_mem_hexByte hc
  · rw [String.toList_ofList, length_flatMap_of_forall (k := 2) fun _ => rfl, length_digest]
    decide

end Blake3

theorem toNat_lt_of_isKeyDigit {c : Char} (h : isKeyDigit c = true) : c.toNat < 128 := by
  simp only [isKeyDigit, Char.isDigit, Bool.or_eq_true, Bool.and_eq_true, decide_eq_true_eq,
    Char.le_def, UInt32.le_iff_toNat_le, ge_iff_le] at h
  have hc : c.toNat = c.val.toNat := rfl
  have hnine : '9'.val.toNat = 57 := rfl
  have hf : 'f'.val.toNat = 102 := rfl
  omega

theorem utf8Size_of_isKeyDigit {c : Char} (h : isKeyDigit c = true) : c.utf8Size = 1 := by
  have hlt := toNat_lt_of_isKeyDigit h
  refine if_pos ?_
  rw [UInt32.le_iff_toNat_le]
  exact Nat.le_of_lt_succ hlt

/-- The first two digits of a key, and the others. -/
theorem IsCacheKey.exists_cons {key : String} (h : IsCacheKey key) :
    ∃ c₁ c₂ c₃ rest, key.toList = c₁ :: c₂ :: c₃ :: rest ∧
      ∀ c ∈ c₁ :: c₂ :: c₃ :: rest, isKeyDigit c = true := by
  obtain ⟨hdigits, hlength⟩ := h
  generalize key.toList = digits at hdigits hlength
  match digits with
  | [] | [_] | [_, _] => exact absurd hlength (Nat.not_le_of_lt (by simp))
  | c₁ :: c₂ :: c₃ :: rest => exact ⟨c₁, c₂, c₃, rest, rfl, hdigits⟩

theorem ne_of_isKeyDigit {c d : Char} (h : isKeyDigit c = true) (hd : isKeyDigit d = false) :
    c ≠ d := by
  rintro rfl
  rw [hd] at h
  cases h

namespace FilePath

/-- A name without slashes that does not start with a dot leads to the place of that name. -/
theorem resolve_name {name : List Char} {c : Char} (base : Location)
    (hslash : ∀ d ∈ c :: name, d ≠ '/') (hdot : c ≠ '.') :
    resolve base (.ofList (c :: name)) = base ++ [.ofList (c :: name)] := by
  have hparts : parts (.ofList (c :: name)) = [.ofList (c :: name)] := by
    unfold parts
    rw [String.toList_ofList, Text.splitWhere_of_forall fun d hd => by simpa using hslash d hd]
    rfl
  have habsolute : isAbsolute (.ofList (c :: name)) = false := by
    unfold isAbsolute
    rw [String.toList_ofList]
    simpa using hslash c List.mem_cons_self
  have hne (text : String) (h : ∀ t, text.toList ≠ c :: t) : String.ofList (c :: name) ≠ text := by
    rintro rfl
    exact h name String.toList_ofList
  unfold resolve
  rw [hparts, habsolute]
  show follow base _ = _
  unfold follow
  rw [if_neg, if_neg]
  · exact hne ".." fun t heq => hdot (List.cons.inj heq).1.symm
  · exact not_or.mpr ⟨hne "" (fun t heq => nomatch heq),
      hne "." (fun t heq => hdot (List.cons.inj heq).1.symm)⟩

end FilePath

namespace FileCache

/-- The directory of the entry of a key. -/
def shard (key : String) : String :=
  .ofList (key.toList.take 2)

/-- The file of the entry of a key. -/
def fileName (key : String) : String :=
  .ofList (key.toList.drop 2) ++ ".json"

/-- Where the entry of a key is. -/
theorem entryLocation_eq (c : FileCache) {key : String} (h : IsCacheKey key) :
    c.entryLocation key = c.location ++ [shard key, fileName key] := by
  obtain ⟨c₁, c₂, c₃, rest, hkey, hdigits⟩ := h.exists_cons
  have hsize (d : Char) (hd : d ∈ c₁ :: c₂ :: c₃ :: rest) : d.utf8Size = 1 :=
    utf8Size_of_isKeyDigit (hdigits d hd)
  have hslash (d : Char) (hd : d ∈ c₁ :: c₂ :: c₃ :: rest) : d ≠ '/' :=
    ne_of_isKeyDigit (hdigits d hd) rfl
  have hdot (d : Char) (hd : d ∈ c₁ :: c₂ :: c₃ :: rest) : d ≠ '.' :=
    ne_of_isKeyDigit (hdigits d hd) rfl
  have hsplit : splitKey 2 (c₁ :: c₂ :: c₃ :: rest) = ([c₁, c₂], c₃ :: rest) := by
    simp [splitKey, hsize]
  have hname : String.ofList (c₃ :: rest) ++ ".json" =
      .ofList (c₃ :: (rest ++ ".json".toList)) := by
    rw [← String.toList_inj]
    simp
  have hjson : ∀ d ∈ ".json".toList, d ≠ '/' := by simp
  unfold entryLocation shard fileName
  rw [hkey, hsplit]
  dsimp only [List.take, List.drop]
  rw [hname, FilePath.resolve_name, FilePath.resolve_name, List.append_assoc]
  · rfl
  · exact fun d hd => hslash d (List.mem_append_left (c₃ :: rest) hd)
  · exact hdot _ (by simp)
  · intro d hd
    rw [← List.cons_append] at hd
    rcases List.mem_append.mp hd with hd | hd
    · exact hslash d (List.mem_append_right [c₁, c₂] hd)
    · exact hjson d hd
  · exact hdot _ (by simp)

variable {c : FileCache} {files files' : FileTree} {key : String} {entry : CacheEntry}

/-! ## The directory of a cache -/

/-- The directory of the cache is there, and below it are directories and in these files, if
anything. -/
structure IsOpen (c : FileCache) (files : FileTree) : Prop where
  leads : files.Leads c.location
  shards : ∀ shard bytes, files.at? (c.location ++ [shard]) ≠ some (.file bytes)
  entries : ∀ shard name node, files.at? (c.location ++ [shard, name]) = some node →
    files.at? (c.location ++ [shard]) = some .directory ∧ node ≠ .directory

/-- The directory of the cache is there, and nothing is below it. -/
structure IsEmpty (c : FileCache) (files : FileTree) : Prop where
  leads : files.Leads c.location
  vacant : ∀ way, way ≠ [] → files.at? (c.location ++ way) = none

/-- A directory with nothing in it. -/
theorem isEmpty_singleton (name : String) :
    IsEmpty ⟨[name]⟩ ⟨[([name], .directory)]⟩ := by
  constructor
  · intro l hl
    rcases List.prefix_cons_iff.mp hl with rfl | ⟨t, rfl, ht⟩
    · rfl
    · obtain rfl := List.prefix_nil.mp ht
      simp [FileTree.at?]
  · intro way hway
    simp [FileTree.at?, hway]

theorem IsEmpty.isOpen (h : c.IsEmpty files) : c.IsOpen files := by
  refine ⟨h.leads, fun shard bytes heq => ?_, fun shard name node heq => ?_⟩
  · rw [h.vacant _ (by simp)] at heq
    cases heq
  · rw [h.vacant _ (by simp)] at heq
    cases heq

/-- There is no entry where there is no file. -/
theorem get_of_vacant (h : files.at? (c.entryLocation key) = none) :
    c.get files key = .ok none := by
  have hcontains : files.contains (c.entryLocation key) = false := by
    rw [FileTree.contains, h]
    rfl
  show (if _ then _ else _) = _
  rw [hcontains]
  rfl

/-- There is nothing in an empty cache. -/
theorem IsEmpty.get (h : c.IsEmpty files) (hkey : IsCacheKey key) : c.get files key = .ok none := by
  refine get_of_vacant ?_
  rw [c.entryLocation_eq hkey]
  exact h.vacant _ (List.cons_ne_nil _ _)

/-- The tree after an entry was stored. -/
theorem exists_store (entry : CacheEntry) (h : c.IsOpen files) (hkey : IsCacheKey entry.key) :
    ∃ files', c.store files entry = .ok files' ∧ ∀ l, files'.at? l =
      if l = c.entryLocation entry.key then some (.file (Text.utf8Bytes entry.toJson.pretty))
      else if l = c.location ++ [shard entry.key] then some .directory
      else files.at? l := by
  have hlocation := c.entryLocation_eq hkey
  have hconcat : c.location ++ [shard entry.key, fileName entry.key] =
      c.location ++ [shard entry.key] ++ [fileName entry.key] := List.append_cons _ _ _
  obtain ⟨made, hmake, hmade⟩ :=
    FileTree.exists_makeDirectories h.leads (h.shards (shard entry.key))
  have hleads : made.Leads (c.location ++ [shard entry.key]) := by
    refine FileTree.Leads.concat (h.leads.of_at? fun l' hl' => ?_) ?_
    · rw [hmade, if_neg (FileTree.ne_append_of_ancestor hl' (by simp))]
    · rw [hmade, if_pos rfl]
  have hfree : made.at? (c.location ++ [shard entry.key] ++ [fileName entry.key]) ≠
      some .directory := by
    rw [hmade, if_neg (by simp), ← hconcat]
    exact fun heq => (h.entries _ _ _ heq).2 rfl
  refine ⟨made.put (c.location ++ [shard entry.key] ++ [fileName entry.key])
    (.file (Text.utf8Bytes entry.toJson.pretty)), ?_, fun l => ?_⟩
  · unfold store
    dsimp only
    rw [hlocation, hconcat, List.dropLast_concat, hmake]
    show attempt _ (made.write _ _) = _
    rw [FileTree.write_of_leads hleads hfree]
    rfl
  · rw [FileTree.at?_put (by simp), hmade, hlocation, hconcat]

/-- An open directory is still open after an entry was stored. -/
theorem IsOpen.store (h : c.IsOpen files) (hkey : IsCacheKey entry.key)
    (hstore : c.store files entry = .ok files') : c.IsOpen files' := by
  obtain ⟨_, hthis, hat⟩ := exists_store entry h hkey
  rw [hstore] at hthis
  cases hthis
  rw [c.entryLocation_eq hkey] at hat
  refine ⟨h.leads.of_at? fun l' hl' => ?_, fun s bytes => ?_, fun s name node hnode => ?_⟩
  · rw [hat, if_neg (FileTree.ne_append_of_ancestor hl' (by simp)),
      if_neg (FileTree.ne_append_of_ancestor hl' (by simp))]
  · rw [hat, if_neg (by simp)]
    split
    · exact fun heq => nomatch heq
    · exact h.shards s bytes
  · rw [hat, if_neg (by simp)]
    rw [hat] at hnode
    split at hnode
    next heq =>
      -- the new entry
      obtain ⟨rfl, -⟩ : s = shard entry.key ∧ name = fileName entry.key := by simpa using heq
      cases hnode
      exact ⟨if_pos rfl, fun heq => nomatch heq⟩
    next =>
      rw [if_neg (by simp)] at hnode
      obtain ⟨hdirectory, hfile⟩ := h.entries s name node hnode
      refine ⟨?_, hfile⟩
      split
      · rfl
      · exact hdirectory

/-- An entry is read from the file that is at its place. -/
theorem get_of_file (h : c.IsOpen files) (hkey : IsCacheKey key) {text : String}
    (hfile : files.at? (c.entryLocation key) = some (.file (Text.utf8Bytes text)))
    {entry : CacheEntry} (hentry : CacheEntry.ofText? text = some entry) :
    c.get files key = .ok (some entry) := by
  have hcontains : files.contains (c.entryLocation key) = true := by
    rw [FileTree.contains, hfile]
    rfl
  have hread : files.readText (c.entryLocation key) = .ok text := by
    rw [c.entryLocation_eq hkey] at hfile ⊢
    have hleads := h.leads.concat (h.entries _ _ _ hfile).1
    rw [List.append_cons] at hfile ⊢
    rw [FileTree.readText_of_leads hleads hfile, Text.ofUtf8?_utf8Bytes]
  have hattempt : attempt .readEntry (files.readText (c.entryLocation key)) = .ok text := by
    rw [hread]
    rfl
  unfold get
  dsimp only
  rw [if_pos hcontains, hattempt]
  simp only [Except.bind, bind, hentry]

/-- **What was stored is what one gets.** -/
theorem get_store (entry : CacheEntry) (h : c.IsOpen files) (hkey : IsCacheKey entry.key)
    (hmoment : entry.timestamp.IsProper) (hreply : entry.reply.Storable)
    (hstore : c.store files entry = .ok files') :
    c.get files' entry.key = .ok (some { entry with reply := entry.reply.normal }) := by
  obtain ⟨_, hthis, hat⟩ := exists_store entry h hkey
  rw [hstore] at hthis
  cases hthis
  have hfile := hat (c.entryLocation entry.key)
  rw [if_pos rfl] at hfile
  exact get_of_file (h.store hkey hstore) hkey hfile (CacheEntry.ofText?_pretty hmoment hreply)

/-- In an open directory a reply can be stored, and then one gets it. -/
theorem exists_kept (h : c.IsOpen files) (hkey : IsCacheKey key) {timestamp : Moment}
    (hmoment : timestamp.IsProper) (promptTitle : String) {reply : Reply Binary64}
    (hreply : reply.Storable) :
    ∃ files', c.store files { timestamp, key, promptTitle, reply } = .ok files' ∧
      c.get files' key = .ok (some { timestamp, key, promptTitle, reply := reply.normal }) := by
  let entry : CacheEntry := { timestamp, key, promptTitle, reply }
  obtain ⟨files', hstore, -⟩ := exists_store entry h hkey
  exact ⟨files', hstore, get_store entry h hkey hmoment hreply hstore⟩

end FileCache

end PromptPipeline
