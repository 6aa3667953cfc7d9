import PromptPipeline.Proofs.Cache.Request
import PromptPipeline.Proofs.Files.Listing
import PromptPipeline.Proofs.Result

/-!
# A cache is a finite map

A cache that starts with an empty directory answers every request as a finite map from keys to
entries would (`FileCache.refines_map`). The relation between the two is `Holds`: below the
directory of the cache there is one file for each entry of the map, and no other file. A key is told
by its place (`eq_of_place`), so a request for one key is about one file, and changes both sides at
this key only (`Holds.change`); and a listing shows each file once, so the files that are counted
are the keys of the map.
-/

namespace PromptPipeline

namespace FileCache

/-- Serves one request. -/
def serve (c : FileCache) (files : FileTree) : CacheRequest → Result (CacheAnswer × FileTree)
  | .store entry => (c.store files entry).map fun files => (.done, files)
  | .get key => (c.get files key).map fun entry => (.found entry, files)
  | .invalidate key => (c.invalidate files key).map fun files => (.done, files)
  | .clear => (c.clear files).map fun files => (.done, files)
  | .stats => (c.stats files).map fun stats => (.counted stats.entries, files)

/-- Serves requests one after the other, up to the first that fails. -/
def serveAll (c : FileCache) (files : FileTree) :
    List CacheRequest → Result (List CacheAnswer × FileTree)
  | [] => .ok ([], files)
  | r :: rest => do
    let (answer, files) ← c.serve files r
    let (answers, files) ← c.serveAll files rest
    .ok (answer :: answers, files)

/-! ## Places -/

/-- A key is told by the place of its entry. -/
theorem eq_of_place {key key' : String} (hshard : shard key = shard key')
    (hname : fileName key = fileName key') : key = key' := by
  have htake : key.toList.take 2 = key'.toList.take 2 := String.ofList_injective hshard
  have hdrop : key.toList.drop 2 = key'.toList.drop 2 := by
    have htext := congrArg String.toList hname
    simpa [fileName] using htext
  rw [← String.toList_inj, ← List.take_append_drop 2 key.toList, htake, hdrop,
    List.take_append_drop]

/-- The file of an entry has the extension by which entries are told. -/
theorem hasExtension_fileName {key : String} (h : IsCacheKey key) :
    hasExtension "json" (fileName key) = true := by
  obtain ⟨c₁, c₂, c₃, rest, hkey, -⟩ := h.exists_cons
  have hname : (fileName key).toList = (c₃ :: rest) ++ '.' :: "json".toList := by
    rw [fileName, hkey, String.toList_append, String.toList_ofList]
    rfl
  rw [hasExtension, hname, Text.dropEnd?_append]

variable {c : FileCache} {files files' : FileTree} {m : CacheMap} {key : String}
  {entry : CacheEntry}

/-! ## The files of the entries -/

/-- Below the directory of the cache there are the files of the entries of the map, each once, and
no others. -/
structure Holds (c : FileCache) (files : FileTree) (m : CacheMap) : Prop where
  isOpen : c.IsOpen files
  unrepeated : files.Unrepeated c.location
  lasting : ∀ key entry, m.get? key = some entry → entry.key = key ∧ entry.Lasting
  place : ∀ directory name node, files.at? (c.location ++ [directory, name]) = some node ↔
    ∃ key entry, m.get? key = some entry ∧ directory = shard key ∧ name = fileName key ∧
      node = .file (Text.utf8Bytes entry.toJson.pretty)

/-- An empty directory holds the empty map. -/
theorem IsEmpty.holds (h : c.IsEmpty files) : c.Holds files .empty := by
  refine ⟨h.isOpen, FileTree.unrepeated_of_vacant h.vacant, fun _ _ heq => (nomatch heq),
    fun directory name node => ?_⟩
  rw [h.vacant _ (by simp)]
  constructor
  · rintro ⟨⟩
  · rintro ⟨_, _, ⟨⟩, _⟩

/-- What is at the place of a key is the entry of this key. -/
theorem Holds.at?_iff (h : c.Holds files m) (hkey : IsCacheKey key) {node : FileNode} :
    files.at? (c.entryLocation key) = some node ↔
      ∃ entry, m.get? key = some entry ∧ node = .file (Text.utf8Bytes entry.toJson.pretty) := by
  rw [c.entryLocation_eq hkey, h.place]
  constructor
  · rintro ⟨key', entry, hentry, hshard, hname, hnode⟩
    obtain rfl := eq_of_place hshard hname
    exact ⟨entry, hentry, hnode⟩
  · rintro ⟨entry, hentry, hnode⟩
    exact ⟨key, entry, hentry, rfl, rfl, hnode⟩

theorem Holds.at?_eq_none (h : c.Holds files m) (hkey : IsCacheKey key)
    (hentry : m.get? key = none) : files.at? (c.entryLocation key) = none := by
  refine Option.eq_none_iff_forall_ne_some.mpr fun node hnode => ?_
  obtain ⟨entry, hsome, -⟩ := (h.at?_iff hkey).mp hnode
  rw [hentry] at hsome
  cases hsome

/-! ## Requests for one key -/

theorem Holds.get (h : c.Holds files m) (hkey : IsCacheKey key) :
    c.get files key = .ok (m.get? key) := by
  cases hentry : m.get? key with
  | none => exact get_of_vacant (h.at?_eq_none hkey hentry)
  | some entry =>
    have hfile := (h.at?_iff hkey).mpr ⟨entry, hentry, rfl⟩
    exact get_of_file h.isOpen hkey hfile (h.lasting key entry hentry).2.ofText?_pretty

theorem attempt_eq_ok_iff {α : Type} {action : CacheAction} {r : Except FileFault α} {a : α} :
    attempt action r = .ok a ↔ r = .ok a := by
  cases r <;> simp [attempt, Except.mapError]

theorem unrepeated_of_store {l : Location} (h : files.Unrepeated l)
    (hstore : c.store files entry = .ok files') : files'.Unrepeated l := by
  unfold FileCache.store at hstore
  obtain ⟨made, hmake, hwrite⟩ := bind_eq_ok_iff.mp hstore
  exact (h.makeDirectories (attempt_eq_ok_iff.mp hmake)).write (attempt_eq_ok_iff.mp hwrite)

/-- Where the files and the map change at one key only, and in the same way, the files still hold
the map. -/
theorem Holds.change (h : c.Holds files m) {m' : CacheMap} (new : Option CacheEntry)
    (hopen : c.IsOpen files') (hunrepeated : files'.Unrepeated c.location)
    (hnew : ∀ entry, new = some entry → entry.key = key ∧ entry.Lasting)
    (hget : ∀ name, m'.get? name = if name = key then new else m.get? name)
    (hat : ∀ directory name, files'.at? (c.location ++ [directory, name]) =
      if directory = shard key ∧ name = fileName key then
        new.map fun entry => .file (Text.utf8Bytes entry.toJson.pretty)
      else files.at? (c.location ++ [directory, name])) : c.Holds files' m' := by
  refine ⟨hopen, hunrepeated, fun name e he => ?_, fun directory name node => ?_⟩
  · rw [hget] at he
    split at he
    next heq =>
      rw [heq]
      exact hnew e he
    next => exact h.lasting name e he
  · rw [hat]
    simp only [hget]
    split
    next hplace =>
      -- at the place of the key, no other key has its entry
      rw [Option.map_eq_some_iff]
      constructor
      · rintro ⟨e, he, rfl⟩
        exact ⟨key, e, by rw [if_pos rfl, he], hplace.1, hplace.2, rfl⟩
      · rintro ⟨key', e, he, hshard, hname, rfl⟩
        have hkey : key' = key := eq_of_place (hshard.symm.trans hplace.1)
          (hname.symm.trans hplace.2)
        rw [if_pos hkey] at he
        exact ⟨e, he, rfl⟩
    next hplace =>
      -- at another place, there is the entry of another key
      rw [h.place]
      refine exists_congr fun key' => exists_congr fun e => and_congr_left ?_
      rintro ⟨hshard, hname, -⟩
      rw [if_neg]
      rintro rfl
      exact hplace ⟨hshard, hname⟩

theorem Holds.store (h : c.Holds files m) (hentry : entry.Lasting) :
    ∃ files', c.store files entry = .ok files' ∧ c.Holds files' (m.insert entry.key entry) := by
  obtain ⟨files', hstore, hat⟩ := exists_store entry h.isOpen hentry.key
  refine ⟨files', hstore, h.change (some entry) (h.isOpen.store hentry.key hstore)
    (unrepeated_of_store h.unrepeated hstore) (fun e he => ?_) (fun _ => Bindings.get?_insert)
    fun directory name => ?_⟩
  · cases he
    exact ⟨rfl, hentry⟩
  · have hplace : c.location ++ [directory, name] = c.entryLocation entry.key ↔
        directory = shard entry.key ∧ name = fileName entry.key := by
      simp [c.entryLocation_eq hentry.key]
    have hne : c.location ++ [directory, name] ≠ c.location ++ [shard entry.key] := by simp
    rw [hat, if_neg hne]
    simp only [hplace, Option.map_some]

/-- What is beside the place of an entry, or above it, is not removed with it. -/
theorem at?_removeEntry (hkey : IsCacheKey key) {way : Location} (hway : way.length ≤ 2) :
    (files.removeTree (c.entryLocation key)).at? (c.location ++ way) =
      if way = [shard key, fileName key] then none else files.at? (c.location ++ way) := by
  have hpre : (c.entryLocation key).isPrefixOf (c.location ++ way) = true ↔
      way = [shard key, fileName key] := by
    rw [List.isPrefixOf_iff_prefix, c.entryLocation_eq hkey, List.prefix_append_right_inj]
    constructor
    · exact fun h => (h.eq_of_length_le hway).symm
    · rintro rfl
      exact List.prefix_rfl
  rw [FileTree.at?_removeTree]
  simp only [hpre]
  by_cases hroot : c.location ++ way = []
  · obtain ⟨-, rfl⟩ := List.append_eq_nil_iff.mp hroot
    rw [if_pos hroot, if_neg (by simp), FileTree.at?, if_pos hroot]
  · rw [if_neg hroot]

/-- The directory is still open after an entry was removed. -/
theorem IsOpen.removeEntry (h : c.IsOpen files) (hkey : IsCacheKey key) :
    c.IsOpen (files.removeTree (c.entryLocation key)) := by
  refine ⟨h.leads.of_at? fun l' hl' => ?_, fun directory bytes => ?_,
    fun directory name node hnode => ?_⟩
  · rw [c.entryLocation_eq hkey]
    exact FileTree.at?_removeTree_of_ancestor hl' (by simp)
  · rw [at?_removeEntry hkey (by simp), if_neg (by simp)]
    exact h.shards directory bytes
  · rw [at?_removeEntry hkey (by simp)] at hnode
    rw [at?_removeEntry hkey (by simp), if_neg (by simp)]
    split at hnode
    next => cases hnode
    next => exact h.entries directory name node hnode

theorem Holds.invalidate (h : c.Holds files m) (hkey : IsCacheKey key) :
    ∃ files', c.invalidate files key = .ok files' ∧ c.Holds files' (m.erase key) := by
  have hnew : ∀ entry, (none : Option CacheEntry) = some entry → entry.key = key ∧ entry.Lasting :=
    fun _ heq => nomatch heq
  unfold FileCache.invalidate
  dsimp only
  cases hentry : m.get? key with
  | none =>
    -- nothing is there, and nothing changes
    have hvacant := h.at?_eq_none hkey hentry
    have hcontains : files.contains (c.entryLocation key) = false := by
      rw [FileTree.contains, hvacant]
      rfl
    rw [hcontains]
    refine ⟨files, rfl, h.change none h.isOpen h.unrepeated hnew (fun _ => Bindings.get?_erase)
      fun directory name => ?_⟩
    split
    next hplace =>
      rw [hplace.1, hplace.2, ← c.entryLocation_eq hkey]
      exact hvacant
    next => rfl
  | some entry =>
    have hfile := (h.at?_iff hkey).mpr ⟨entry, hentry, rfl⟩
    have hcontains : files.contains (c.entryLocation key) = true := by
      rw [FileTree.contains, hfile]
      rfl
    have hremove : files.removeFile (c.entryLocation key) =
        .ok (files.removeTree (c.entryLocation key)) := by
      rw [c.entryLocation_eq hkey] at hfile ⊢
      have hleads := h.isOpen.leads.concat (h.isOpen.entries _ _ _ hfile).1
      rw [List.append_cons] at hfile ⊢
      exact FileTree.removeFile_of_leads hleads hfile
    rw [if_pos hcontains, hremove]
    refine ⟨files.removeTree (c.entryLocation key), rfl, h.change none (h.isOpen.removeEntry hkey)
      (h.unrepeated.removeTree _) hnew (fun _ => Bindings.get?_erase) fun directory name => ?_⟩
    rw [at?_removeEntry hkey (by simp)]
    simp only [List.cons.injEq, and_true, Option.map_none]

/-! ## Requests for all keys -/

/-- A cache that is cleared has an empty directory. -/
theorem exists_clear (h : files.Leads c.location) :
    ∃ files', c.clear files = .ok files' ∧ c.IsEmpty files' := by
  obtain ⟨files', hmake, hleads, hvacant⟩ := FileTree.exists_recreate h
  have hnode := h c.location (List.prefix_refl _)
  have hcontains : files.contains c.location = true := by
    rw [FileTree.contains, hnode]
    rfl
  have hdirectory : files.isDirectory c.location = true := by
    rw [FileTree.isDirectory, hnode]
    rfl
  refine ⟨files', ?_, hleads, hvacant⟩
  unfold FileCache.clear
  rw [if_pos hcontains, if_pos hdirectory, hmake]
  rfl

/-- The entry in a file of a directory below that of the cache, if there is one. -/
def entryIn? : String × FileNode → Option CacheEntry
  | (name, .file bytes) =>
    if hasExtension "json" name then (Text.ofUtf8? bytes).bind CacheEntry.ofText? else none
  | (_, .directory) => none

/-- The entries in a directory below that of the cache. -/
def entriesIn (c : FileCache) (files : FileTree) : String × FileNode → List CacheEntry
  | (directory, .directory) => (files.children (c.location ++ [directory])).filterMap entryIn?
  | (_, .file _) => []

theorem entries_of_isOpen (h : c.IsOpen files) :
    c.entries files = .ok ((files.children c.location).flatMap (c.entriesIn files)) := by
  unfold entries
  rw [h.leads c.location (List.prefix_refl _)]
  refine congrArg Except.ok (congrArg (List.flatMap · _) (funext fun e => ?_))
  obtain ⟨directory, node⟩ := e
  cases node with
  | file bytes => rfl
  | directory =>
    refine congrArg (List.filterMap · _) (funext fun e => ?_)
    obtain ⟨name, node⟩ := e
    cases node <;> rfl

/-- A directory below that of the cache has the entries whose keys name it, each in the file that
its key names. -/
theorem Holds.entryIn?_eq_some_iff (h : c.Holds files m) {directory name : String}
    {node : FileNode} (hnode : files.at? (c.location ++ [directory, name]) = some node) :
    entryIn? (name, node) = some entry ↔
      m.get? entry.key = some entry ∧ directory = shard entry.key ∧ name = fileName entry.key := by
  obtain ⟨key, e, he, rfl, rfl, rfl⟩ := (h.place _ _ _).mp hnode
  obtain ⟨rfl, hlasting⟩ := h.lasting key e he
  have hread : entryIn? (fileName e.key, .file (Text.utf8Bytes e.toJson.pretty)) = some e := by
    show (if _ then _ else _) = _
    rw [hasExtension_fileName hlasting.key, if_pos rfl, Text.ofUtf8?_utf8Bytes, Option.bind_some,
      hlasting.ofText?_pretty]
  rw [hread, Option.some.injEq]
  constructor
  · rintro rfl
    exact ⟨he, rfl, rfl⟩
  · rintro ⟨hentry, hshard, hname⟩
    rw [eq_of_place hshard hname, hentry] at he
    exact (Option.some.inj he).symm

theorem Holds.mem_children_iff (h : c.Holds files m) {directory name : String} {node : FileNode} :
    (name, node) ∈ files.children (c.location ++ [directory]) ↔
      files.at? (c.location ++ [directory, name]) = some node := by
  rw [FileTree.mem_children_iff (h.unrepeated.below [directory]), List.append_assoc]
  rfl

theorem Holds.mem_entriesIn_iff (h : c.Holds files m) {directory : String} {node : FileNode}
    (hnode : files.at? (c.location ++ [directory]) = some node) :
    entry ∈ c.entriesIn files (directory, node) ↔
      m.get? entry.key = some entry ∧ directory = shard entry.key := by
  cases node with
  | file bytes => exact absurd hnode (h.isOpen.shards directory bytes)
  | directory =>
    show entry ∈ List.filterMap entryIn? _ ↔ _
    rw [List.mem_filterMap]
    constructor
    · rintro ⟨⟨name, node⟩, hmem, heq⟩
      obtain ⟨hentry, hshard, -⟩ := (h.entryIn?_eq_some_iff (h.mem_children_iff.mp hmem)).mp heq
      exact ⟨hentry, hshard⟩
    · rintro ⟨hentry, rfl⟩
      have hfile := (h.place _ _ _).mpr ⟨entry.key, entry, hentry, rfl, rfl, rfl⟩
      exact ⟨_, h.mem_children_iff.mpr hfile,
        (h.entryIn?_eq_some_iff hfile).mpr ⟨hentry, rfl, rfl⟩⟩

/-- The entries that are listed are those of the map. -/
theorem Holds.mem_entries_iff (h : c.Holds files m) :
    entry ∈ (files.children c.location).flatMap (c.entriesIn files) ↔
      m.get? entry.key = some entry := by
  rw [List.mem_flatMap]
  constructor
  · rintro ⟨⟨directory, node⟩, hmem, hentry⟩
    exact ((h.mem_entriesIn_iff ((FileTree.mem_children_iff h.unrepeated).mp hmem)).mp hentry).1
  · intro hentry
    have hfile := (h.place _ _ _).mpr ⟨entry.key, entry, hentry, rfl, rfl, rfl⟩
    have hdirectory := (h.isOpen.entries _ _ _ hfile).1
    exact ⟨_, (FileTree.mem_children_iff h.unrepeated).mpr hdirectory,
      (h.mem_entriesIn_iff hdirectory).mpr ⟨hentry, rfl⟩⟩

/-- No two of the entries that are listed have one key. -/
theorem Holds.entries_pairwise (h : c.Holds files m) :
    ((files.children c.location).flatMap (c.entriesIn files)).Pairwise
      fun e e' => e.key ≠ e'.key := by
  refine List.pairwise_flatMap.mpr ⟨?_, ?_⟩
  · rintro ⟨directory, node⟩ hmem
    cases node with
    | file bytes => exact .nil
    | directory =>
      -- in one directory, different files
      have hnames := FileTree.children_pairwise (h.unrepeated.below [directory])
      refine List.Pairwise.filterMap _ ?_ (List.Pairwise.and_mem.mp hnames)
      rintro ⟨name, node⟩ ⟨name', node'⟩ ⟨hfile, hfile', hne⟩ e he e' he' heq
      have hname := ((h.entryIn?_eq_some_iff (h.mem_children_iff.mp hfile)).mp he).2.2
      have hname' := ((h.entryIn?_eq_some_iff (h.mem_children_iff.mp hfile')).mp he').2.2
      exact hne (by rw [hname, hname', heq])
  · -- in different directories
    refine (FileTree.children_pairwise h.unrepeated).imp_of_mem ?_
    intro d d' hd hd' hne e he e' he' heq
    have hshard := ((h.mem_entriesIn_iff ((FileTree.mem_children_iff h.unrepeated).mp hd)).mp he).2
    have hshard' :=
      ((h.mem_entriesIn_iff ((FileTree.mem_children_iff h.unrepeated).mp hd')).mp he').2
    exact hne (by rw [hshard, hshard', heq])

/-- As many entries are counted as the map has keys. -/
theorem Holds.stats (h : c.Holds files m) :
    ∃ stats, c.stats files = .ok stats ∧ stats.entries = m.size := by
  let entries := (files.children c.location).flatMap (c.entriesIn files)
  have hentries : c.entries files = .ok entries := entries_of_isOpen h.isOpen
  have hnodup : (entries.map (·.key)).Nodup := List.pairwise_map.mpr h.entries_pairwise
  have hmem (key : String) : key ∈ entries.map (·.key) ↔ key ∈ m.keys := by
    simp only [Bindings.keys, List.mem_map]
    constructor
    · rintro ⟨entry, hentry, rfl⟩
      exact ⟨_, Bindings.get?_eq_some_iff_mem.mp (h.mem_entries_iff.mp hentry), rfl⟩
    · rintro ⟨⟨key, entry⟩, hentry, rfl⟩
      have hget := Bindings.get?_eq_some_iff_mem.mpr hentry
      obtain ⟨rfl, -⟩ := h.lasting key entry hget
      exact ⟨entry, h.mem_entries_iff.mpr hget, rfl⟩
  have hperm : (entries.map (·.key)).Perm m.keys :=
    (List.perm_ext_iff_of_nodup hnodup m.keys_nodup).mpr hmem
  have hlength := hperm.length_eq
  rw [List.length_map, Bindings.keys, List.length_map] at hlength
  refine ⟨{
    entries := entries.length
    sizeInBytes := files.sizeBelow c.location
    oldest := earliest? (entries.map (·.timestamp))
    newest := latest? (entries.map (·.timestamp)) }, ?_, hlength⟩
  unfold FileCache.stats
  rw [hentries]
  rfl

/-! ## All requests -/

/-- **One request is answered as the map would answer it**, and the files hold the map that is left
by it. -/
theorem Holds.serve (h : c.Holds files m) {r : CacheRequest} (hr : r.Proper) :
    ∃ files', c.serve files r = .ok ((m.serve r).1, files') ∧ c.Holds files' (m.serve r).2 := by
  cases r with
  | store entry =>
    obtain ⟨files', hstore, hholds⟩ := h.store hr
    refine ⟨files', ?_, hholds⟩
    rw [FileCache.serve, hstore]
    rfl
  | get key =>
    refine ⟨files, ?_, h⟩
    rw [FileCache.serve, h.get hr]
    rfl
  | invalidate key =>
    obtain ⟨files', hinvalidate, hholds⟩ := h.invalidate hr
    refine ⟨files', ?_, hholds⟩
    rw [FileCache.serve, hinvalidate]
    rfl
  | clear =>
    obtain ⟨files', hclear, hempty⟩ := exists_clear h.isOpen.leads
    refine ⟨files', ?_, hempty.holds⟩
    rw [FileCache.serve, hclear]
    rfl
  | stats =>
    obtain ⟨stats, hstats, hcount⟩ := h.stats
    refine ⟨files, ?_, h⟩
    rw [FileCache.serve, hstats, CacheMap.serve, ← hcount]
    rfl

theorem Holds.serveAll (h : c.Holds files m) {requests : List CacheRequest}
    (hrequests : ∀ r ∈ requests, r.Proper) :
    ∃ files', c.serveAll files requests = .ok ((m.serveAll requests).1, files') ∧
      c.Holds files' (m.serveAll requests).2 := by
  induction requests generalizing files m with
  | nil => exact ⟨files, rfl, h⟩
  | cons r rest ih =>
    obtain ⟨hr, hrest⟩ := List.forall_mem_cons.mp hrequests
    obtain ⟨files₁, hserve, hholds⟩ := h.serve hr
    obtain ⟨files₂, hserveAll, hholds'⟩ := ih hholds hrest
    refine ⟨files₂, ?_, hholds'⟩
    rw [FileCache.serveAll, hserve]
    show (c.serveAll files₁ rest >>= _) = _
    rw [hserveAll]
    rfl

end FileCache

end PromptPipeline
