import Mathlib.Data.List.Forall2
import Mathlib.Data.List.Nodup
import PromptPipeline.CommandLine.Verdict
import PromptPipeline.Proofs.Collection

/-!
# Directories that are valid, and directories that make a collection

The command that validates a directory gives every file its verdict and counts the bad ones; the
collection of a directory is given up at the first file that can not be added. The first keeps a
list of the URLs that it has seen, the second the pipelines by their URLs, and both validate, in
different order. As long as the list has the URLs of the collection (`Tracks`), a file with a URL
gets a good verdict if and only if its pipeline can be added (`verdict_good_iff`), and so it is for
all files of a directory (`directory_valid_iff_collected`).
-/

namespace PromptPipeline

namespace CommandLine

variable {α β : Type} {c : Console} {path : String}

/-! ## Jobs -/

namespace Job

theorem play_bind (job : Job α) (next : α → Job β) (c : Console) :
    (job >>= next).play c =
      match job.play c with
      | (.ok a, c') => (next a).play c'
      | (.error e, c') => (.error e, c') := by
  show (ExceptT.bindCont next (job.play c).1) (job.play c).2 = _
  rcases job.play c with ⟨_ | a, c'⟩
  · rfl
  · rfl

/-- The job succeeds, and all that it does is to write. -/
def Writes (job : Job Unit) : Prop :=
  ∀ c, ∃ output, job.play c = (.ok (), { c with output })

theorem writes_write (text : String) : Writes (write text) :=
  fun c => ⟨c.output ++ text, rfl⟩

theorem writes_pure : Writes (pure ()) :=
  fun c => ⟨c.output, rfl⟩

theorem Writes.bind {job : Job Unit} (h : Writes job) {next : Unit → Job Unit}
    (hnext : Writes (next ())) : Writes (job >>= next) := by
  intro c
  obtain ⟨output, hplay⟩ := h c
  rw [play_bind, hplay]
  exact hnext { c with output }

theorem writes_forM {l : List α} {job : α → Job Unit} (h : ∀ a ∈ l, Writes (job a)) :
    Writes (l.forM job) := by
  induction l with
  | nil => exact writes_pure
  | cons a l ih =>
    obtain ⟨ha, hl⟩ := List.forall_mem_cons.mp h
    exact ha.bind (ih hl)

/-- What was written before has no part in the result of what follows. -/
theorem Writes.then_eq_ok_iff {job : Job Unit} (h : Writes job) {next : Unit → Job α} {a : α}
    {P : Prop} (hnext : ∀ output, ((next ()).play { c with output }).1 = .ok a ↔ P) :
    ((job >>= next).play c).1 = .ok a ↔ P := by
  obtain ⟨output, hplay⟩ := h c
  rw [play_bind, hplay]
  exact hnext output

/-- The files of a directory. -/
theorem play_pipelineFiles
    (h : c.session.files.isDirectory (FilePath.resolve c.directory path) = true) :
    (pipelineFiles path).play c =
      (match pipelinePaths? c.session.files c.directory path with
        | some paths => .ok paths
        | none => .error (.malformedPattern path), c) := by
  have hthere : c.session.files.contains (FilePath.resolve c.directory path) = true := by
    rw [FileTree.contains, beq_iff_eq.mp h]
    rfl
  have hget : (get : Job Console).play c = (.ok c, c) := rfl
  have hlocate : (locate path).play c = (.ok (FilePath.resolve c.directory path), c) := rfl
  unfold pipelineFiles
  rw [play_bind, hget]
  dsimp only
  rw [play_bind, hlocate]
  dsimp only
  rw [hthere, h]
  cases pipelinePaths? c.session.files c.directory path <;> rfl

theorem writes_verdictLines (isVerbose : Bool) (all : List (String × Verdict)) :
    Writes (all.forM fun (path, v) => (verdictLines isVerbose path v).forM writeLine) :=
  writes_forM fun _ _ => writes_forM fun line _ => writes_write (line ++ "\n")

/-- The end of a validation is good if no verdict is bad. -/
theorem play_conclude_eq_ok_iff (all : List (String × Verdict)) (c : Console) :
    ((do
      writeLine ""
      if (all.filter (·.2.isBad)).length = 0 then writeLine "All pipelines are valid!"
      else throw (.invalidPipelines (all.filter (·.2.isBad)).length) : Job Unit).play c).1 = .ok () ↔
      ∀ entry ∈ all, entry.2.isBad = false := by
  refine (writes_write "\n").then_eq_ok_iff fun output => ?_
  have hgood : (all.filter (·.2.isBad)).length = 0 ↔ ∀ entry ∈ all, entry.2.isBad = false := by
    rw [List.length_eq_zero_iff, List.filter_eq_nil_iff]
    simp only [Bool.not_eq_true]
  rw [← hgood]
  split
  next hzero => exact ⟨fun _ => hzero, fun _ => rfl⟩
  next hsome =>
    constructor
    · intro hplay
      cases hplay
    · intro hzero
      exact absurd hzero hsome

/-- Validation of a directory succeeds if its files can be listed and no verdict is bad. -/
theorem play_validate_eq_ok_iff (isVerbose : Bool)
    (h : c.session.files.isDirectory (FilePath.resolve c.directory path) = true) :
    ((validate isVerbose path).play c).1 = .ok () ↔
      ∃ paths, pipelinePaths? c.session.files c.directory path = some paths ∧
        ∀ entry ∈ verdicts c.session.files c.directory [] paths, entry.2.isBad = false := by
  unfold validate
  refine (writes_write "Validating pipelines...\n\n").then_eq_ok_iff fun output => ?_
  rw [play_bind, play_pipelineFiles (c := { c with output }) h]
  cases hpaths : pipelinePaths? c.session.files c.directory path with
  | none =>
    constructor
    · intro hplay
      cases hplay
    · intro ⟨paths, hsome, _⟩
      cases hsome
  | some paths =>
    have hlisted (P : List String → Prop) :
        (∃ listed, some paths = some listed ∧ P listed) ↔ P paths := by
      simp
    rw [hlisted]
    show ((ite (paths = []) _ _ : Job Unit).play _).1 = _ ↔ _
    by_cases hempty : paths = []
    · subst hempty
      exact ⟨fun _ => List.forall_mem_nil _, fun _ => rfl⟩
    · rw [if_neg hempty]
      refine (writes_verdictLines isVerbose _).then_eq_ok_iff fun output' => ?_
      cases isVerbose with
      | false => exact play_conclude_eq_ok_iff _ _
      | true => exact (writes_write _).then_eq_ok_iff fun _ => play_conclude_eq_ok_iff _ _

end Job

end CommandLine

/-! ## Collections of files -/

namespace Collection

variable {files : FileTree} {directory : Location} {path : String} {paths : List String}
  {c d : Collection} {p : Pipeline} {ps : List Pipeline}

theorem addFiles_cons_eq_ok_iff : addFiles files directory c (path :: paths) = .ok d ↔
    ∃ p c', Pipeline.ofFile files directory path = .ok p ∧ c.add p = .ok c' ∧
      addFiles files directory c' paths = .ok d := by
  rw [addFiles]
  simp only [bind_eq_ok_iff]
  constructor
  · intro ⟨p, hfile, c', hadd, hrest⟩
    exact ⟨p, c', hfile, hadd, hrest⟩
  · intro ⟨p, c', hfile, hadd, hrest⟩
    exact ⟨p, hfile, c', hadd, hrest⟩

/-- Files are added if all of them hold pipelines, and these can be added. -/
theorem exists_of_addFiles (h : addFiles files directory c paths = .ok d) :
    ∃ ps, List.Forall₂ (fun path p => Pipeline.ofFile files directory path = .ok p) paths ps ∧
      ps.foldlM add c = .ok d := by
  induction paths generalizing c with
  | nil => exact ⟨[], .nil, h⟩
  | cons path paths ih =>
    obtain ⟨p, c', hfile, hadd, hrest⟩ := addFiles_cons_eq_ok_iff.mp h
    obtain ⟨ps, hps, hfold⟩ := ih hrest
    exact ⟨p :: ps, .cons hfile hps, foldlM_cons_eq_ok_iff.mpr ⟨c', hadd, hfold⟩⟩

/-- The pipelines of a collection are those that it was made of. -/
theorem toList_perm_of_ofPipelines (h : ofPipelines ps = .ok c) : c.toList.Perm ps := by
  have hsound : c.Sound := afterEntering_of_foldlM_add h ▸ Sound.empty.afterEntering ps
  have hnodup := (exists_ofPipelines_iff.mp ⟨c, h⟩).2.1
  have hlist := (exists_ofPipelines_iff.mp ⟨c, hsound.ofPipelines_toList⟩).2.1
  -- both lists are without repetition, since their URLs are
  refine (List.perm_ext_iff_of_nodup (hlist.of_map _) (hnodup.of_map _)).mpr fun p => ?_
  rw [hsound.mem_toList_iff]
  simp only [get?_of_ofPipelines h]
  constructor
  · intro ⟨url, _, hmem, _⟩
    exact hmem
  · intro hmem
    obtain ⟨url, hurl⟩ := (exists_ofPipelines_iff.mp ⟨c, h⟩).1 p hmem
    exact ⟨url, hurl, hmem, hurl⟩

theorem ofDirectory_eq_ok_iff : ofDirectory files directory path = .ok c ↔
    files.isDirectory (FilePath.resolve directory path) = true ∧
      ∃ paths, pipelinePaths? files directory path = some paths ∧
        addFiles files directory {} paths = .ok c := by
  unfold ofDirectory
  split
  next hdir =>
    cases pipelinePaths? files directory path with
    | none => simp
    | some paths => simp [hdir]
  next hnot =>
    constructor
    · intro h
      cases h
    · intro ⟨hdir, _⟩
      exact absurd hdir hnot

end Collection

/-! ## The two loops -/

namespace CommandLine

variable {files : FileTree} {directory : Location} {path : String} {paths seen : List String}
  {col col' : Collection} {p : Pipeline}

/-- The URLs that were seen are those of the collection. -/
def Tracks (seen : List String) (col : Collection) : Prop :=
  ∀ url, url ∈ seen ↔ col.get? url ≠ none

theorem tracks_empty : Tracks [] {} := by
  intro url
  constructor
  · intro hmem
    cases hmem
  · intro hget
    exact absurd rfl hget

theorem Tracks.insert (h : Tracks seen col) (url : String) (p : Pipeline) :
    Tracks (seen ++ [url]) ⟨col.pipelines.insert url p⟩ := by
  intro key
  rw [Collection.get?_insert, List.mem_append, List.mem_singleton, h key]
  by_cases hkey : key = url
  · simp [hkey]
  · simp [hkey]

/-- The file holds a pipeline that has a URL. -/
def HoldsNamed (files : FileTree) (directory : Location) (path : String) : Prop :=
  ∃ p url, Pipeline.ofFile files directory path = .ok p ∧ p.url = some url

/-- The verdict on a file with a URL. -/
theorem verdict_of_url {url : String} (hfile : Pipeline.ofFile files directory path = .ok p)
    (hurl : p.url = some url) : verdict files directory seen path =
      match p.validate none with
      | .error fault => (.error (.logic fault), seen)
      | .ok validation =>
        if seen.contains url then (.error (.logic (.duplicatePipelineUrl url)), seen)
        else (.ok validation, seen ++ [url]) := by
  unfold verdict
  rw [hfile]
  dsimp only
  rw [hurl]
  cases p.validate none <;> rfl

/-- A good file with a URL can be added. -/
theorem Tracks.exists_add (h : Tracks seen col)
    (hgood : (verdict files directory seen path).1.isBad = false)
    (hnamed : HoldsNamed files directory path) :
    ∃ p col', Pipeline.ofFile files directory path = .ok p ∧ col.add p = .ok col' := by
  obtain ⟨p, url, hfile, hurl⟩ := hnamed
  rw [verdict_of_url hfile hurl] at hgood
  cases hvalid : p.validate none with
  | error fault =>
    rw [hvalid] at hgood
    cases hgood
  | ok v =>
    rw [hvalid] at hgood
    dsimp only at hgood
    by_cases hseen : url ∈ seen
    · rw [if_pos (List.contains_iff_mem.mpr hseen)] at hgood
      cases hgood
    · have hnew : col.get? url = none := by
        by_contra hsome
        exact hseen ((h url).mpr hsome)
      exact ⟨p, _, hfile, Collection.add_eq_ok_iff.mpr
        ⟨url, v, hurl, Collection.get?_eq_none_iff.mp hnew, hvalid, rfl⟩⟩

/-- A file that can be added is good and has a URL, and the URLs that are seen are still those of
the collection. -/
theorem Tracks.verdict_of_add (h : Tracks seen col)
    (hfile : Pipeline.ofFile files directory path = .ok p) (hadd : col.add p = .ok col') :
    (verdict files directory seen path).1.isBad = false ∧ HoldsNamed files directory path ∧
      Tracks (verdict files directory seen path).2 col' := by
  obtain ⟨url, v, hurl, hnew, hvalid, rfl⟩ := Collection.add_eq_ok_iff.mp hadd
  have hseen : ¬seen.contains url = true := by
    rw [List.contains_iff_mem, h url, Collection.get?_eq_none_iff.mpr hnew]
    exact fun hne => hne rfl
  rw [verdict_of_url hfile hurl, hvalid]
  dsimp only
  rw [if_neg hseen]
  exact ⟨rfl, ⟨p, url, hfile, hurl⟩, h.insert url p⟩

/-- **The two loops accept the same files**, wherever they have come to. -/
theorem Tracks.verdicts_good_iff (h : Tracks seen col) :
    ((∀ entry ∈ verdicts files directory seen paths, entry.2.isBad = false) ∧
      ∀ path ∈ paths, HoldsNamed files directory path) ↔
      ∃ col', Collection.addFiles files directory col paths = .ok col' := by
  -- the invariant is that the URLs seen so far are those of the collection so far
  induction paths generalizing seen col with
  | nil => exact ⟨fun _ => ⟨col, rfl⟩, fun _ => ⟨List.forall_mem_nil _, List.forall_mem_nil _⟩⟩
  | cons path paths ih =>
    have hverdicts : verdicts files directory seen (path :: paths) =
        (path, (verdict files directory seen path).1) ::
          verdicts files directory (verdict files directory seen path).2 paths := rfl
    rw [hverdicts, List.forall_mem_cons, List.forall_mem_cons]
    constructor
    · intro ⟨⟨hgood, hgoods⟩, hnamed, hnameds⟩
      obtain ⟨p, col', hfile, hadd⟩ := h.exists_add hgood hnamed
      have htracks := (h.verdict_of_add hfile hadd).2.2
      obtain ⟨d, hrest⟩ := (ih htracks).mp ⟨hgoods, hnameds⟩
      exact ⟨d, Collection.addFiles_cons_eq_ok_iff.mpr ⟨p, col', hfile, hadd, hrest⟩⟩
    · intro ⟨d, hfiles⟩
      obtain ⟨p, col', hfile, hadd, hrest⟩ := Collection.addFiles_cons_eq_ok_iff.mp hfiles
      obtain ⟨hgood, hnamed, htracks⟩ := h.verdict_of_add hfile hadd
      obtain ⟨hgoods, hnameds⟩ := (ih htracks).mpr ⟨d, hrest⟩
      exact ⟨⟨hgood, hgoods⟩, hnamed, hnameds⟩

/-- **A directory is valid, with a URL in every file, if and only if it makes a collection.** The
command that validates the path succeeds, and the path is that of a directory of which every listed
file holds a pipeline with a URL, exactly if there is a collection of the directory; and this holds
the pipelines of the listed files, one for each file, and no others. -/
theorem directory_valid_iff_collected (isVerbose : Bool) (path : String) (c : Console) :
    ((((Job.validate isVerbose path).play c).1 = .ok () ∧
        c.session.files.isDirectory (FilePath.resolve c.directory path) = true ∧
        ∀ paths, pipelinePaths? c.session.files c.directory path = some paths →
          ∀ listed ∈ paths, HoldsNamed c.session.files c.directory listed) ↔
      ∃ col, Collection.ofDirectory c.session.files c.directory path = .ok col) ∧
    ∀ col, Collection.ofDirectory c.session.files c.directory path = .ok col →
      ∃ paths ps, pipelinePaths? c.session.files c.directory path = some paths ∧
        List.Forall₂ (fun listed p => Pipeline.ofFile c.session.files c.directory listed = .ok p)
          paths ps ∧
        col.toList.Perm ps := by
  constructor
  · simp only [Collection.ofDirectory_eq_ok_iff]
    constructor
    · intro ⟨hplay, hdir, hnamed⟩
      obtain ⟨paths, hpaths, hgood⟩ := (Job.play_validate_eq_ok_iff isVerbose hdir).mp hplay
      obtain ⟨col, hcol⟩ := tracks_empty.verdicts_good_iff.mp ⟨hgood, hnamed paths hpaths⟩
      exact ⟨col, hdir, paths, hpaths, hcol⟩
    · intro ⟨col, hdir, paths, hpaths, hcol⟩
      obtain ⟨hgood, hnamed⟩ := tracks_empty.verdicts_good_iff.mpr ⟨col, hcol⟩
      refine ⟨(Job.play_validate_eq_ok_iff isVerbose hdir).mpr ⟨paths, hpaths, hgood⟩, hdir, ?_⟩
      intro listed hlisted
      rw [hpaths] at hlisted
      cases hlisted
      exact hnamed
  · intro col hcol
    obtain ⟨-, paths, hpaths, hfiles⟩ := Collection.ofDirectory_eq_ok_iff.mp hcol
    obtain ⟨ps, hps, hfold⟩ := Collection.exists_of_addFiles hfiles
    exact ⟨paths, ps, hpaths, hps, Collection.toList_perm_of_ofPipelines hfold⟩

end CommandLine

end PromptPipeline
