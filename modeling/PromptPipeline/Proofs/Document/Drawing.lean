import PromptPipeline.Document.Drawing
import PromptPipeline.Proofs.Dialect.Stages
import PromptPipeline.Proofs.Dialect.Template
import PromptPipeline.Proofs.Document.Neighbours
import PromptPipeline.Proofs.Text.Letter

/-!
# The text of the task graph

The text lists the tasks in a topological order, and a reader takes it line by line. In a pipeline
that comes from a source no part of a line has a line break (`Text.OneLine`): names are spelled from
letters, digits and dashes, results are names of parameters, and the rest is fixed. So there are as
many lines as tasks. Nor has a name a comma, so that the list of dependencies can be read off from a
line (`lineOf_inj`).

The dependencies on a line are looked up by the name of the task, and a name stands for the first
task that has it (`FirstNamed`). Two titles may spell one name, and nothing keeps such a source from
being drawn. The line of the second task then shows the dependencies of the first one, whatever its
own are (`text_shows_first_of_name`).
-/

namespace PromptPipeline

/-! ## Texts without line breaks -/

namespace Text

/-- The text has no line break in it. -/
def OneLine (text : String) : Prop :=
  '\n' ∉ text.toList

instance (text : String) : Decidable (OneLine text) :=
  inferInstanceAs (Decidable ('\n' ∉ text.toList))

/-- No letter or digit has a lowercase form that comes before the digits. -/
theorem notMem_lowercaseChar {c d : Char} (hc : isAlphanumeric c = true) (hlt : d.toNat < 0x30) :
    d ∉ lowercaseChar c := by
  intro hmem
  by_cases hdotted : c = dottedI
  · rw [hdotted] at hmem
    rcases List.mem_pair.mp hmem with rfl | rfl
    · exact absurd hlt (by decide)
    · exact absurd hlt (by decide)
  · have hletter := isAlphanumeric_of_mem_lowercaseChar hc hdotted hmem
    have hnone : ∀ n : Fin 0x30, (Char.ofNat n).isAlphanum = false := by decide
    have hd := hnone ⟨d.toNat, hlt⟩
    rw [Char.ofNat_toNat, ← isAlphanumeric_eq (by omega), hletter] at hd
    cases hd

theorem OneLine.append {text text' : String} (h : OneLine text) (h' : OneLine text') :
    OneLine (text ++ text') := by
  rw [OneLine, String.toList_append, List.mem_append, not_or]
  exact ⟨h, h'⟩

theorem OneLine.intercalate {separator : String} {texts : List String}
    (hseparator : OneLine separator) (h : ∀ text ∈ texts, OneLine text) :
    OneLine (separator.intercalate texts) := by
  induction texts with
  | nil => exact List.not_mem_nil
  | cons text texts ih =>
    obtain ⟨htext, htexts⟩ := List.forall_mem_cons.mp h
    by_cases hlast : texts = []
    · rw [hlast, String.intercalate_singleton]
      exact htext
    · rw [String.intercalate_cons_of_ne_nil hlast]
      exact (htext.append hseparator).append (ih htexts)

/-- What comes before the first comma, and what comes after it. -/
theorem eq_of_append_comma {s s' t t' : List Char} (hs : ',' ∉ s) (hs' : ',' ∉ s')
    (h : s ++ ',' :: t = s' ++ ',' :: t') : s = s' ∧ t = t' := by
  have hsplit {s : List Char} (hs : ',' ∉ s) (t : List Char) :
      splitOnce? (· == ',') (s ++ ',' :: t) = some (s, t) :=
    splitOnce?_append (fun d hd => beq_eq_false_iff_ne.mpr (ne_of_mem_of_not_mem hd hs)) rfl
  have hsame : some (s, t) = some (s', t') := by
    rw [← hsplit hs t, ← hsplit hs' t', h]
  exact Prod.mk.inj (Option.some.inj hsame)

/-- A list of texts without commas is told by what separates them with commas makes of it. -/
theorem intercalate_comma_inj {as bs : List String} (has : ∀ a ∈ as, ',' ∉ a.toList)
    (hbs : ∀ b ∈ bs, ',' ∉ b.toList) (hane : as ≠ []) (hbne : bs ≠ [])
    (h : ", ".intercalate as = ", ".intercalate bs) : as = bs := by
  induction as generalizing bs with
  | nil => exact absurd rfl hane
  | cons a as ih =>
    cases bs with
    | nil => exact absurd rfl hbne
    | cons b bs =>
      obtain ⟨ha, has⟩ := List.forall_mem_cons.mp has
      obtain ⟨hb, hbs⟩ := List.forall_mem_cons.mp hbs
      have hcomma (s t : String) : ',' ∈ (s ++ ", " ++ t).toList := by simp
      by_cases hlast : as = []
      · by_cases hlast' : bs = []
        · rw [hlast, hlast', String.intercalate_singleton, String.intercalate_singleton] at h
          rw [hlast, hlast', h]
        · rw [hlast, String.intercalate_singleton, String.intercalate_cons_of_ne_nil hlast'] at h
          exact absurd (h ▸ hcomma ..) ha
      · by_cases hlast' : bs = []
        · rw [hlast', String.intercalate_singleton, String.intercalate_cons_of_ne_nil hlast] at h
          exact absurd (h ▸ hcomma ..) hb
        · rw [String.intercalate_cons_of_ne_nil hlast, String.intercalate_cons_of_ne_nil hlast']
            at h
          have hchars : a.toList ++ ',' :: ' ' :: (", ".intercalate as).toList =
              b.toList ++ ',' :: ' ' :: (", ".intercalate bs).toList := by
            simpa using congrArg String.toList h
          obtain ⟨hhead, hrest⟩ := eq_of_append_comma ha hb hchars
          have htail := String.toList_injective (List.cons.inj hrest).2
          rw [String.toList_injective hhead, ih has hbs hlast hlast' htail]

theorem oneLine_toString (n : Nat) : OneLine (toString n) := by
  rw [OneLine, Nat.toString_eq_ofList_toDigits, String.toList_ofList]
  intro hmem
  exact absurd (Nat.isDigit_of_mem_toDigits (by decide) (by decide) hmem) (by decide)

end Text

open Text

theorem Name.notMem_ofTitleFrom {d : Char} (hlt : d.toNat < 0x2D) (started pending : Bool)
    (title : List Char) : d ∉ ofTitleFrom started pending title := by
  induction title generalizing started pending with
  | nil => exact List.not_mem_nil
  | cons c title ih =>
    rw [ofTitleFrom]
    split
    next hc =>
      rw [List.mem_append, List.mem_append, not_or, not_or]
      refine ⟨⟨?_, notMem_lowercaseChar hc (Nat.lt_trans hlt (by decide))⟩, ih _ _⟩
      split
      next =>
        intro hmem
        rw [List.mem_singleton.mp hmem] at hlt
        exact absurd hlt (by decide)
      next => exact List.not_mem_nil
    next => exact ih _ _

/-- No character of a name comes before the dash. -/
theorem Name.notMem_ofTitle {d : Char} (hlt : d.toNat < 0x2D) (title : String) :
    d ∉ (ofTitle title).toList := by
  rw [ofTitle, String.toList_ofList]
  exact notMem_ofTitleFrom hlt _ _ _

theorem Name.oneLine_of_isParameter {name : String} (h : isParameter name.toList = true) :
    OneLine name := by
  intro hmem
  exact absurd (Template.isParameterPart_of_mem h hmem) (by decide)

theorem ExecutionType.oneLine_words (type : ExecutionType) : OneLine type.words := by
  unfold OneLine
  cases type <;> decide

/-! ## Tasks of a source -/

/-- The name of the task has neither line breaks nor commas, and its result has no line breaks. -/
structure Task.Spelled (t : Task) : Prop where
  name : OneLine t.name
  noComma : ',' ∉ t.name.toList
  result : OneLine t.result

/-- The arrow of a section names a parameter. -/
theorem Draft.isParameter_of_read {task : String} {d d' : Draft} {c : Content}
    (h : ∀ result ∈ d.result, Name.isParameter result.toList = true)
    (hread : Draft.read task d c = .ok d') :
    ∀ result ∈ d'.result, Name.isParameter result.toList = true := by
  cases read_eq_ok_iff.mp hread with
  | arrow hnew hcode hname hvalid =>
    intro result hresult
    obtain rfl := Option.some.inj hresult
    rwa [String.toList_ofList]
  | _ => exact h

/-- The name of a task is spelled by a title, and its result is the name of a parameter. -/
theorem Section.spelled_of_toTask {s : Section} {model : ModelSetting} {ps qs : List Parameter}
    {t : Task} (h : s.toTask model ps = .ok (t, qs)) : t.Spelled := by
  obtain ⟨-, d, hread, htask, -⟩ := toTask_eq_ok_iff.mp h
  have hnamed : ∀ result ∈ d.result, Name.isParameter result.toList = true :=
    foldlM_induction
      (P := fun d : Draft => ∀ result ∈ d.result, Name.isParameter result.toList = true)
      (fun _ _ _ => Draft.isParameter_of_read)
      (fun _ hresult => absurd hresult (Option.not_mem_none _)) hread
  obtain ⟨_, result, _, _, -, hresult, -, -, rfl⟩ := Draft.toTask_eq_ok_iff.mp htask
  exact
    { name := Name.notMem_ofTitle (by decide) _
      noComma := Name.notMem_ofTitle (by decide) _
      result := Name.oneLine_of_isParameter (hnamed result hresult) }

theorem spelled_of_sectionTasks {model : ModelSetting} {ps qs : List Parameter}
    {sections : List Section} {ts : List Task}
    (h : sectionTasks model ps sections = .ok (ts, qs)) : ∀ t ∈ ts, t.Spelled := by
  induction sections generalizing ps ts with
  | nil =>
    cases h
    exact List.forall_mem_nil _
  | cons s rest ih =>
    obtain ⟨t, ps', ts', htask, hrest, rfl⟩ := sectionTasks_cons_eq_ok_iff.mp h
    exact List.forall_mem_cons.mpr ⟨s.spelled_of_toTask htask, ih hrest⟩

namespace Pipeline

variable {p : Pipeline} {source : String}

theorem spelled_of_ofSource (h : ofSource source = .ok p) (i : p.TaskIndex) :
    (p.taskAt i).Spelled := by
  obtain ⟨o, -, hp⟩ := bind_eq_ok_iff.mp h
  obtain ⟨_, _, tasks, _, -, -, htasks, -, rfl⟩ := ofOutline_eq_ok_iff.mp hp
  exact spelled_of_sectionTasks htasks _ (taskAt_mem i)

/-! ## Lines -/

/-- The list of dependencies at the end of a line, which is left out if there are none. -/
def dependsOn (dependencies : List String) : String :=
  if dependencies = [] then "" else " [depends: " ++ ", ".intercalate dependencies ++ "]"

/-- The line of a task with this number and with these dependencies. -/
def lineOf (number : Nat) (t : Task) (dependencies : List String) : String :=
  s!"{number}. {t.name} ({t.executionType.words}) -> " ++ braced t.result ++
    dependsOn dependencies

theorem textLine_eq (p : Pipeline) (number : Nat) (i : p.TaskIndex) :
    p.textLine number i =
      lineOf number (p.taskAt i) ((p.dependencies? (p.taskAt i).name).getD []) ++ "\n" :=
  rfl

theorem oneLine_dependsOn {dependencies : List String} (h : ∀ name ∈ dependencies, OneLine name) :
    OneLine (dependsOn dependencies) := by
  unfold dependsOn
  split
  next => decide
  next => exact .append (.append (by decide) (.intercalate (by decide) h)) (by decide)

theorem oneLine_lineOf {number : Nat} {t : Task} {dependencies : List String} (ht : t.Spelled)
    (hdependencies : ∀ name ∈ dependencies, OneLine name) :
    OneLine (lineOf number t dependencies) := by
  have hbraced : OneLine (braced t.result) := .append (.append (by decide) ht.result) (by decide)
  have hhead : OneLine s!"{number}. {t.name} ({t.executionType.words}) -> " := by
    refine .append (.append (.append (.append (.append (oneLine_toString number) ?_) ht.name) ?_)
      t.executionType.oneLine_words) ?_
    all_goals decide
  exact (hhead.append hbraced).append (oneLine_dependsOn hdependencies)

/-- The list of dependencies can be read off from a line. -/
theorem lineOf_inj {number : Nat} {t : Task} {as bs : List String}
    (has : ∀ a ∈ as, ',' ∉ a.toList) (hbs : ∀ b ∈ bs, ',' ∉ b.toList)
    (h : lineOf number t as = lineOf number t bs) : as = bs := by
  have htail : dependsOn as = dependsOn bs := (String.append_right_inj _).mp h
  have hsome (names : List String) : " [depends: " ++ ", ".intercalate names ++ "]" ≠ "" := by
    intro hempty
    exact absurd (String.append_eq_empty_iff.mp hempty).2 (by decide)
  unfold dependsOn at htail
  by_cases hane : as = []
  · by_cases hbne : bs = []
    · rw [hane, hbne]
    · rw [if_pos hane, if_neg hbne] at htail
      exact absurd htail.symm (hsome bs)
  · by_cases hbne : bs = []
    · rw [if_neg hane, if_pos hbne] at htail
      exact absurd htail (hsome as)
    · rw [if_neg hane, if_neg hbne] at htail
      refine intercalate_comma_inj has hbs hane hbne ?_
      exact (String.append_right_inj _).mp ((String.append_left_inj _).mp htail)

/-- The task at the position is the first one of the name. -/
def FirstNamed (p : Pipeline) (name : String) (i : p.TaskIndex) : Prop :=
  (p.taskAt i).name = name ∧ ∀ j < i, (p.taskAt j).name ≠ name

theorem FirstNamed.unique {name : String} {i j : p.TaskIndex} (hi : p.FirstNamed name i)
    (hj : p.FirstNamed name j) : i = j := by
  rcases Nat.lt_trichotomy i j with hlt | heq | hgt
  · exact absurd hi.1 (hj.2 i hlt)
  · exact Fin.ext heq
  · exact absurd hj.1 (hi.2 j hgt)

/-- A name stands for the first task that has it. -/
theorem firstNamed_of_indexOf? {name : String} {first : p.TaskIndex}
    (h : p.indexOf? name = some first) : p.FirstNamed name first := by
  refine ⟨name_of_indexOf? h, fun j hj => ?_⟩
  obtain ⟨-, k, hk, hget, hbefore⟩ := List.find?_eq_some_iff_getElem.mp h
  rw [List.getElem_finRange] at hget
  have hjk : j.val < k := by
    rw [← hget] at hj
    exact hj
  have hother := hbefore j hjk
  rw [List.getElem_finRange] at hother
  simpa using hother

/-- The line with this number is that of the task at `i`, with the names of the tasks from which
arcs lead to the one at `v` for its dependencies, each task once and in increasing order. -/
def Shows (p : Pipeline) (number : Nat) (i v : p.TaskIndex) (line : String) : Prop :=
  ∃ sources names, sources.Nodup ∧ (∀ u, u ∈ sources ↔ p.graph.Adj u v) ∧
    names.Perm (p.namesAt sources) ∧ names.Pairwise (· ≤ ·) ∧
    line = lineOf number (p.taskAt i) names

/-- A line that shows the dependencies of one task shows those of another one if and only if they
have the same names. -/
theorem shows_lineOf_iff (h : ∀ i, (p.taskAt i).Spelled) {number : Nat} {i v w : p.TaskIndex} :
    p.Shows number i v
        (lineOf number (p.taskAt i) (sortedNames (p.namesAt (p.graph.predecessors w)))) ↔
      (p.namesAt (p.graph.predecessors v)).Perm (p.namesAt (p.graph.predecessors w)) := by
  have hsorted := sortedNames_perm (p.namesAt (p.graph.predecessors w))
  have hnodup := p.graph_simple.predecessors_nodup v
  have hcomma {is : List p.TaskIndex} {names : List String} (hnames : names.Perm (p.namesAt is)) :
      ∀ name ∈ names, ',' ∉ name.toList := by
    intro name hname
    obtain ⟨i, -, rfl⟩ := mem_namesAt.mp (hnames.mem_iff.mp hname)
    exact (h i).noComma
  constructor
  · intro ⟨sources, names, hsources, hmem, hperm, _, hline⟩
    have hsame := lineOf_inj (hcomma hsorted) (hcomma hperm) hline
    have hpredecessors : (p.graph.predecessors v).Perm sources :=
      (List.perm_ext_iff_of_nodup hnodup hsources).mpr fun u =>
        Digraph.mem_predecessors.trans (hmem u).symm
    have hnames := (hpredecessors.map _).trans hperm.symm
    rw [← hsame] at hnames
    exact hnames.trans hsorted
  · intro hperm
    exact ⟨p.graph.predecessors v, _, hnodup, fun _ => Digraph.mem_predecessors,
      hsorted.trans hperm.symm, sortedNames_sorted _, rfl⟩

/-- **The text of the graph has a line for each task.** For a source that compiles to a pipeline
without cycles, the lines are those of the tasks in a topological order, and no line is broken. The
line of a task shows the dependencies of the first task of its name, whether or not the graph has
arcs from these to the task itself. It shows its own if and only if they have the same names, such
as when it is the first of its name. -/
theorem text_shows_first_of_name (h : ofSource source = .ok p) (hacyclic : p.graph.Acyclic) :
    ∃ (order : List p.TaskIndex) (lines : List String), p.executionOrder = .ok order ∧
      p.graph.IsTopological order ∧
      p.toText = .ok (String.join (lines.map (· ++ "\n"))) ∧
      (∀ line ∈ lines, OneLine line) ∧ lines.length = p.tasks.length ∧
      ∀ (k : Nat) (i : p.TaskIndex), order[k]? = some i → ∃ line first, lines[k]? = some line ∧
        p.FirstNamed (p.taskAt i).name first ∧ p.Shows (k + 1) i first line ∧
        (p.Shows (k + 1) i i line ↔
          (p.namesAt (p.graph.predecessors i)).Perm (p.namesAt (p.graph.predecessors first))) := by
  obtain ⟨order, horder⟩ := exists_executionOrder hacyclic
  have htopological := executionOrder_isTopological horder
  have hspelled := spelled_of_ofSource h
  let line (entry : p.TaskIndex × Nat) : String :=
    lineOf entry.2 (p.taskAt entry.1) ((p.dependencies? (p.taskAt entry.1).name).getD [])
  -- a name is looked up and found, and its first task is asked for its predecessors
  have hline (i : p.TaskIndex) (number : Nat) : ∃ first,
      p.FirstNamed (p.taskAt i).name first ∧ line (i, number) =
        lineOf number (p.taskAt i) (sortedNames (p.namesAt (p.graph.predecessors first))) := by
    obtain ⟨first, hfound⟩ := exists_indexOf? i
    refine ⟨first, firstNamed_of_indexOf? hfound, ?_⟩
    show lineOf number _ ((p.dependencies? (p.taskAt i).name).getD []) = _
    rw [dependencies?, hfound, Option.map_some, Option.getD_some]
  refine ⟨order, (order.zipIdx 1).map line, horder, htopological, ?_, ?_, ?_, ?_⟩
  · rw [toText, horder]
    simp only [textLine_eq, List.map_map]
    rfl
  · intro text htext
    obtain ⟨⟨i, number⟩, -, rfl⟩ := List.mem_map.mp htext
    obtain ⟨first, -, hfirst⟩ := hline i number
    rw [hfirst]
    refine oneLine_lineOf (hspelled i) fun name hname => ?_
    obtain ⟨j, -, rfl⟩ := mem_namesAt.mp ((sortedNames_perm _).mem_iff.mp hname)
    exact (hspelled j).name
  · rw [List.length_map, List.length_zipIdx, htopological.perm.length_eq, List.length_finRange]
  · intro k i hi
    obtain ⟨first, hfirst, heq⟩ := hline i (k + 1)
    refine ⟨line (i, k + 1), first, ?_, hfirst, ?_, ?_⟩
    · rw [List.getElem?_map, List.getElem?_zipIdx, hi, Nat.add_comm]
      rfl
    · rw [heq, shows_lineOf_iff hspelled]
    · rw [heq, shows_lineOf_iff hspelled]

end Pipeline

/-- A source with two sections whose titles spell one name, the second of which reads the result of
the first. -/
def Pipeline.greetTwiceSource : String :=
  "# Greetings\n- PROMPTBOOK VERSION 1.0.0\n- INPUT PARAMETER \x7bx\x7d\n" ++
    "- OUTPUT PARAMETER \x7bb\x7d\n" ++
    "## Greet\n- EXECUTE SIMPLE TEMPLATE\n```\nHi \x7bx\x7d\n```\n-> \x7ba\x7d\n" ++
    "## Greet!\n- EXECUTE SIMPLE TEMPLATE\n```\n\x7ba\x7d!\n```\n-> \x7bb\x7d\n"

/-- The pipeline of this source. -/
def Pipeline.greetTwice : Pipeline :=
  { url := none, title := "Greetings", dialectVersion := "1.0.0", description := none
    parameters := [{ name := "x", isInput := true }, { name := "b", isOutput := true },
      { name := "a" }]
    tasks := [{ Task.revise "greet" "x" "a" [] with title := "Greet", content := "Hi \x7bx\x7d" },
      { Task.revise "greet" "a" "b" [] with title := "Greet!", content := "\x7ba\x7d!" }]
    knowledge := [] }

namespace Pipeline

theorem greetTwice_acyclic : greetTwice.graph.Acyclic := by
  have horder : (greetTwice.executionOrder.map (·.map (·.val))) = .ok [0, 1] := by cbv
  obtain ⟨order, horder, -⟩ := map_eq_ok_iff.mp horder
  exact (executionOrder_isTopological horder).acyclic

/-- The second greeting depends on the first one, but its line shows what the first one depends on,
which is nothing. -/
theorem greetTwice_text : ofSource greetTwiceSource = .ok greetTwice ∧
    greetTwice.toText = .ok ("1. greet (simple template) -> \x7ba\x7d\n" ++
      "2. greet (simple template) -> \x7bb\x7d\n") ∧
    ∃ first second, greetTwice.graph.Adj first second ∧ ∃ number line,
      greetTwice.Shows number second first line ∧ ¬greetTwice.Shows number second second line := by
  have hsource : ofSource greetTwiceSource = .ok greetTwice := by
    have hdecide : (match ofSource greetTwiceSource with
        | .ok p => decide (p = greetTwice)
        | .error _ => false) = true := by decide +kernel
    split at hdecide
    next p hp => rw [hp, of_decide_eq_true hdecide]
    next => cases hdecide
  have htext : greetTwice.toText = .ok ("1. greet (simple template) -> \x7ba\x7d\n" ++
      "2. greet (simple template) -> \x7bb\x7d\n") := by cbv
  obtain ⟨order, lines, -, htopological, -, -, -, hlines⟩ :=
    text_shows_first_of_name hsource greetTwice_acyclic
  let first : greetTwice.TaskIndex := ⟨0, by decide⟩
  let second : greetTwice.TaskIndex := ⟨1, by decide⟩
  have hfirst : greetTwice.FirstNamed "greet" first :=
    ⟨rfl, fun _ hj => absurd hj (Nat.not_lt_zero _)⟩
  have hadj : ∀ i j, greetTwice.graph.Adj i j ↔ i = first ∧ j = second := by
    intro i j
    rw [adj_graph_iff_feeds (by decide)]
    revert i j
    unfold Feeds
    decide
  have harc : greetTwice.graph.Adj first second := (hadj first second).mpr ⟨rfl, rfl⟩
  obtain ⟨k, hk⟩ := List.mem_iff_getElem?.mp (htopological.mem second)
  obtain ⟨line, v, -, hv, hshows, hown⟩ := hlines k second hk
  obtain rfl : v = first := hv.unique hfirst
  refine ⟨hsource, htext, first, second, harc, k + 1, line, hshows, fun h => ?_⟩
  -- the second task has a predecessor, but the first one, whose names the line shows, has none
  have hgreet : "greet" ∈ greetTwice.namesAt (greetTwice.graph.predecessors second) :=
    mem_namesAt.mpr ⟨first, Digraph.mem_predecessors.mpr harc, rfl⟩
  obtain ⟨i, hi, -⟩ := mem_namesAt.mp ((hown.mp h).mem_iff.mp hgreet)
  exact absurd ((hadj i first).mp (Digraph.mem_predecessors.mp hi)).2 (by decide)

end Pipeline

end PromptPipeline
