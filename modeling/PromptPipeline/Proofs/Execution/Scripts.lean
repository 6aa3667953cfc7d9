import PromptPipeline.Adapter.Runner
import PromptPipeline.Proofs.Dialect.Source
import PromptPipeline.Proofs.Execution.Direction
import PromptPipeline.Proofs.Text.Letter

/-!
# Scripts for the shell

The compiler scans a script for the language that its name means in any ASCII case, and the runner
for the shell compares the lowercase form of the name with its own list. The list has ASCII words
without a k, and of such a word the lowercase form in all of Unicode leads to the same names as that
in ASCII (`ScriptRunner.mem_shellLanguages_iff`). So the shell takes just the scripts that were
scanned as shell scripts.

Main statement: `Executor.shell_runs_shell_scripts`.
-/

namespace PromptPipeline

open Text

variable {name executable script : String} {small : List Char} {values : Bindings String}

/-! ## Names of languages -/

theorem ScriptLanguage.ofName?_eq_some_shell_iff :
    ofName? name = some .shell ↔ smallLetters name.toList ∈ ScriptRunner.shellLanguages := by
  unfold ofName?
  split <;> simp_all [ScriptRunner.shellLanguages]

namespace ScriptRunner

/-- The names on the list are in ASCII and have no k. -/
theorem ascii_shellLanguages :
    ∀ w ∈ shellLanguages, (∀ d ∈ w.toList, d.toNat < 0x80) ∧ 'k' ∉ w.toList := by
  simp [shellLanguages]

/-- **A name is on the list in lowercase if and only if it means the shell in any ASCII case**,
whichever small letter a capital sigma turns into. -/
theorem mem_shellLanguages_iff (h : LowersTo name.toList small) :
    .ofList small ∈ shellLanguages ↔ ScriptLanguage.ofName? name = some .shell := by
  have hsame : ∀ w ∈ shellLanguages, .ofList small = w ↔ smallLetters name.toList = w := by
    intro w hw
    obtain ⟨hascii, hk⟩ := ascii_shellLanguages w hw
    rw [← String.toList_inj, ← String.toList_inj, smallLetters, String.toList_ofList,
      String.toList_ofList]
    -- The word has no k, so it is reached from the same names on both sides.
    exact h.eq_iff hascii hk
  rw [ScriptLanguage.ofName?_eq_some_shell_iff]
  constructor
  · intro hmem
    rwa [(hsame _ hmem).mp rfl]
  · intro hmem
    rwa [(hsame _ hmem).mpr rfl]

theorem shell_runsLanguage_iff (executable name : String) :
    (shell executable).runsLanguage name = true ↔
      ScriptLanguage.ofName? name = some .shell := by
  show shellLanguages.contains _ = true ↔ _
  rw [List.contains_iff_mem]
  exact mem_shellLanguages_iff (lowersTo_lowercase _)

/-- The shell runs a script in a language that is known if it is a shell script, and refuses every
other one. -/
theorem shell_runScript {language : ScriptLanguage}
    (h : ScriptLanguage.ofName? name = some language) :
    (shell executable).runScript name script values =
      if language = .shell then runShell executable script values
      else .error (.execution (.shellLanguageNotSupported name)) := by
  have hruns : (shell executable).runsLanguage name = true ↔ language = .shell := by
    rw [shell_runsLanguage_iff, h, Option.some_inj]
  exact if_congr hruns rfl rfl

end ScriptRunner

/-! ## Scripts in a language -/

/-- The task is a script, the name of its language means this one, and its dependencies are the
names that a script in this language reads. -/
structure Task.IsScriptIn (t : Task) (language : ScriptLanguage) : Prop where
  isScript : t.executionType = .script
  named : ScriptLanguage.ofName? (t.contentLanguage.getD "") = some language
  scanned : t.dependencies = language.freeNames t.content

/-- A coherent script is in some language. -/
theorem Task.Coherent.exists_isScriptIn {t : Task} (h : t.Coherent)
    (hscript : t.executionType = .script) : ∃ language, t.IsScriptIn language := by
  obtain ⟨name, language, hname, hlanguage, hscanned⟩ := h.script hscript
  refine ⟨language, hscript, ?_, hscanned⟩
  rwa [hname]

/-! ## Calls to runners -/

namespace Tools

variable {N : Type} {tools : Tools} {t : Task} {content language : String} {calls : List (Event N)}
  {ending : CallsEnd} {i : Nat} {parameters : Bindings String} {answer : Result String}

/-- What a script runner is sent to produce an output is the script of the task, and the runner is
the first one for its language. -/
theorem Produces.of_runScript_mem (h : tools.Produces t values content calls ending)
    (hmem : .answered (.runScript i language script parameters) answer ∈ calls) :
    t.executionType = .script ∧ t.contentLanguage.getD "" = language ∧ t.content = script ∧
      tools.IsFirstRunner (·.runsLanguage language) i := by
  cases h with
  | template => cases hmem
  | noRunner => cases hmem
  | noInterface => cases hmem
  | dialog => cases List.mem_singleton.mp hmem
  | noGenerator _ _ hchosen =>
    obtain ⟨_, _, heq⟩ := hchosen.listModels_of_mem hmem
    cases heq
  | prompt _ _ hchosen =>
    rcases List.mem_append.mp hmem with hmem | hmem
    · obtain ⟨_, _, heq⟩ := hchosen.listModels_of_mem hmem
      cases heq
    · cases List.mem_singleton.mp hmem
  | script htype hlanguage hfirst =>
    cases List.mem_singleton.mp hmem
    exact ⟨htype, hlanguage, rfl, hfirst⟩

/-- Nothing else that an attempt does sends a script to a runner. -/
theorem Attempts.of_runScript_mem (h : tools.Attempts t values content calls ending)
    (hmem : .answered (.runScript i language script parameters) answer ∈ calls) :
    t.executionType = .script ∧ t.contentLanguage.getD "" = language ∧ t.content = script ∧
      tools.IsFirstRunner (·.runsLanguage language) i := by
  cases h with
  | unproduced hproduced => exact hproduced.of_runScript_mem hmem
  | produced hproduced happlied =>
    rcases List.mem_append.mp hmem with hmem | hmem
    · exact hproduced.of_runScript_mem hmem
    · obtain ⟨_, _, _, _, _, heq⟩ := happlied.applyFunction_of_mem hmem
      cases heq

/-- A runner that runs the language has the first one at its place or before it. -/
theorem exists_languageRunner? {runner : RunnerProfile} (hi : tools.runners[i]? = some runner)
    (hruns : runner.runsLanguage language = true) :
    ∃ j ≤ i, tools.languageRunner? language = some j := by
  cases hfirst : tools.languageRunner? language with
  | none =>
    have hnone := lacksRunner_of_findIdx? hfirst runner (List.mem_of_getElem? hi)
    exact absurd (hnone.symm.trans hruns) Bool.false_ne_true
  | some j =>
    refine ⟨j, Nat.le_of_not_lt fun hlt => ?_, rfl⟩
    have hnot := (isFirstRunner_of_findIdx? hfirst).first i hlt runner hi
    exact absurd (hnot.symm.trans hruns) Bool.false_ne_true

end Tools

namespace Executor

variable {N : Type} [Zero N] [Add N] {x : Executor}

open Act RunState

/-- Every call of a run is one of an attempt at a task. -/
theorem exists_attempt_of_answered {schedule : Schedule} {inputs : Bindings String}
    {history : List (Event N)} {r : Result (Outcome N)}
    (hrun : (x.execute schedule inputs).Reaches history (.done r)) {c : Call} {answer : c.Answer N}
    (hmem : .answered c answer ∈ history) :
    ∃ i values content calls ending,
      x.tools.Attempts (x.pipeline.taskAt i) values content calls ending ∧
      .answered c answer ∈ calls := by
  obtain ⟨trace, closing, s, rfl, htraced, hends⟩ := exists_traced hrun
  obtain ⟨acts, cancelled, hwaits, rfl⟩ := htraced.waits
  have hcall : .answered c answer ∈
      x.pipeline.tasks.map (fun task => .notified (.about task .pending 0)) ++
        acts.map (·.entry.2) ++ closing := by
    simpa [Function.comp_def] using hmem
  obtain ⟨i, hi⟩ := exists_work_of_answered hends hcall
  obtain ⟨values, content, calls, ending, hattempts, hmem⟩ :=
    (hwaits.steps.isDirected (List.ne_nil_of_mem hi)).exists_attempt hi
  exact ⟨i, values, content, calls, ending, hattempts, hmem⟩

/-- **The shell takes just the scripts that were scanned as shell scripts.** The runner for the
shell runs a language if and only if the name of the language means the shell to the compiler, and
it would not matter which small letter a capital sigma turned into. Each script of a compiled
pipeline is in some language; the shell runs it if this is the shell, and refuses it otherwise. In a
run with a shell among the runners there is a runner for each shell script, at the place of the
shell or before it; and whatever a shell is sent is a task of the pipeline that was scanned as a
shell script. -/
theorem shell_runs_shell_scripts :
    (∀ executable name, (ScriptRunner.shell executable).runsLanguage name = true ↔
      ScriptLanguage.ofName? name = some .shell) ∧
    (∀ name small, LowersTo name.toList small →
      (.ofList small ∈ ScriptRunner.shellLanguages ↔
        ScriptLanguage.ofName? name = some .shell)) ∧
    ∀ source p, Pipeline.ofSource source = .ok p →
      (∀ t ∈ p.tasks, t.executionType = .script → ∃ language, t.IsScriptIn language ∧
        ∀ executable script values,
          (ScriptRunner.shell executable).runScript (t.contentLanguage.getD "") script values =
            if language = .shell then ScriptRunner.runShell executable script values
            else .error (.execution
              (.shellLanguageNotSupported (t.contentLanguage.getD "")))) ∧
      ∀ (N : Type) [Zero N] [Add N] (tools : Tools) (settings : ExecutionSettings) (x : Executor),
        ofPipeline p tools settings = .ok x →
        ∀ executable i, tools.runners[i]? = some (ScriptRunner.shell executable).profile →
          (∀ t ∈ p.tasks, t.IsScriptIn .shell →
            ∃ j ≤ i, tools.languageRunner? (t.contentLanguage.getD "") = some j) ∧
          ∀ (schedule : Schedule) (inputs : Bindings String) (history : List (Event N))
            (r : Result (Outcome N)), (x.execute schedule inputs).Reaches history (.done r) →
            ∀ language script parameters answer,
              .answered (.runScript i language script parameters) answer ∈ history →
              ∃ t ∈ p.tasks, t.IsScriptIn .shell ∧ t.contentLanguage.getD "" = language ∧
                t.content = script := by
  refine ⟨ScriptRunner.shell_runsLanguage_iff,
    fun _ _ => ScriptRunner.mem_shellLanguages_iff, fun source p hsource => ?_⟩
  have hcoherent := Pipeline.Coherent.of_source hsource
  refine ⟨fun t ht hscript => ?_, fun N _ _ tools settings x hx executable i hi => ⟨?_, ?_⟩⟩
  · obtain ⟨language, hlanguage⟩ := (hcoherent.tasks t ht).exists_isScriptIn hscript
    exact ⟨language, hlanguage, fun _ _ _ => ScriptRunner.shell_runScript hlanguage.named⟩
  · intro t ht hshell
    have hruns := (ScriptRunner.shell_runsLanguage_iff executable _).mpr hshell.named
    exact Tools.exists_languageRunner? hi hruns
  · intro schedule inputs history r hrun language script parameters answer hmem
    obtain ⟨order, rfl, -⟩ := accepted_of_ofPipeline hx
    obtain ⟨k, values, content, calls, ending, hattempts, hcall⟩ :=
      exists_attempt_of_answered hrun hmem
    obtain ⟨hscript, rfl, rfl, hfirst⟩ := hattempts.of_runScript_mem hcall
    -- The runner at this place is the shell, and it runs the language of the task.
    obtain ⟨runner, hrunner, hruns⟩ := hfirst.capable
    obtain rfl := Option.some.inj (hi.symm.trans hrunner)
    have hmeans := (ScriptRunner.shell_runsLanguage_iff executable _).mp hruns
    have ht := Pipeline.taskAt_mem (p := p) k
    obtain ⟨language, hlanguage⟩ := (hcoherent.tasks _ ht).exists_isScriptIn hscript
    obtain rfl := Option.some.inj (hlanguage.named.symm.trans hmeans)
    exact ⟨_, ht, hlanguage, rfl, rfl⟩

end Executor

/-! ## A script for the shell -/

/-- The source of a pipeline with one script, which names its language in mixed case. -/
def Pipeline.spokenSource : String :=
  "# Greetings\n\n- PROMPTBOOK VERSION 1.0.0\n- INPUT PARAMETER \x7bguest\x7d\n" ++
    "- OUTPUT PARAMETER \x7bgreeting\x7d\n\n## Greet\n\n- EXECUTE SCRIPT\n\n" ++
    "```Bash\necho Hi $guest\n```\n\n-> \x7bgreeting\x7d\n"

/-- The pipeline of this source. -/
def Pipeline.spoken : Pipeline :=
  { url := none, title := "Greetings", dialectVersion := "1.0.0", description := none
    parameters := [{ name := "guest", isInput := true }, { name := "greeting", isOutput := true }]
    tasks := [{ Task.fillIn "greet" "echo Hi $guest" "greeting" ["guest"] with
      title := "Greet", executionType := .script, contentLanguage := some "Bash" }]
    knowledge := [] }

/-- A shell and nothing else. -/
def Tools.onlyShell : Tools :=
  { Tools.none with runners := [(ScriptRunner.shell "bash").profile] }

/-- What runs the pipeline with a shell. -/
def Executor.spoken : Executor :=
  ⟨.spoken, .onlyShell, {}, [⟨0, Nat.one_pos⟩]⟩

/-- The answers where every script writes the word and all else fails. -/
def Call.voice {N : Type} (word : String) : (c : Call) → c.Answer N
  | .runScript _ _ _ _ => .ok word
  | .listModels _ | .generate _ _ _ | .applyFunction _ _ _ _ | .askUser _ _ =>
    .error (.execution (.reported "refused" true))

/-- Where other answers lead to another result, a call was made that they answer in another way. -/
theorem Activity.Reaches.exists_answered {N α : Type} {answers answers' : (c : Call) → c.Answer N}
    {a : Activity N α} {history : List (Event N)} {r : α} (h : a.Reaches history (.done r))
    (hobeys : ∀ e ∈ history, e.Obeys answers) (hne : r ≠ a.evaluate answers') :
    ∃ c, .answered c (answers c) ∈ history ∧ answers c ≠ answers' c := by
  by_contra hnone
  refine hne (h.eq_evaluate fun e he => ?_)
  have hobey := hobeys e he
  cases e with
  | looked => exact hobey
  | notified => exact hobey
  | answered c answer =>
    obtain rfl : answer = answers c := hobey
    by_contra hother
    exact hnone ⟨c, he, hother⟩

namespace Executor

/-- The greeting is what the script writes. -/
theorem evaluate_spoken (word : String) :
    ((spoken.execute .firstTask (.ofList [("guest", "Ada")])).evaluate (N := Nat)
      (Call.voice word)).map (fun o => o.report.outputs.get? "greeting") = .ok (some word) := by
  cbv

theorem ofSource_spokenSource : Pipeline.ofSource Pipeline.spokenSource = .ok .spoken := by
  have hdecide : (match Pipeline.ofSource Pipeline.spokenSource with
      | .ok p => decide (p = .spoken)
      | .error _ => false) = true := by decide +kernel
  split at hdecide
  next p hp => rw [hp, of_decide_eq_true hdecide]
  next => cases hdecide

/-- Scripts that write another word lead to another greeting, so the shell is sent a script. -/
theorem exists_spoken_script :
    ∃ (history : List (Event Nat)) (r : Result (Outcome Nat)) (i : Nat) (language script : String)
      (values : Bindings String) (answer : Result String),
      (spoken.execute .firstTask (.ofList [("guest", "Ada")])).Reaches history (.done r) ∧
      Tools.onlyShell.runners[i]? = some (ScriptRunner.shell "bash").profile ∧
      .answered (.runScript i language script values) answer ∈ history := by
  obtain ⟨history, hreaches, hobeys⟩ := Activity.exists_reaches_evaluate (N := Nat)
    (Call.voice "Hi") (spoken.execute .firstTask (.ofList [("guest", "Ada")]))
  -- A run without a call would end in the same way whatever the calls are answered.
  have hne : (spoken.execute .firstTask (.ofList [("guest", "Ada")])).evaluate (N := Nat)
      (Call.voice "Hi") ≠ (spoken.execute .firstTask (.ofList [("guest", "Ada")])).evaluate
        (Call.voice "Ho") := by
    intro heq
    have hgreeting := evaluate_spoken "Hi"
    rw [heq, evaluate_spoken "Ho"] at hgreeting
    simp at hgreeting
  obtain ⟨c, hmem, hother⟩ := hreaches.exists_answered hobeys hne
  cases c with
  | runScript i language script values =>
    obtain ⟨k, _, content, calls, ending, hattempts, hcall⟩ :=
      exists_attempt_of_answered hreaches hmem
    obtain ⟨-, -, -, hfirst⟩ := hattempts.of_runScript_mem hcall
    obtain ⟨runner, hrunner, -⟩ := hfirst.capable
    obtain rfl := List.mem_singleton.mp (List.mem_of_getElem? hrunner)
    exact ⟨history, _, i, language, script, values, _, hreaches, hrunner, hmem⟩
  | listModels | generate | applyFunction | askUser => exact absurd rfl hother

/-- A script in a language that is spelled in mixed case is sent to the shell, which has the
language on its list in lowercase and runs the script; and it was scanned as a shell script. -/
theorem bash_script_goes_to_shell :
    Pipeline.ofSource Pipeline.spokenSource = .ok .spoken ∧
    ofPipeline .spoken .onlyShell {} = .ok spoken ∧
    "bash" ∈ ScriptRunner.shellLanguages ∧ Tools.onlyShell.languageRunner? "Bash" = some 0 ∧
    ∃ (history : List (Event Nat)) (r : Result (Outcome Nat)) (i : Nat) (values : Bindings String)
      (answer : Result String),
      (spoken.execute .firstTask (.ofList [("guest", "Ada")])).Reaches history (.done r) ∧
      .answered (.runScript i "Bash" "echo Hi $guest" values) answer ∈ history ∧
      (ScriptRunner.shell "bash").runScript "Bash" "echo Hi $guest" values =
        ScriptRunner.runShell "bash" "echo Hi $guest" values ∧
      ∃ t ∈ Pipeline.spoken.tasks, t.IsScriptIn .shell := by
  have hx : ofPipeline .spoken .onlyShell {} = .ok spoken := by
    cbv
  obtain ⟨hruns, hlowers, hcompiled⟩ := shell_runs_shell_scripts
  obtain ⟨hscripts, hrun⟩ := hcompiled _ _ ofSource_spokenSource
  have hmeans : ScriptLanguage.ofName? "Bash" = some .shell := (hruns "bash" "Bash").mp (by decide)
  have hbash : "bash" ∈ ScriptRunner.shellLanguages :=
    (hlowers "Bash" _ (lowersTo_lowercase "Bash".toList)).mpr hmeans
  obtain ⟨history, r, i, _, _, values, answer, hreaches, hrunner, hmem⟩ := exists_spoken_script
  obtain ⟨t, ht, hshell, rfl, rfl⟩ :=
    (hrun Nat _ _ _ hx "bash" i hrunner).2 _ _ history r hreaches _ _ _ _ hmem
  obtain ⟨j, hj, hfirst⟩ := (hrun Nat _ _ _ hx "bash" 0 rfl).1 t ht hshell
  obtain rfl := Nat.le_zero.mp hj
  obtain ⟨language, hlanguage, hrunScript⟩ := hscripts t ht hshell.isScript
  obtain rfl := Option.some.inj (hshell.named.symm.trans hlanguage.named)
  have hscript := hrunScript "bash" t.content values
  rw [if_pos rfl] at hscript
  obtain rfl := List.mem_singleton.mp ht
  exact ⟨ofSource_spokenSource, hx, hbash, hfirst, history, r, i, values, answer, hreaches, hmem,
    hscript, _, ht, hshell⟩

end Executor

end PromptPipeline
