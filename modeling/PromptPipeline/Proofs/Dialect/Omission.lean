import PromptPipeline.Proofs.Dialect.Refusal

/-!
# What a source leaves out

A source as a whole may lack a version of the dialect, or parameters. The compiler sees this from
what the commands of the source have set, and it misses none of them: a command leaves a mark on
what is read, and no later block takes it away (`marked_of_foldlM`). So where there is no version at
the end, no block of the header gave one, and where there are no parameters, no block declared one.

Main statements: `Header.version_ne_none`, `Header.parameters_ne_nil`, `sectionTasks_ne_nil`.
-/

namespace PromptPipeline

/-- If a command leaves a mark, and each block leaves the mark where it is, then the mark is there
after all blocks if one of them asks for the command. -/
theorem marked_of_foldlM {α : Type} {read : α → Content → Result α} {P : α → Prop}
    {command : Command}
    (hset : ∀ {a text line a'}, read a (.item text line) = .ok a' →
      Command.ofItem text = .ok command → P a')
    (hkeep : ∀ {a c a'}, read a c = .ok a' → P a → P a')
    {contents : List Content} {a a' : α} (h : contents.foldlM read a = .ok a')
    (hasks : Asks contents command) : P a' := by
  obtain ⟨text, line, hmem, hitem⟩ := hasks
  obtain ⟨before, after, rfl⟩ := List.append_of_mem hmem
  rw [List.foldlM_append] at h
  obtain ⟨a₁, -, h⟩ := bind_eq_ok_iff.mp h
  obtain ⟨a₂, hread, hafter⟩ := foldlM_cons_eq_ok_iff.mp h
  exact foldlM_induction (fun _ _ _ ha hread => hkeep hread ha) (hset hread hitem) hafter

/-- After a declaration there are parameters. -/
theorem declare_ne_nil {ps qs : List Parameter} {d : Declaration} {line : Nat}
    (h : declare ps d line = .ok qs) : qs ≠ [] := by
  rcases declare_cases h with ⟨-, rfl⟩ | ⟨before, p, after, rfl, -, -, -, rfl⟩
  · exact List.append_ne_nil_of_right_ne_nil _ (List.cons_ne_nil _ _)
  · exact List.append_ne_nil_of_right_ne_nil _ (List.cons_ne_nil _ _)

/-! ## The header -/

namespace Header

variable {h h' : Header} {contents : List Content}

/-- The header obeys the command of a list item. -/
theorem obey_of_read {text : String} {line : Nat} {command : Command}
    (hread : h.read (.item text line) = .ok h') (hitem : Command.ofItem text = .ok command) :
    h.obey line command = .ok h' := by
  obtain ⟨command', hparse, hobey⟩ := bind_eq_ok_iff.mp hread
  cases hitem.symm.trans (Command.parse_eq_ok_iff.mp hparse)
  exact hobey

/-- No block takes the version or the parameters away. -/
theorem read_keeps {c : Content} (hread : h.read c = .ok h') :
    (h.version ≠ none → h'.version ≠ none) ∧ (h.parameters ≠ [] → h'.parameters ≠ []) := by
  cases read_eq_ok_iff.mp hread with
  | version => exact ⟨fun _ => Option.some_ne_none _, id⟩
  | parameter _ hdeclare => exact ⟨id, fun _ => declare_ne_nil hdeclare⟩
  | url | model | paragraph => exact ⟨id, id⟩

/-- A header that gives a version has one. -/
theorem version_ne_none (hread : contents.foldlM Header.read {} = .ok h) {version : String}
    (hasks : Asks contents (.dialectVersion version)) : h.version ≠ none := by
  refine marked_of_foldlM (P := fun h => h.version ≠ none) (fun hread hitem => ?_)
    (fun hread => (read_keeps hread).1) hread hasks
  obtain ⟨_, hset, heq⟩ := bind_eq_ok_iff.mp (obey_of_read hread hitem)
  obtain ⟨-, rfl⟩ := setOnce_eq_ok_iff.mp hset
  cases heq
  exact Option.some_ne_none _

/-- A header that declares a parameter has one. -/
theorem parameters_ne_nil (hread : contents.foldlM Header.read {} = .ok h) {d : Declaration}
    (hasks : Asks contents (.parameter d)) : h.parameters ≠ [] := by
  refine marked_of_foldlM (P := fun h => h.parameters ≠ []) (fun hread hitem => ?_)
    (fun hread => (read_keeps hread).2) hread hasks
  obtain ⟨parameters, hdeclare, heq⟩ := bind_eq_ok_iff.mp (obey_of_read hread hitem)
  cases heq
  exact declare_ne_nil hdeclare

end Header

/-! ## Sections -/

namespace Draft

variable {d d' : Draft} {task : String}

/-- The section obeys the command of a list item. -/
theorem obey_of_read {text : String} {line : Nat} {command : Command}
    (hread : Draft.read task d (.item text line) = .ok d')
    (hitem : Command.ofItem text = .ok command) : d.obey line command = .ok d' := by
  obtain ⟨command', hparse, hobey⟩ := bind_eq_ok_iff.mp hread
  cases hitem.symm.trans (Command.parse_eq_ok_iff.mp hparse)
  exact hobey

/-- No block takes the parameters away. -/
theorem read_keeps {c : Content} (hread : Draft.read task d c = .ok d') (hd : d.parameters ≠ []) :
    d'.parameters ≠ [] := by
  cases read_eq_ok_iff.mp hread with
  | parameter _ hdeclare => exact declare_ne_nil hdeclare
  | execute | model | joker | postprocess | expect | paragraph | code | arrow => exact hd

end Draft

/-- After a section there are parameters if there were some before or the section declares one. -/
theorem Section.toTask_ne_nil {s : Section} {model : ModelSetting} {ps qs : List Parameter}
    {t : Task} (h : s.toTask model ps = .ok (t, qs)) :
    (ps ≠ [] → qs ≠ []) ∧ ∀ d, Asks s.contents (.parameter d) → qs ≠ [] := by
  obtain ⟨-, draft, hread, -, rfl⟩ := toTask_eq_ok_iff.mp h
  refine ⟨fun hps => ?_, fun d hasks => ?_⟩
  · exact foldlM_induction (P := fun d : Draft => d.parameters ≠ [])
      (fun _ _ _ hd hread => Draft.read_keeps hread hd) hps hread
  · refine marked_of_foldlM (P := fun d => d.parameters ≠ []) (fun hread hitem => ?_)
      Draft.read_keeps hread hasks
    obtain ⟨parameters, hdeclare, heq⟩ := bind_eq_ok_iff.mp (Draft.obey_of_read hread hitem)
    cases heq
    exact declare_ne_nil hdeclare

/-- After all sections there are parameters if there were some before or one of them declares one. -/
theorem sectionTasks_ne_nil {model : ModelSetting} {ps qs : List Parameter}
    {sections : List Section} {ts : List Task}
    (h : sectionTasks model ps sections = .ok (ts, qs)) :
    (ps ≠ [] → qs ≠ []) ∧ ∀ s ∈ sections, ∀ d, Asks s.contents (.parameter d) → qs ≠ [] := by
  induction sections generalizing ps ts with
  | nil =>
    cases h
    exact ⟨id, List.forall_mem_nil _⟩
  | cons s rest ih =>
    obtain ⟨t, ps', ts', htask, hrest, rfl⟩ := sectionTasks_cons_eq_ok_iff.mp h
    obtain ⟨hbefore, hsection⟩ := s.toTask_ne_nil htask
    obtain ⟨hafter, hsections⟩ := ih hrest
    exact ⟨fun hps => hafter (hbefore hps),
      List.forall_mem_cons.mpr ⟨fun d hasks => hafter (hsection d hasks), hsections⟩⟩

end PromptPipeline
