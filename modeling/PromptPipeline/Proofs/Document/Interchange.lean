import PromptPipeline.Document.Json
import PromptPipeline.Proofs.Json.Record

/-!
# Documents survive their interchange form

A pipeline document that is written as JSON text is read back as it was, whatever its strings, lists
and choices are (`Pipeline.ofJsonText_toJsonText`). For each kind of record there are two facts: the
record of a value stands for the value (`ofJson?_toJson`), and its text can be read
(`toJson_readableAt`), which only depends on how deep records are nested in one another.
-/

namespace PromptPipeline

open Json

/-! ## Choices and amounts -/

theorem ExecutionType.choice?_name (t : ExecutionType) :
    choice? ExecutionType.names (.string t.name) = some t := by
  cases t <;> rfl

theorem ModelVariant.choice?_label (v : ModelVariant) :
    choice? ModelVariant.names (.string v.label) = some v := by
  cases v <;> rfl

theorem Sign.choice?_name (s : Sign) : choice? Sign.names (.string s.name) = some s := by
  cases s <;> rfl

theorem TextUnit.choice?_label (u : TextUnit) :
    choice? TextUnit.names (.string u.label) = some u := by
  cases u <;> rfl

theorem TextFormat.choice?_label (f : TextFormat) :
    choice? TextFormat.names (.string f.label) = some f := by
  cases f
  rfl

theorem word?_amountJson (n : Amount) : word? (amountJson n) = some n := by
  show (if n.toNat < UInt32.size then some n.toNat else none).map UInt32.ofNat = some n
  rw [if_pos n.toNat_lt, Option.map_some, UInt32.ofNat_toNat]

theorem amountJson_readableAt (n : Amount) (depth : Nat) : (amountJson n).ReadableAt depth :=
  ofNat_readableAt (Nat.le_trans (Nat.le_of_lt n.toNat_lt) (by decide))

/-! ## Expectations -/

theorem Expectation.ofJson?_toJson (e : Expectation) : ofJson? e.toJson = some e := by
  cases e with
  | amount sign unit n =>
    let members : List (String × Json) :=
      [("sign", .string sign.name), ("unit", .string unit.label), ("amount", amountJson n)]
    have hrecord : record? ["sign", "unit", "amount"] (.object members) = some members :=
      record?_of_nodup (by simp [members])
    have hsign : required? members "sign" (choice? Sign.names) = some sign := sign.choice?_name
    have hunit : required? members "unit" (choice? TextUnit.names) = some unit :=
      unit.choice?_label
    have hamount : required? members "amount" word? = some n := word?_amountJson n
    show ofTyped? "AMOUNT" (.object members) = _
    unfold ofTyped?
    simp only [if_true, hrecord, hsign, hunit, hamount, Option.bind_eq_bind, Option.bind_some]
  | format f =>
    let members : List (String × Json) := [("format", .string f.label)]
    have hrecord : record? ["format"] (.object members) = some members :=
      record?_of_nodup (by simp [members])
    have hformat : required? members "format" (choice? TextFormat.names) = some f :=
      f.choice?_label
    have hne : ¬"FORMAT" = "AMOUNT" := by decide
    show ofTyped? "FORMAT" (.object members) = _
    unfold ofTyped?
    simp only [if_neg hne, if_true, hrecord, hformat, Option.bind_eq_bind, Option.bind_some]

theorem Expectation.toJson_readableAt (e : Expectation) (depth : Nat) :
    e.toJson.ReadableAt (depth + 1) := by
  cases e with
  | amount sign unit n =>
    exact ⟨string_readableAt _ _, string_readableAt _ _, string_readableAt _ _,
      amountJson_readableAt n depth, trivial⟩
  | format f => exact ⟨string_readableAt _ _, string_readableAt _ _, trivial⟩

/-! ## Parameters and requirements -/

theorem Parameter.ofJson?_toJson (p : Parameter) : ofJson? p.toJson = some p := by
  have hnames : (p.toJson.members.map (·.1)).Sublist
      ["name", "description", "isInput", "isOutput"] := by
    simp only [toJson, members, List.map_append]
    exact ((List.Sublist.refl ["name"]).append (map_fst_present_sublist ..)).append (.refl _)
  have hrecord : record? ["name", "description", "isInput", "isOutput"] p.toJson =
      some p.toJson.members := record?_of_sublist hnames (by decide)
  have hname : required? p.toJson.members "name" string? = some p.name := rfl
  have hdescription : optional? p.toJson.members "description" string? = some p.description := by
    refine optional?_of_lookup .string ?_ fun _ => rfl
    simp [toJson, members, List.lookup_append, List.lookup_cons]
  have hinput : withDefault? p.toJson.members "isInput" false bool? = some p.isInput := by
    simp [withDefault?, toJson, members, List.lookup_append, List.lookup_cons, bool?]
  have houtput : withDefault? p.toJson.members "isOutput" false bool? = some p.isOutput := by
    simp [withDefault?, toJson, members, List.lookup_append, List.lookup_cons, bool?]
  unfold ofJson?
  simp only [hrecord, hname, hdescription, hinput, houtput, Option.bind_eq_bind, Option.bind_some]

theorem Parameter.toJson_readableAt (p : Parameter) (depth : Nat) :
    p.toJson.ReadableAt (depth + 1) := by
  have hname : MembersReadableAt depth [("name", .string p.name)] :=
    ⟨string_readableAt _ _, trivial⟩
  have hdescription : MembersReadableAt depth (present "description" .string p.description) :=
    present_readableAt (fun s => string_readableAt s depth) _ _
  exact (hname.append hdescription).append ⟨bool_readableAt _ _, bool_readableAt _ _, trivial⟩

theorem ModelRequirements.ofJson?_toJson (r : ModelRequirements) : ofJson? r.toJson = some r := by
  have hnames : (r.toJson.members.map (·.1)).Sublist
      ["modelVariant", "modelName", "maxTokens"] := by
    simp only [toJson, members, List.map_append]
    exact ((List.Sublist.refl ["modelVariant"]).append (map_fst_present_sublist ..)).append
      (map_fst_present_sublist ..)
  have hrecord : record? ["modelVariant", "modelName", "maxTokens"] r.toJson =
      some r.toJson.members := record?_of_sublist hnames (by decide)
  have hvariant : required? r.toJson.members "modelVariant" (choice? ModelVariant.names) =
      some r.variant := r.variant.choice?_label
  have hname : optional? r.toJson.members "modelName" string? = some r.modelName := by
    refine optional?_of_lookup .string ?_ fun _ => rfl
    simp [toJson, members, List.lookup_append, List.lookup_cons]
  have htokens : optional? r.toJson.members "maxTokens" word? = some r.maxTokens := by
    refine optional?_of_lookup amountJson ?_ fun n => ?_
    · simp [toJson, members, List.lookup_append, List.lookup_cons]
    · exact congrArg (Option.map some) (word?_amountJson n)
  unfold ofJson?
  simp only [hrecord, hvariant, hname, htokens, Option.bind_eq_bind, Option.bind_some]

theorem ModelRequirements.toJson_readableAt (r : ModelRequirements) (depth : Nat) :
    r.toJson.ReadableAt (depth + 1) := by
  have hvariant : MembersReadableAt depth [("modelVariant", .string r.variant.label)] :=
    ⟨string_readableAt _ _, trivial⟩
  have hname : MembersReadableAt depth (present "modelName" .string r.modelName) :=
    present_readableAt (fun s => string_readableAt s depth) _ _
  exact (hvariant.append hname).append
    (present_readableAt (fun n => amountJson_readableAt n depth) _ _)

/-! ## Tasks -/

namespace Task

theorem map_fst_members_sublist (t : Task) :
    (t.toJson.members.map (·.1)).Sublist memberNames := by
  simp only [toJson, members, List.map_append]
  have hhead := (List.Sublist.refl ["name", "title"]).append
    (map_fst_present_sublist "description" .string t.description)
  have hmodel := (hhead.append (.refl ["executionType", "dependentParameterNames"])).append
    (map_fst_present_sublist "modelRequirements" ModelRequirements.toJson t.modelRequirements)
  have hcontent := (hmodel.append
    (map_fst_present_sublist "contentLanguage" .string t.contentLanguage)).append
    (.refl ["content", "resultingParameterName"])
  exact ((hcontent.append (map_fst_nonempty_sublist "postprocessing" .string _)).append
    (map_fst_nonempty_sublist "expectations" Expectation.toJson _)).append
    (map_fst_nonempty_sublist "jokerParameterNames" .string _)

theorem ofJson?_toJson (t : Task) : ofJson? t.toJson = some t := by
  have hrecord : record? memberNames t.toJson = some t.toJson.members :=
    record?_of_sublist t.map_fst_members_sublist (by decide)
  have hname : required? t.toJson.members "name" string? = some t.name := rfl
  have htitle : required? t.toJson.members "title" string? = some t.title := rfl
  have hdescription : optional? t.toJson.members "description" string? = some t.description := by
    refine optional?_of_lookup .string ?_ fun _ => rfl
    simp [toJson, members, List.lookup_append, List.lookup_cons]
  have htype : required? t.toJson.members "executionType" (choice? ExecutionType.names) =
      some t.executionType := by
    refine required?_of_lookup ?_ t.executionType.choice?_name
    simp [toJson, members, List.lookup_append, List.lookup_cons]
  have hdependencies : required? t.toJson.members "dependentParameterNames" (list? string?) =
      some t.dependencies.toList := by
    refine required?_of_lookup ?_ (list?_ofStrings _)
    simp [toJson, members, List.lookup_append, List.lookup_cons]
  have hmodel : optional? t.toJson.members "modelRequirements" ModelRequirements.ofJson? =
      some t.modelRequirements := by
    refine optional?_of_lookup ModelRequirements.toJson ?_ fun r => ?_
    · simp [toJson, members, List.lookup_append, List.lookup_cons]
    · exact congrArg (Option.map some) r.ofJson?_toJson
  have hlanguage : optional? t.toJson.members "contentLanguage" string? =
      some t.contentLanguage := by
    refine optional?_of_lookup .string ?_ fun _ => rfl
    simp [toJson, members, List.lookup_append, List.lookup_cons]
  have hcontent : required? t.toJson.members "content" string? = some t.content := by
    refine required?_of_lookup (j := .string t.content) ?_ rfl
    simp [toJson, members, List.lookup_append, List.lookup_cons]
  have hresult : required? t.toJson.members "resultingParameterName" string? = some t.result := by
    refine required?_of_lookup (j := .string t.result) ?_ rfl
    simp [toJson, members, List.lookup_append, List.lookup_cons]
  have hpostprocessing : withDefault? t.toJson.members "postprocessing" [] (list? string?) =
      some t.postprocessing := by
    refine withDefault?_of_lookup .string ?_ fun _ => rfl
    simp [toJson, members, List.lookup_append, List.lookup_cons]
  have hexpectations : withDefault? t.toJson.members "expectations" [] (list? Expectation.ofJson?) =
      some t.expectations := by
    refine withDefault?_of_lookup Expectation.toJson ?_ Expectation.ofJson?_toJson
    simp [toJson, members, List.lookup_append, List.lookup_cons]
  have hjokers : withDefault? t.toJson.members "jokerParameterNames" [] (list? string?) =
      some t.jokers := by
    refine withDefault?_of_lookup .string ?_ fun _ => rfl
    simp [toJson, members, List.lookup_append, List.lookup_cons]
  unfold ofJson?
  simp only [hrecord, hname, htitle, hdescription, htype, hdependencies, hmodel, hlanguage,
    hcontent, hresult, hpostprocessing, hexpectations, hjokers, Option.bind_eq_bind,
    Option.bind_some, NameSet.ofList_toList]

theorem toJson_readableAt (t : Task) (depth : Nat) : t.toJson.ReadableAt (depth + 3) := by
  have hstring (s : String) (depth : Nat) : (Json.string s).ReadableAt depth :=
    string_readableAt s depth
  have hoptional (name : String) (value : Option String) :
      MembersReadableAt (depth + 2) (present name .string value) :=
    present_readableAt (fun s => hstring s _) name value
  have hlist (name : String) (items : List String) :
      MembersReadableAt (depth + 2) (nonempty name .string items) :=
    nonempty_readableAt (fun s => hstring s _) name items
  have hnames : MembersReadableAt (depth + 2)
      [("executionType", .string t.executionType.name),
        ("dependentParameterNames", ofStrings t.dependencies.toList)] :=
    ⟨hstring _ _, ofStrings_readableAt _ _, trivial⟩
  have hmodel : MembersReadableAt (depth + 2)
      (present "modelRequirements" ModelRequirements.toJson t.modelRequirements) :=
    present_readableAt (fun r => r.toJson_readableAt _) _ _
  have hexpectations : MembersReadableAt (depth + 2)
      (nonempty "expectations" Expectation.toJson t.expectations) :=
    nonempty_readableAt (fun e => e.toJson_readableAt _) _ _
  have hhead : MembersReadableAt (depth + 2)
      [("name", .string t.name), ("title", .string t.title)] := ⟨hstring _ _, hstring _ _, trivial⟩
  have hcontent : MembersReadableAt (depth + 2)
      [("content", .string t.content), ("resultingParameterName", .string t.result)] :=
    ⟨hstring _ _, hstring _ _, trivial⟩
  exact (((((((hhead.append (hoptional _ _)).append hnames).append hmodel).append
    (hoptional _ _)).append hcontent).append (hlist _ _)).append hexpectations).append (hlist _ _)

end Task

/-! ## Knowledge -/

theorem KnowledgeSource.ofJson?_toJson (s : KnowledgeSource) : ofJson? s.toJson = some s := by
  have hrecord : record? ["title", "href"] s.toJson = some s.toJson.members :=
    record?_of_sublist (.refl _) (by decide)
  have htitle : required? s.toJson.members "title" string? = some s.title := rfl
  have href : required? s.toJson.members "href" string? = some s.href := rfl
  unfold ofJson?
  simp only [hrecord, htitle, href, Option.bind_eq_bind, Option.bind_some]

theorem KnowledgeSource.toJson_readableAt (s : KnowledgeSource) (depth : Nat) :
    s.toJson.ReadableAt (depth + 1) :=
  ⟨string_readableAt _ _, string_readableAt _ _, trivial⟩

theorem KnowledgePiece.ofJson?_toJson (k : KnowledgePiece) : ofJson? k.toJson = some k := by
  have hrecord : record? ["name", "title", "content", "keywords", "sources"] k.toJson =
      some k.toJson.members := record?_of_sublist (.refl _) (by decide)
  have hname : required? k.toJson.members "name" string? = some k.name := rfl
  have htitle : required? k.toJson.members "title" string? = some k.title := rfl
  have hcontent : required? k.toJson.members "content" string? = some k.content := rfl
  have hkeywords : withDefault? k.toJson.members "keywords" [] (list? string?) =
      some k.keywords := list?_ofStrings k.keywords
  have hsources : withDefault? k.toJson.members "sources" [] (list? KnowledgeSource.ofJson?) =
      some k.sources := list?_map KnowledgeSource.ofJson?_toJson k.sources
  unfold ofJson?
  simp only [hrecord, hname, htitle, hcontent, hkeywords, hsources, Option.bind_eq_bind,
    Option.bind_some]

theorem KnowledgePiece.toJson_readableAt (k : KnowledgePiece) (depth : Nat) :
    k.toJson.ReadableAt (depth + 3) :=
  ⟨string_readableAt _ _, string_readableAt _ _, string_readableAt _ _,
    ofStrings_readableAt _ _, itemsReadableAt_map (fun s => s.toJson_readableAt _) _, trivial⟩

/-! ## Documents -/

namespace Pipeline

theorem map_fst_members_sublist (p : Pipeline) :
    (p.toJson.members.map (·.1)).Sublist ["pipelineUrl", "title", "dialectVersion", "description",
      "parameters", "tasks", "knowledge"] := by
  simp only [toJson, members, List.map_append]
  exact (((map_fst_present_sublist "pipelineUrl" .string p.url).append
    (.refl ["title", "dialectVersion"])).append
    (map_fst_present_sublist "description" .string p.description)).append (.refl _)

/-- The record of a document stands for the document. -/
theorem ofJson?_toJson (p : Pipeline) : ofJson? p.toJson = some p := by
  have hrecord : record? ["pipelineUrl", "title", "dialectVersion", "description", "parameters",
      "tasks", "knowledge"] p.toJson = some p.toJson.members :=
    record?_of_sublist p.map_fst_members_sublist (by decide)
  have hurl : optional? p.toJson.members "pipelineUrl" string? = some p.url := by
    refine optional?_of_lookup .string ?_ fun _ => rfl
    simp [toJson, members, List.lookup_append, List.lookup_cons]
  have htitle : required? p.toJson.members "title" string? = some p.title := by
    refine required?_of_lookup (j := .string p.title) ?_ rfl
    simp [toJson, members, List.lookup_append]
  have hversion : required? p.toJson.members "dialectVersion" string? = some p.dialectVersion := by
    refine required?_of_lookup (j := .string p.dialectVersion) ?_ rfl
    simp [toJson, members, List.lookup_append, List.lookup_cons]
  have hdescription : optional? p.toJson.members "description" string? = some p.description := by
    refine optional?_of_lookup .string ?_ fun _ => rfl
    simp [toJson, members, List.lookup_append, List.lookup_cons]
  have hparameters : required? p.toJson.members "parameters" (list? Parameter.ofJson?) =
      some p.parameters := by
    refine required?_of_lookup ?_ (list?_map Parameter.ofJson?_toJson _)
    simp [toJson, members, List.lookup_append, List.lookup_cons]
  have htasks : required? p.toJson.members "tasks" (list? Task.ofJson?) = some p.tasks := by
    refine required?_of_lookup ?_ (list?_map Task.ofJson?_toJson _)
    simp [toJson, members, List.lookup_append, List.lookup_cons]
  have hknowledge : withDefault? p.toJson.members "knowledge" [] (list? KnowledgePiece.ofJson?) =
      some p.knowledge := by
    have hlookup : p.toJson.members.lookup "knowledge" =
        some (.array (p.knowledge.map KnowledgePiece.toJson)) := by
      simp [toJson, members, List.lookup_append, List.lookup_cons]
    rw [withDefault?, hlookup]
    exact list?_map KnowledgePiece.ofJson?_toJson _
  unfold ofJson?
  simp only [hrecord, hurl, htitle, hversion, hdescription, hparameters, htasks, hknowledge,
    Option.bind_eq_bind, Option.bind_some]

theorem toJson_readableAt (p : Pipeline) (depth : Nat) : p.toJson.ReadableAt (depth + 5) := by
  have hoptional (name : String) (value : Option String) :
      MembersReadableAt (depth + 4) (present name .string value) :=
    present_readableAt (fun s => string_readableAt s _) name value
  have htitle : MembersReadableAt (depth + 4)
      [("title", .string p.title), ("dialectVersion", .string p.dialectVersion)] :=
    ⟨string_readableAt _ _, string_readableAt _ _, trivial⟩
  have hlists : MembersReadableAt (depth + 4)
      [("parameters", .array (p.parameters.map Parameter.toJson)),
        ("tasks", .array (p.tasks.map Task.toJson)),
        ("knowledge", .array (p.knowledge.map KnowledgePiece.toJson))] :=
    ⟨itemsReadableAt_map (fun q => q.toJson_readableAt _) _,
      itemsReadableAt_map (fun t => t.toJson_readableAt _) _,
      itemsReadableAt_map (fun k => k.toJson_readableAt _) _, trivial⟩
  exact (((hoptional _ _).append htitle).append (hoptional _ _)).append hlists

/-- **A document survives its interchange form**, whatever is in it: the text that it is written as
is read back as the same document. -/
theorem ofJsonText_toJsonText (p : Pipeline) : ofJsonText p.toJsonText = .ok p := by
  unfold ofJsonText toJsonText
  rw [read?_pretty (p.toJson_readableAt 122), Option.bind_some, ofJson?_toJson]

end Pipeline

end PromptPipeline
