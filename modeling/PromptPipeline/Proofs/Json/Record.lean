import PromptPipeline.Json.Decode
import PromptPipeline.Proofs.Json.RoundTrip

/-!
# Records and their members

A record is written with some members always there, and others only when there is something to say
(`present`, `nonempty`). It is read by the names of its members, with a default where a member is
not there. Here is what the two sides owe each other: what is left out is what the default fills in
(`optional?_of_lookup`, `withDefault?_of_lookup`), and a record is read back in full if its members
are and if it is not nested too deep.
-/

namespace PromptPipeline.Json

variable {α : Type} {encode : α → Json} {decode : Json → Option α} {depth : Nat}

/-- The members of a record. -/
def members : Json → List (String × Json)
  | .object ms => ms
  | _ => []

/-! ## Names -/

/-- No name is repeated where all names differ. -/
theorem record?_of_nodup {names : List String} {members : List (String × Json)}
    (h : (members.map (·.1)).Nodup) : record? names (.object members) = some members := by
  refine if_pos (List.all_eq_true.mpr fun name _ => decide_eq_true ?_)
  have hcount : (membersNamed members name).length = (members.map (·.1)).count name := by
    rw [membersNamed, List.length_map, ← List.countP_eq_length_filter, List.count, List.countP_map]
    rfl
  rw [hcount]
  exact List.nodup_iff_count.mp h name

/-- A record has the names of its kind in their order, some of them left out. -/
theorem record?_of_sublist {names : List String} {members : List (String × Json)}
    (h : (members.map (·.1)).Sublist names) (hnames : names.Nodup) :
    record? names (.object members) = some members :=
  record?_of_nodup (h.nodup hnames)

theorem map_fst_present_sublist (name : String) (encode : α → Json) (value : Option α) :
    ((present name encode value).map (·.1)).Sublist [name] := by
  cases value with
  | none => exact List.nil_sublist _
  | some a => exact .refl _

theorem map_fst_nonempty_sublist (name : String) (encode : α → Json) (items : List α) :
    ((nonempty name encode items).map (·.1)).Sublist [name] := by
  cases items with
  | nil => exact List.nil_sublist _
  | cons a rest => exact .refl _

/-! ## Looking up members -/

@[simp]
theorem lookup_present (name : String) (encode : α → Json) (value : Option α) (key : String) :
    (present name encode value).lookup key = if key = name then value.map encode else none := by
  cases value with
  | none => simp [present]
  | some a => simp [present, Bindings.lookup_cons_eq]

@[simp]
theorem lookup_nonempty (name : String) (encode : α → Json) (items : List α) (key : String) :
    (nonempty name encode items).lookup key =
      if key = name ∧ items ≠ [] then some (.array (items.map encode)) else none := by
  cases items with
  | nil => simp [nonempty]
  | cons a rest => simp [nonempty, Bindings.lookup_cons_eq]

theorem required?_of_lookup {members : List (String × Json)} {name : String} {j : Json} {a : α}
    (h : members.lookup name = some j) (hj : decode j = some a) :
    required? members name decode = some a := by
  rw [required?, h, Option.bind_some, hj]

/-- What was left out for lack of a value is read as the lack of a value. -/
theorem optional?_of_lookup (encode : α → Json) {members : List (String × Json)} {name : String}
    {value : Option α} (h : members.lookup name = value.map encode)
    (hdecode : ∀ a, nullable? decode (encode a) = some (some a)) :
    optional? members name decode = some value := by
  rw [optional?, withDefault?, h]
  cases value with
  | none => rfl
  | some a => exact hdecode a

/-! ## Lists -/

theorem list?_map (h : ∀ a, decode (encode a) = some a) (items : List α) :
    list? decode (.array (items.map encode)) = some items := by
  show (items.map encode).mapM decode = some items
  induction items with
  | nil => rfl
  | cons a rest ih =>
    rw [List.map_cons, List.mapM_cons, h a, ih]
    rfl

theorem list?_ofStrings (names : List String) : list? string? (ofStrings names) = some names :=
  have hstring : ∀ s, string? (.string s) = some s := fun _ => rfl
  list?_map hstring names

/-- What was left out for lack of items is read as the empty list. -/
theorem withDefault?_of_lookup (encode : α → Json) {members : List (String × Json)} {name : String}
    {items : List α}
    (h : members.lookup name = if items ≠ [] then some (.array (items.map encode)) else none)
    (hdecode : ∀ a, decode (encode a) = some a) :
    withDefault? members name [] (list? decode) = some items := by
  rw [withDefault?, h]
  cases items with
  | nil => rfl
  | cons a rest => exact list?_map hdecode (a :: rest)

/-! ## Depth -/

theorem string_readableAt (s : String) (depth : Nat) : (Json.string s).ReadableAt depth := by
  cases depth <;> trivial

theorem bool_readableAt (b : Bool) (depth : Nat) : (Json.bool b).ReadableAt depth := by
  cases depth <;> trivial

theorem ofNat_readableAt {k depth : Nat} (h : k ≤ maxSignificand) :
    (Json.ofNat k).ReadableAt depth := by
  cases depth <;> exact natural_survives h

theorem itemsReadableAt_map (h : ∀ a, (encode a).ReadableAt depth) (items : List α) :
    ItemsReadableAt depth (items.map encode) := by
  induction items with
  | nil => trivial
  | cons a rest ih => exact ⟨h a, ih⟩

theorem ofStrings_readableAt (names : List String) (depth : Nat) :
    (ofStrings names).ReadableAt (depth + 1) :=
  itemsReadableAt_map (fun name => string_readableAt name depth) names

theorem MembersReadableAt.append {ms ns : List (String × Json)} (hms : MembersReadableAt depth ms)
    (hns : MembersReadableAt depth ns) : MembersReadableAt depth (ms ++ ns) := by
  induction ms with
  | nil => exact hns
  | cons m rest ih => exact ⟨hms.1, ih hms.2⟩

theorem present_readableAt (h : ∀ a, (encode a).ReadableAt depth) (name : String)
    (value : Option α) : MembersReadableAt depth (present name encode value) := by
  cases value with
  | none => trivial
  | some a => exact ⟨h a, trivial⟩

theorem nonempty_readableAt (h : ∀ a, (encode a).ReadableAt depth) (name : String)
    (items : List α) : MembersReadableAt (depth + 1) (nonempty name encode items) := by
  cases items with
  | nil => trivial
  | cons a rest => exact ⟨itemsReadableAt_map h (a :: rest), trivial⟩

end PromptPipeline.Json
