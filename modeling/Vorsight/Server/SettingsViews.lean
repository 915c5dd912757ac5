/-
  WHAT THE DASHBOARD SHOWS AND WHAT THE MACHINE GETS.

  `GET /settings` (server/src/routes/web/settings.ts) and `GET /configuration` lay the stored
  settings over defaults, each with a merge of its own.

  1. **Where they are the same** (`fieldOf_eq`): every field of every section but `audit.filters`.

  2. **Where they are not.**  The dashboard lays stored filters over its defaults filter by filter;
     the machine gets the stored `filters` as they are, or else defaults that are not the
     dashboard's.

  3. **The exact condition** (`agree_iff`): the stored filters are there and complete.
-/
import Vorsight.Server.Configuration

namespace Server.SettingsViews

open Js Server.Configuration

/-! ## The dashboard's route -/

def screenshotDefaults : List (String × Json) :=
  [("enabled", .bool false), ("intervalSeconds", .num 300), ("filterDuplicates", .bool true)]

def activityDefaults : List (String × Json) :=
  [("enabled", .bool false), ("intervalSeconds", .num 10)]

def filterDefaults : List (String × Json) :=
  [("security", .bool true), ("system", .bool false), ("application", .bool false)]

def auditDefaults : List (String × Json) :=
  [("enabled", .bool false), ("filters", .obj filterDefaults)]

def accessControlDefaults : List (String × Json) :=
  [("enabled", .bool false), ("violationAction", .str "logoff"), ("schedule", .arr [])]

/-- `if (v) merged = { ...defaults, ...v }`. -/
def overlay (defaults : List (String × Json)) (v : Value) : Json :=
  if truthy v then .obj (spreadFields defaults (entries v)) else .obj defaults

/-- `{ ...defaults.audit.filters, ...(v?.filters || {}) }`. -/
def mergedFilters (v : Value) : Json :=
  .obj (spreadFields filterDefaults
    (entries (firstTruthy ((prop v "filters").getD none) (some (.obj [])))))

/-- The audit section: its filters are merged one by one. -/
def overlayAudit (v : Value) : Json :=
  if truthy v then
    .obj (spreadFields (spreadFields auditDefaults (entries v)) [("filters", mergedFilters v)])
  else .obj auditDefaults

/-- `GET /settings`, for what is stored. -/
def getSettings (stored : Option (Obj Json)) : Obj Json :=
  let storedSettings := stored.getD .empty
  .ofList [("screenshots", overlay screenshotDefaults (storedSettings "screenshots")),
    ("activity", overlay activityDefaults (storedSettings "activity")),
    ("audit", overlayAudit (storedSettings "audit")),
    ("accessControl", overlay accessControlDefaults (storedSettings "accessControl"))]

/-! ## Agreement -/

/-- `settings.section.field`. -/
def fieldOf (settings : Obj Json) (key field : String) : Value :=
  (prop (settings key) field).getD none

/-- One value, or two objects with the same fields. -/
def SameFields (a b : Value) : Prop :=
  a = b ∨ ∃ f g, a = some (.obj f) ∧ b = some (.obj g) ∧ ∀ key, f.lookup key = g.lookup key

/-- The four sections. -/
def sections : List String := ["screenshots", "activity", "audit", "accessControl"]

/-- All fields of the four sections are the same. -/
def Agree (a b : Obj Json) : Prop :=
  ∀ key ∈ sections, ∀ field, SameFields (fieldOf a key field) (fieldOf b key field)

/-- The stored filters are an object with all three of them. -/
def FiltersComplete (stored : Option (Obj Json)) : Prop :=
  ∃ audit filters, (stored.getD .empty) "audit" = some (.obj audit) ∧
    audit.lookup "filters" = some (.obj filters) ∧
    ∀ key ∈ ["security", "system", "application"], (filters.lookup key).isSome

/-! ## Sections -/

/-- A field of a section that is laid over its defaults. -/
theorem lookup_overlay (defaults : List (String × Json)) (v : Value) (field : String) :
    (prop (some (overlay defaults v)) field).getD none =
      ((entries (firstTruthy v (some (.obj [])))).lookup field).or (defaults.lookup field) := by
  unfold overlay firstTruthy
  cases truthy v with
  | true =>
    show (spreadFields defaults (entries v)).lookup field = _
    rw [lookup_spreadFields]
    rfl
  | false => rfl

/-- What the machine gets. -/
theorem fieldOf_configuration {key : String} {fields : List (String × Json)}
    (h : (key, fields) ∈ defaults) (stored : Option (Obj Json)) (field : String) :
    fieldOf (getConfiguration stored) key field =
      ((entries (firstTruthy ((stored.getD .empty) key) (some (.obj [])))).lookup field).or
        (fields.lookup field) := by
  rw [fieldOf, getConfiguration_field h]
  rfl

/-- A value that is not truthy has no field. -/
theorem prop_of_not_truthy {v : Value} (h : truthy v = false) (key : String) :
    (prop v key).getD none = none := by
  match v, h with
  | none, _ => rfl
  | some .null, _ => rfl
  | some (.bool _), _ => rfl
  | some (.num _), _ => rfl
  | some (.str _), _ => rfl

/-- What the dashboard shows of the audit section. -/
theorem fieldOf_audit (stored : Option (Obj Json)) (field : String) :
    fieldOf (getSettings stored) "audit" field =
      if field = "filters" then some (mergedFilters ((stored.getD .empty) "audit"))
      else ((entries (firstTruthy ((stored.getD .empty) "audit") (some (.obj [])))).lookup
        field).or (auditDefaults.lookup field) := by
  show (prop (some (overlayAudit ((stored.getD .empty) "audit"))) field).getD none = _
  generalize (stored.getD .empty) "audit" = v
  unfold overlayAudit firstTruthy
  cases htruthy : truthy v with
  | true =>
    show (spreadFields _ _).lookup field = _
    rw [lookup_spreadFields, lookup_spreadFields]
    by_cases hfield : field = "filters"
    · subst hfield
      rfl
    · have hne : (field == "filters") = false := by simpa using hfield
      simp [List.lookup_cons, hne, hfield]
  | false =>
    show auditDefaults.lookup field = _
    by_cases hfield : field = "filters"
    · subst hfield
      rw [mergedFilters, prop_of_not_truthy htruthy]
      rfl
    · rw [if_neg hfield]
      rfl

/-- No index is the name of a field. -/
theorem lookup_indexed {α : Type} (f : α → Json) (xs : List α) (n : Nat) :
    ((xs.zipIdx n).map fun (x, i) => (toString i, f x)).lookup "filters" = none := by
  induction xs generalizing n with
  | nil => rfl
  | cons x xs ih =>
    have hne : ("filters" == toString n) = false := by
      rw [beq_eq_false_iff_ne]
      intro heq
      -- the digits of a number are digits, and `f` is none
      have hmem : 'f' ∈ Nat.toDigits 10 n := by
        rw [← Nat.toList_repr]
        show 'f' ∈ (toString n).toList
        rw [← heq]
        decide
      exact absurd (Nat.isDigit_of_mem_toDigits (by decide) (by decide) hmem) (by decide)
    rw [List.zipIdx_cons, List.map_cons, List.lookup_cons, hne]
    exact ih (n + 1)

/-- What is stored under `filters`, read as a property or met while spreading. -/
theorem lookup_filters (v : Value) :
    (entries (firstTruthy v (some (.obj [])))).lookup "filters" =
      (prop v "filters").getD none := by
  cases htruthy : truthy v with
  | false =>
    rw [prop_of_not_truthy htruthy, firstTruthy, htruthy]
    rfl
  | true =>
    rw [firstTruthy, htruthy, if_pos rfl]
    match v with
    | none => rfl
    | some .null => rfl
    | some (.bool _) => rfl
    | some (.num _) => rfl
    | some (.dec _ _) => rfl
    | some (.str s) => exact lookup_indexed (fun c => .str (.singleton c)) s.toList 0
    | some (.arr items) => exact lookup_indexed id items 0
    | some (.obj fields) => rfl

/-- The defaults of the two, and of which sections they are. -/
theorem mem_defaults : ("screenshots", screenshotDefaults) ∈ defaults ∧
    ("activity", activityDefaults) ∈ defaults ∧
    ("accessControl", accessControlDefaults) ∈ defaults := by
  simp [defaults, screenshotDefaults, activityDefaults, accessControlDefaults]

/-- The machine's default filters. -/
def machineFilters : Json :=
  .obj [("security", .bool true), ("system", .bool true), ("application", .bool true)]

theorem mem_defaults_audit :
    ("audit", [("enabled", .bool false), ("filters", machineFilters)]) ∈ defaults := by
  simp [defaults, machineFilters]

/-- **Outside the filters** the two never differ. -/
theorem fieldOf_eq {key field : String} (hkey : key ∈ sections)
    (hfield : ¬ (key = "audit" ∧ field = "filters")) (stored : Option (Obj Json)) :
    fieldOf (getSettings stored) key field = fieldOf (getConfiguration stored) key field := by
  obtain ⟨hscreenshots, hactivity, haccess⟩ := mem_defaults
  simp only [sections, List.mem_cons, List.not_mem_nil, or_false] at hkey
  rcases hkey with rfl | rfl | rfl | rfl
  · rw [fieldOf_configuration hscreenshots]
    exact lookup_overlay screenshotDefaults _ field
  · rw [fieldOf_configuration hactivity]
    exact lookup_overlay activityDefaults _ field
  · have hfield : field ≠ "filters" := fun h => hfield ⟨rfl, h⟩
    have hne : (field == "filters") = false := by simpa using hfield
    rw [fieldOf_audit, if_neg hfield, fieldOf_configuration mem_defaults_audit]
    simp [auditDefaults, List.lookup_cons, hne]
  · rw [fieldOf_configuration haccess]
    exact lookup_overlay accessControlDefaults _ field

/-! ## The filters -/

/-- What the dashboard shows of the filters: the stored ones over its defaults. -/
theorem fieldOf_filters (stored : Option (Obj Json)) :
    fieldOf (getSettings stored) "audit" "filters" = some (.obj (spreadFields filterDefaults
      (entries (firstTruthy ((prop ((stored.getD .empty) "audit") "filters").getD none)
        (some (.obj [])))))) := by
  rw [fieldOf_audit, if_pos rfl, mergedFilters]

/-- What the machine gets: the stored ones, or else its own defaults. -/
theorem fieldOf_machineFilters (stored : Option (Obj Json)) :
    fieldOf (getConfiguration stored) "audit" "filters" =
      ((prop ((stored.getD .empty) "audit") "filters").getD none).or (some machineFilters) := by
  rw [fieldOf_configuration mem_defaults_audit, lookup_filters]
  rfl

/-- Objects with the same fields, and what a value is that has the fields of an object. -/
theorem sameFields_obj {f : List (String × Json)} {b : Value}
    (h : SameFields (some (.obj f)) b) :
    ∃ g, b = some (.obj g) ∧ ∀ key, f.lookup key = g.lookup key := by
  rcases h with rfl | ⟨f', g, hf, hb, hsame⟩
  · exact ⟨f, rfl, fun _ => rfl⟩
  · cases hf
    exact ⟨g, hb, hsame⟩

/-- Only an object has a field with a value. -/
theorem obj_of_prop {v : Value} {key : String} {x : Json} (h : (prop v key).getD none = some x) :
    ∃ fields, v = some (.obj fields) ∧ fields.lookup key = some x := by
  match v, h with
  | some (.obj fields), h => exact ⟨fields, rfl, h⟩

theorem filtersComplete_of_agree {stored : Option (Obj Json)}
    (h : Agree (getSettings stored) (getConfiguration stored)) : FiltersComplete stored := by
  have hsame := h "audit" (by decide) "filters"
  rw [fieldOf_filters, fieldOf_machineFilters] at hsame
  obtain ⟨g, hg, hlookup⟩ := sameFields_obj hsame
  cases hstored : (prop ((stored.getD .empty) "audit") "filters").getD none with
  | none =>
    -- nothing is stored: the defaults of the two differ
    rw [hstored] at hg hlookup
    cases hg
    exact absurd (congrArg truthy (hlookup "system")) (by decide)
  | some x =>
    rw [hstored, Option.some_or] at hg
    cases hg
    obtain ⟨audit, haudit, hfilters⟩ := obj_of_prop hstored
    refine ⟨audit, g, haudit, hfilters, fun key hkey => ?_⟩
    -- a filter that is not stored is a default for the dashboard, and absent for the machine
    have hdefault : (filterDefaults.lookup key).isSome := by
      simp only [List.mem_cons, List.not_mem_nil, or_false] at hkey
      rcases hkey with rfl | rfl | rfl <;> rfl
    have hkey := hlookup key
    rw [hstored, lookup_spreadFields] at hkey
    rw [← hkey]
    cases (entries (firstTruthy (some (.obj g)) (some (.obj [])))).lookup key with
    | none => exact hdefault
    | some v => rfl

theorem agree_of_filtersComplete {stored : Option (Obj Json)} (h : FiltersComplete stored) :
    Agree (getSettings stored) (getConfiguration stored) := by
  intro key hkey field
  by_cases hfield : key = "audit" ∧ field = "filters"
  · obtain ⟨rfl, rfl⟩ := hfield
    obtain ⟨audit, filters, haudit, hfilters, hcomplete⟩ := h
    have hstored : (prop ((stored.getD .empty) "audit") "filters").getD none =
        some (.obj filters) := by
      rw [haudit, prop, hfilters]
      rfl
    rw [fieldOf_filters, fieldOf_machineFilters, hstored]
    refine Or.inr ⟨_, filters, rfl, rfl, fun name => ?_⟩
    rw [lookup_spreadFields]
    show (filters.lookup name).or (filterDefaults.lookup name) = filters.lookup name
    cases hname : filters.lookup name with
    | some v => rfl
    | none =>
      -- a name that is not stored is none of the three
      have hnot : name ∉ ["security", "system", "application"] := by
        intro hmem
        have hsome := hcomplete name hmem
        rw [hname] at hsome
        cases hsome
      simp only [List.mem_cons, List.not_mem_nil, or_false, not_or] at hnot
      obtain ⟨h1, h2, h3⟩ := hnot
      simp [filterDefaults, List.lookup_cons, beq_eq_false_iff_ne.mpr h1,
        beq_eq_false_iff_ne.mpr h2, beq_eq_false_iff_ne.mpr h3]
  · exact Or.inl (fieldOf_eq hkey hfield stored)

/-- **What the dashboard shows is what the machine gets** exactly when the stored filters are
    complete, whatever else is stored or not. -/
theorem agree_iff (stored : Option (Obj Json)) :
    Agree (getSettings stored) (getConfiguration stored) ↔ FiltersComplete stored :=
  ⟨filtersComplete_of_agree, agree_of_filtersComplete⟩

/-- Nothing is stored: the dashboard shows that system events are not recorded, and the machine is
    told to record them. -/
theorem not_agree_empty : ¬ Agree (getSettings none) (getConfiguration none) := by
  intro h
  obtain ⟨audit, filters, haudit, -⟩ := filtersComplete_of_agree h
  cases haudit

end Server.SettingsViews
