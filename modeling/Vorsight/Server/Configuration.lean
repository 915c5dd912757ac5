/-
  THE CONFIGURATION OF A MACHINE (server/src/routes/machine/configuration.ts): what the service
  fetches.

  The stored settings are laid over the defaults, section by section: a field of a section is
  answered as it is stored, or as its default where it is not (`getConfiguration_field`).
-/
import Vorsight.Library.Js

namespace Server.Configuration

open Js

/-! ## Spreading into an object literal -/

/-- The properties that `...v` copies. -/
def entries : Value → List (String × Json)
  | some (.obj fields) => fields
  | some (.arr items) => items.zipIdx.map fun (item, i) => (toString i, item)
  | some (.str s) => s.toList.zipIdx.map fun (c, i) => (toString i, .str (.singleton c))
  | _ => []

/-- `{ ...a, ...b }` with its keys in order. -/
def spreadFields (a b : List (String × Json)) : List (String × Json) :=
  a.map (fun (key, value) => (key, (b.lookup key).getD value)) ++
    b.filter fun field => (a.lookup field.1).isNone

theorem lookup_map (b : List (String × Json)) (key : String) :
    ∀ a : List (String × Json),
      (a.map fun (key, value) => (key, (b.lookup key).getD value)).lookup key =
        (a.lookup key).map fun value => (b.lookup key).getD value
  | [] => rfl
  | (k, v) :: a => by
    by_cases hk : key = k
    · subst hk
      simp
    · have hne : (key == k) = false := by simpa using hk
      simp only [List.map_cons, List.lookup_cons, hne]
      exact lookup_map b key a

theorem lookup_filter {p : String × Json → Bool} {key : String} (hp : ∀ v, p (key, v) = true) :
    ∀ b : List (String × Json), (b.filter p).lookup key = b.lookup key
  | [] => rfl
  | (k, v) :: b => by
    by_cases hk : key = k
    · subst hk
      rw [List.filter_cons_of_pos (hp v)]
      simp
    · have hne : (key == k) = false := by simpa using hk
      rw [List.filter_cons]
      split
      · simp only [List.lookup_cons, hne]
        exact lookup_filter hp b
      · simp only [List.lookup_cons, hne]
        exact lookup_filter hp b

/-- Every field of `b` counts, and those of `a` that `b` has not. -/
theorem lookup_spreadFields (a b : List (String × Json)) (key : String) :
    (spreadFields a b).lookup key = (b.lookup key).or (a.lookup key) := by
  rw [spreadFields, List.lookup_append, lookup_map]
  cases ha : a.lookup key with
  | none =>
    rw [lookup_filter (by simp [ha])]
    simp
  | some value => cases b.lookup key <;> rfl

/-! ## The route -/

/-- Default settings - all features disabled for new machines. -/
def defaults : List (String × List (String × Json)) :=
  [("screenshots", [("enabled", .bool false), ("intervalSeconds", .num 300),
      ("filterDuplicates", .bool true)]),
    ("activity", [("enabled", .bool false), ("intervalSeconds", .num 10)]),
    ("audit", [("enabled", .bool false), ("filters",
      .obj [("security", .bool true), ("system", .bool true), ("application", .bool true)])]),
    ("accessControl", [("enabled", .bool false), ("violationAction", .str "logoff"),
      ("schedule", .arr [])])]

/-- A section as it is answered. -/
def sectionOf (storedSettings : Obj Json) (key : String) (fields : List (String × Json)) : Json :=
  .obj (spreadFields fields (entries (firstTruthy (storedSettings key) (some (.obj [])))))

/-- `GET /configuration`, for what is stored. -/
def getConfiguration (stored : Option (Obj Json)) : Obj Json :=
  let storedSettings := stored.getD .empty
  ((Obj.ofList (defaults.map fun (key, fields) => (key, .obj fields))).spread storedSettings).spread
    (.ofList (defaults.map fun (key, fields) => (key, sectionOf storedSettings key fields)))

/-- Every section is answered, whatever is stored. -/
theorem getConfiguration_section {key : String} {fields : List (String × Json)}
    (h : (key, fields) ∈ defaults) (stored : Option (Obj Json)) :
    getConfiguration stored key = some (sectionOf (stored.getD .empty) key fields) := by
  simp only [defaults, List.mem_cons, Prod.mk.injEq, List.not_mem_nil, or_false] at h
  rcases h with ⟨rfl, rfl⟩ | ⟨rfl, rfl⟩ | ⟨rfl, rfl⟩ | ⟨rfl, rfl⟩ <;> rfl

/-- **Each field of a section** is the stored one, or else the default. -/
theorem getConfiguration_field {key : String} {fields : List (String × Json)}
    (h : (key, fields) ∈ defaults) (stored : Option (Obj Json)) (field : String) :
    prop (getConfiguration stored key) field =
      some (((entries (firstTruthy ((stored.getD .empty) key) (some (.obj [])))).lookup field).or
        (fields.lookup field)) := by
  rw [getConfiguration_section h, sectionOf, prop, lookup_spreadFields]

end Server.Configuration
