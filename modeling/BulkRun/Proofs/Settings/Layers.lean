import BulkRun.Settings.Load
/-!
# What is found in layered values

A value that is put at a path is found there afterwards, and what is put at a path that goes another
way leaves it where it is.  So of all variables that are about one setting the last one counts
(`partAt?_withEnvironment`), and the type that is read is read from its value.
-/

namespace BulkRun

namespace SettingValue

variable {v w x : SettingValue} {name : String} {names : List String} {path : List Step}

/-- What stands in nested tables under some names. -/
def partAt? : List String → SettingValue → Option SettingValue
  | [], w => some w
  | name :: names, w => (w.entries.lookup name).bind (partAt? names)

/-- Whether a path goes another way than some names, before either ends. -/
def Apart : List Step → List String → Prop
  | .name key :: path, name :: names => Text.lower key ≠ name ∨ Apart path names
  | _, _ => False

/-- Whether a value is no table, so that it replaces what it is laid over. -/
def IsPlain (v : SettingValue) : Prop := ∀ es, v ≠ .table es

theorem overlay_of_plain (hv : v.IsPlain) (below : SettingValue) : overlay below v = v := by
  cases v with
  | table es => exact absurd rfl (hv es)
  | nothing | flag _ | integer _ | real _ | text _ | list _ =>
    rw [overlay]
    exact hv

/-- A single entry is laid over what its name found. -/
theorem merge_table (es : List (String × SettingValue)) (key : String) (v : SettingValue) :
    merge (.table es) key v = .table (insertEntry es (Text.lower key)
      (overlay ((es.lookup (Text.lower key)).getD (.table [])) v)) := by
  rw [merge, mergeAll, mergeAll]
  rfl

/-- Putting a value changes one entry of a table: it is laid over what was there, or put deeper. -/
theorem putAt_name (key : String) (path : List Step) (v below : SettingValue) :
    ∃ changed, putAt v (.name key :: path) below =
        .table (insertEntry below.entries (Text.lower key) changed) ∧
      (path = [] → v.IsPlain → changed = v) ∧
      (path ≠ [] →
        changed = putAt v path ((below.entries.lookup (Text.lower key)).getD .nothing)) := by
  cases path with
  | nil =>
    have hput : putAt v [.name key] below = merge (.table below.entries) key v := by
      rw [putAt]
    exact ⟨_, hput.trans (merge_table below.entries key v), fun _ hv => overlay_of_plain hv _,
      fun h => absurd rfl h⟩
  | cons step path =>
    rw [putAt]
    · exact ⟨_, rfl, fun h => absurd h (by simp), fun _ => rfl⟩
    · simp

/-- A plain value that was put at a path of names is found there. -/
theorem partAt?_putAt_self (hv : v.IsPlain) {keys : List String} (hkeys : keys ≠ [])
    (below : SettingValue) :
    partAt? (keys.map Text.lower) (putAt v (keys.map .name) below) = some v := by
  induction keys generalizing below with
  | nil => exact absurd rfl hkeys
  | cons key keys ih =>
    obtain ⟨changed, hput, hlast, hdeeper⟩ := putAt_name key (keys.map .name) v below
    rw [List.map_cons, List.map_cons, hput, partAt?, entries, lookup_insertEntry,
      if_pos (beq_self_eq_true _), Option.bind_some]
    cases keys with
    | nil =>
      rw [hlast rfl hv]
      rfl
    | cons next keys =>
      rw [hdeeper (by simp)]
      exact ih (by simp) _

/-- A value that is put at a path that goes another way changes nothing here. -/
theorem partAt?_putAt_apart (h : Apart path names) (below : SettingValue) :
    partAt? names (putAt x path below) = partAt? names below := by
  induction path generalizing names below with
  | nil => exact absurd h (by simp [Apart])
  | cons step path ih =>
    cases names with
    | nil =>
      cases step with
      | name _ | item _ => exact absurd h (by simp [Apart])
    | cons name names =>
      cases step with
      | item _ => exact absurd h (by simp [Apart])
      | name key =>
        obtain ⟨changed, hput, -, hdeeper⟩ := putAt_name key path x below
        rw [hput, partAt?, partAt?, entries, lookup_insertEntry]
        by_cases hname : name = Text.lower key
        · subst hname
          have hrest : Apart path names := by
            rw [Apart] at h
            exact h.resolve_left fun hne => hne rfl
          have hpath : path ≠ [] := by
            rintro rfl
            exact absurd hrest (by simp [Apart])
          have hnames : names ≠ [] := by
            rintro rfl
            cases path with
            | nil => exact hpath rfl
            | cons step _ => cases step <;> exact absurd hrest (by simp [Apart])
          rw [if_pos (beq_self_eq_true _), Option.bind_some, hdeeper hpath, ih hrest]
          cases below.entries.lookup (Text.lower key) with
          | some there => rfl
          | none =>
            obtain ⟨first, more, rfl⟩ := List.exists_cons_of_ne_nil hnames
            rfl
        · rw [if_neg (by simpa using hname)]

/-- The path of the setting that a text names. -/
def stepsOf (path : String) : List Step := (parsePath? path).getD [.name path]

/-- Whether none of some variables is about the setting under some names, or a part of it, or what
it is a part of. -/
def LeavesAlone (names : List String) (env : List (String × String)) : Prop :=
  ∀ x ∈ env, ∀ path, variablePath? x.1 = some path → Apart (stepsOf path) names

theorem withEnvironment_append (front rear : List (String × String)) (below : SettingValue) :
    below.withEnvironment (front ++ rear) = (below.withEnvironment front).withEnvironment rear :=
  List.foldl_append

/-- A variable that is about a setting is put at its path. -/
theorem withEnvironment_cons {env : List (String × String)} {s path : String}
    (h : variablePath? name = some path) (below : SettingValue) :
    below.withEnvironment ((name, s) :: env) =
      (putAt (ofVariable s) (stepsOf path) below).withEnvironment env := by
  rw [withEnvironment, List.foldl_cons]
  dsimp only
  rw [h]
  rfl

theorem withEnvironment_cons_none {env : List (String × String)} {s : String}
    (h : variablePath? name = none) (below : SettingValue) :
    below.withEnvironment ((name, s) :: env) = below.withEnvironment env := by
  rw [withEnvironment, List.foldl_cons]
  dsimp only
  rw [h]
  rfl

theorem partAt?_withEnvironment_apart {env : List (String × String)} (h : LeavesAlone names env)
    (below : SettingValue) : partAt? names (below.withEnvironment env) = partAt? names below := by
  induction env generalizing below with
  | nil => rfl
  | cons entry env ih =>
    obtain ⟨name, s⟩ := entry
    have hrest : LeavesAlone names env := fun x hx => h x (List.mem_cons_of_mem _ hx)
    have hfirst := h (name, s) List.mem_cons_self
    cases hpath : variablePath? name with
    | none => rw [withEnvironment_cons_none hpath, ih hrest]
    | some path =>
      rw [withEnvironment_cons hpath, ih hrest, partAt?_putAt_apart (hfirst path hpath)]

/-- The value of a variable is plain. -/
theorem ofVariable_isPlain (s : String) : (ofVariable s).IsPlain := by
  intro es
  unfold ofVariable
  split
  · simp
  · simp
  · split
    · simp
    · simp
    · simp

/-- Of the variables that are about a setting, the last one counts. -/
theorem partAt?_withEnvironment (front : List (String × String)) {rear : List (String × String)}
    (r : String) {path : String} {keys : List String} (hname : variablePath? name = some path) (hkeys : keys ≠ [])
    (hpath : stepsOf path = keys.map .name) (hrear : LeavesAlone (keys.map Text.lower) rear)
    (below : SettingValue) :
    partAt? (keys.map Text.lower) (below.withEnvironment (front ++ (name, r) :: rear)) =
      some (ofVariable r) := by
  rw [withEnvironment_append, withEnvironment_cons hname, partAt?_withEnvironment_apart hrear,
    hpath]
  exact partAt?_putAt_self (ofVariable_isPlain r) hkeys _

end SettingValue

end BulkRun
