import BulkRun.Proofs.Decimal.Whole
import BulkRun.Proofs.Settings.Layers
/-!
# What variables set

A variable goes before the file and the defaults, but it is not taken as it is written.  Its text is
a truth value, an integer or a number if it can be one, whatever is wanted of it, and only then read
as the type of its setting.  A repository whose name looks like a number is spelled as that number
is printed, and a word in the upper half, which is no signed word, goes through a double.

Main statement: `variables_are_guessed_first`.
-/

namespace BulkRun

open SettingValue

/-- The settings that are numbers. -/
inductive NumberKey where
  | bucketSize
  | batchSize
  | fetchMultiplier
  | partitions
  | capacity
  | retention
  | eventCapacity

namespace NumberKey

/-- The names under which a number is found. -/
def names : NumberKey → List String
  | .bucketSize => ["dispatcher", "default_bucket_size"]
  | .batchSize => ["dispatcher", "default_batch_size"]
  | .fetchMultiplier => ["dispatcher", "scroll_fetch_multiplier"]
  | .partitions => ["channel", "partitions"]
  | .capacity => ["channel", "capacity"]
  | .retention => ["status", "retention_seconds"]
  | .eventCapacity => ["status", "event_capacity"]

/-- The variable that is documented for a number. -/
def variableName : NumberKey → String
  | .bucketSize => "BULK__DISPATCHER__DEFAULT_BUCKET_SIZE"
  | .batchSize => "BULK__DISPATCHER__DEFAULT_BATCH_SIZE"
  | .fetchMultiplier => "BULK__DISPATCHER__SCROLL_FETCH_MULTIPLIER"
  | .partitions => "BULK__CHANNEL__PARTITIONS"
  | .capacity => "BULK__CHANNEL__CAPACITY"
  | .retention => "BULK__STATUS__RETENTION_SECONDS"
  | .eventCapacity => "BULK__STATUS__EVENT_CAPACITY"

/-- A number in settings. -/
def valueIn (s : Settings) : NumberKey → Nat
  | .bucketSize => s.dispatcher.defaultBucketSize
  | .batchSize => s.dispatcher.defaultBatchSize
  | .fetchMultiplier => s.dispatcher.scrollFetchMultiplier
  | .partitions => s.channel.partitions
  | .capacity => s.channel.capacity
  | .retention => s.status.retentionSeconds
  | .eventCapacity => s.status.eventCapacity

theorem names_ne_nil (k : NumberKey) : k.names ≠ [] := by
  cases k
  all_goals exact List.cons_ne_nil _ _

/-- The names of numbers are in lower case. -/
theorem lower_names (k : NumberKey) : k.names.map Text.lower = k.names := by
  cases k
  all_goals decide +kernel

end NumberKey

/-- The names under which the default repository is found. -/
def repositoryNames : List String := ["dispatcher", "default_repository"]

/-- Whether a variable is about the setting under some names. -/
def IsAbout (name : String) (names : List String) : Prop :=
  (variablePath? name).map stepsOf = some (names.map .name)

variable {name key r : String} {names : List String} {front rear env : List (String × String)}
  {file : Option SettingsFile} {s : Settings} {v w : SettingValue} {n : Nat}

theorem isAbout_variableName (k : NumberKey) : IsAbout k.variableName k.names := by
  cases k
  all_goals
    unfold IsAbout
    decide +kernel

theorem isAbout_repository : IsAbout "BULK__DISPATCHER__DEFAULT_REPOSITORY" repositoryNames := by
  unfold IsAbout
  decide +kernel

/-- Of the variables that are about a setting, the last one counts. -/
theorem partAt?_withEnvironment_of_isAbout (front : List (String × String)) (r : String)
    (habout : IsAbout name names) (hne : names ≠ []) (hlower : names.map Text.lower = names)
    (hrear : LeavesAlone names rear) (below : SettingValue) :
    partAt? names (below.withEnvironment (front ++ (name, r) :: rear)) = some (ofVariable r) := by
  obtain ⟨path, hpath, hsteps⟩ := Option.map_eq_some_iff.1 habout
  rw [← hlower] at hrear
  have hfound := partAt?_withEnvironment front r hpath hne hsteps hrear below
  rwa [hlower] at hfound

/-! ## Reading the setting under some names -/

theorem fieldOr_of_lookup {α : Type} {fields : List (String × SettingValue)}
    {read : SettingValue → Option α} {default : α} (h : fields.lookup name = some v) :
    fieldOr fields name read default = read v := by
  rw [fieldOr, h]

/-- A value in which something is found under a name is a table. -/
theorem SettingValue.fields?_of_lookup (h : w.entries.lookup name = some v) (names : List String) :
    w.fields? names = some w.entries := by
  cases w with
  | table es => rfl
  | nothing | flag _ | integer _ | real _ | text _ | list _ => exact absurd h (by simp [entries])

/-- What is found under two names is found in the table under the first. -/
theorem SettingValue.exists_section (h : partAt? [name, key] w = some v) :
    ∃ part, w.entries.lookup name = some part ∧ part.entries.lookup key = some v := by
  obtain ⟨part, hpart, hv⟩ := Option.bind_eq_some_iff.1 h
  obtain ⟨value, hvalue, hlast⟩ := Option.bind_eq_some_iff.1 hv
  exact ⟨part, hpart, hvalue.trans hlast⟩

theorem DispatcherSettings.read_of_lookup {d : DispatcherSettings}
    (h : DispatcherSettings.ofValue? w = some d) (hkey : w.entries.lookup key = some v) :
    (key = "default_bucket_size" → asWord? v = some d.defaultBucketSize) ∧
    (key = "default_batch_size" → asWord? v = some d.defaultBatchSize) ∧
    (key = "scroll_fetch_multiplier" → asWord? v = some d.scrollFetchMultiplier) ∧
    (key = "default_repository" → asOptional? asText? v = some d.defaultRepository) := by
  simp only [ofValue?, fields?_of_lookup hkey, Option.bind_eq_bind, Option.bind_some,
    Option.bind_eq_some_iff, Option.pure_def, Option.some.injEq] at h
  obtain ⟨bucket, hbucket, batch, hbatch, multiplier, hmultiplier, repository, hrepository, rfl⟩ := h
  refine ⟨?_, ?_, ?_, ?_⟩
  · rintro rfl
    exact (fieldOr_of_lookup hkey).symm.trans hbucket
  · rintro rfl
    exact (fieldOr_of_lookup hkey).symm.trans hbatch
  · rintro rfl
    exact (fieldOr_of_lookup hkey).symm.trans hmultiplier
  · rintro rfl
    exact (fieldOr_of_lookup hkey).symm.trans hrepository

theorem ChannelSettings.read_of_lookup {c : ChannelSettings}
    (h : ChannelSettings.ofValue? w = some c) (hkey : w.entries.lookup key = some v) :
    (key = "partitions" → asWord? v = some c.partitions) ∧
    (key = "capacity" → asWord? v = some c.capacity) := by
  simp only [ofValue?, fields?_of_lookup hkey, Option.bind_eq_bind, Option.bind_some,
    Option.bind_eq_some_iff, Option.pure_def, Option.some.injEq] at h
  obtain ⟨partitions, hpartitions, capacity, hcapacity, rfl⟩ := h
  refine ⟨?_, ?_⟩
  · rintro rfl
    exact (fieldOr_of_lookup hkey).symm.trans hpartitions
  · rintro rfl
    exact (fieldOr_of_lookup hkey).symm.trans hcapacity

theorem StatusSettings.read_of_lookup {t : StatusSettings}
    (h : StatusSettings.ofValue? w = some t) (hkey : w.entries.lookup key = some v) :
    (key = "retention_seconds" → asWord? v = some t.retentionSeconds) ∧
    (key = "event_capacity" → asWord? v = some t.eventCapacity) := by
  simp only [ofValue?, fields?_of_lookup hkey, Option.bind_eq_bind, Option.bind_some,
    Option.bind_eq_some_iff, Option.pure_def, Option.some.injEq] at h
  obtain ⟨retention, hretention, capacity, hcapacity, rfl⟩ := h
  refine ⟨?_, ?_⟩
  · rintro rfl
    exact (fieldOr_of_lookup hkey).symm.trans hretention
  · rintro rfl
    exact (fieldOr_of_lookup hkey).symm.trans hcapacity

theorem Settings.read_of_lookup (h : Settings.ofValue? w = some s)
    (hkey : w.entries.lookup key = some v) :
    (key = "dispatcher" → DispatcherSettings.ofValue? v = some s.dispatcher) ∧
    (key = "channel" → ChannelSettings.ofValue? v = some s.channel) ∧
    (key = "status" → StatusSettings.ofValue? v = some s.status) := by
  simp only [ofValue?, fields?_of_lookup hkey, Option.bind_eq_bind, Option.bind_some,
    Option.bind_eq_some_iff, Option.pure_def, Option.some.injEq] at h
  obtain ⟨dispatcher, hdispatcher, channel, hchannel, status, hstatus, rfl⟩ := h
  refine ⟨?_, ?_, ?_⟩
  · rintro rfl
    exact (fieldOr_of_lookup hkey).symm.trans hdispatcher
  · rintro rfl
    exact (fieldOr_of_lookup hkey).symm.trans hchannel
  · rintro rfl
    exact (fieldOr_of_lookup hkey).symm.trans hstatus

/-- What is found under two names is read with the section of the first. -/
theorem Settings.read_section (h : Settings.ofValue? w = some s)
    (hkey : partAt? [name, key] w = some v) :
    ∃ part, part.entries.lookup key = some v ∧
      (name = "dispatcher" → DispatcherSettings.ofValue? part = some s.dispatcher) ∧
      (name = "channel" → ChannelSettings.ofValue? part = some s.channel) ∧
      (name = "status" → StatusSettings.ofValue? part = some s.status) := by
  obtain ⟨part, hpart, hv⟩ := exists_section hkey
  exact ⟨part, hv, read_of_lookup h hpart⟩

/-- A number is read from what is found under its names. -/
theorem Settings.read_number (h : Settings.ofValue? w = some s) {k : NumberKey}
    (hk : partAt? k.names w = some v) : asWord? v = some (k.valueIn s) := by
  cases k with
  | bucketSize =>
    obtain ⟨part, hv, hread, -, -⟩ := read_section h hk
    exact (DispatcherSettings.read_of_lookup (hread rfl) hv).1 rfl
  | batchSize =>
    obtain ⟨part, hv, hread, -, -⟩ := read_section h hk
    exact (DispatcherSettings.read_of_lookup (hread rfl) hv).2.1 rfl
  | fetchMultiplier =>
    obtain ⟨part, hv, hread, -, -⟩ := read_section h hk
    exact (DispatcherSettings.read_of_lookup (hread rfl) hv).2.2.1 rfl
  | partitions =>
    obtain ⟨part, hv, -, hread, -⟩ := read_section h hk
    exact (ChannelSettings.read_of_lookup (hread rfl) hv).1 rfl
  | capacity =>
    obtain ⟨part, hv, -, hread, -⟩ := read_section h hk
    exact (ChannelSettings.read_of_lookup (hread rfl) hv).2 rfl
  | retention =>
    obtain ⟨part, hv, -, -, hread⟩ := read_section h hk
    exact (StatusSettings.read_of_lookup (hread rfl) hv).1 rfl
  | eventCapacity =>
    obtain ⟨part, hv, -, -, hread⟩ := read_section h hk
    exact (StatusSettings.read_of_lookup (hread rfl) hv).2 rfl

theorem Settings.read_repository (h : Settings.ofValue? w = some s)
    (hr : partAt? repositoryNames w = some v) :
    asOptional? asText? v = some s.dispatcher.defaultRepository := by
  obtain ⟨part, hv, hread, -, -⟩ := read_section h hr
  exact (DispatcherSettings.read_of_lookup (hread rfl) hv).2.2.2 rfl

/-! ## What becomes of the text of a variable -/

/-- A text in the spelling of what it was taken for: a truth value, an integer, a number, or
nothing but a text. -/
def respelled (r : String) : String :=
  if Text.lower r = "true" ∨ Text.lower r = "false" then Text.lower r
  else
    match Text.readSignedWord r, Double.read? r with
    | some i, _ => Text.ofInt i
    | none, some x => x.text
    | none, none => r

theorem asText?_ofVariable (r : String) : asText? (ofVariable r) = some (respelled r) := by
  unfold ofVariable respelled
  split
  · rename_i htrue
    rw [htrue]
    rfl
  · rename_i hfalse
    rw [hfalse]
    rfl
  · rename_i htrue hfalse
    rw [if_neg (not_or.2 ⟨htrue, hfalse⟩)]
    cases Text.readSignedWord r with
    | some i => rfl
    | none =>
      cases Double.read? r with
      | some x => rfl
      | none => rfl

/-- What a variable gives is never nothing. -/
theorem asOptional?_ofVariable (r : String) :
    asOptional? asText? (ofVariable r) = some (some (respelled r)) := by
  have htext := asText?_ofVariable r
  cases hv : ofVariable r with
  | nothing =>
    rw [hv] at htext
    exact absurd htext (by simp [asText?])
  | flag _ | integer _ | real _ | text _ | list _ | table _ =>
    rw [hv] at htext
    rw [asOptional?, htext]
    · rfl
    · simp

/-- What is written for a number is no word that begins with a letter. -/
theorem lower_ofNat_ne {word : String} {c : Char} {rest : List Char} (hword : word.toList = c :: rest)
    (hc : ∀ d < 10, Text.lowerChar (Char.ofNat (48 + d)) ≠ c) (n : Nat) :
    Text.lower (Text.ofNat n) ≠ word :=
  Text.ofList_map_ofNat_ne hword hc n

/-- A word that is taken for an integer is kept; one that is not goes through a double. -/
theorem asWord?_ofVariable_ofNat (h : n ≤ wordMax) :
    asWord? (ofVariable (Text.ofNat n)) = some (if n < signedCount then n else roundedWord n) := by
  unfold ofVariable
  split
  · rename_i htrue
    exact absurd htrue (lower_ofNat_ne rfl (by decide) n)
  · rename_i hfalse
    exact absurd hfalse (lower_ofNat_ne rfl (by decide) n)
  · rw [Text.readSignedWord_ofNat]
    by_cases hn : n < signedCount
    · rw [if_pos hn, if_pos hn]
      show (if (0 : Int) ≤ (n : Int) then some (n : Int).toNat else none) = some n
      rw [if_pos (Int.natCast_nonneg n), Int.toNat_natCast]
    · obtain ⟨x, hx, hword⟩ := Double.toWord_read?_ofNat (Nat.le_of_not_lt hn) h
      rw [if_neg hn, if_neg hn, hx, ← hword]
      rfl

/-- As a text a word would be read in full. -/
theorem asWord?_text_ofNat (h : n ≤ wordMax) : asWord? (.text (Text.ofNat n)) = some n := by
  rw [asWord?]
  split
  case h_7 => exact Text.readWord_ofNat h
  -- none of the words for a truth value is written like a number
  all_goals
    rename_i hword
    exact absurd hword (lower_ofNat_ne rfl (by decide) n)

/-! ## Loading -/

theorem Settings.load_eq_ok (h : Settings.load file env = .ok s) :
    ∃ below, Settings.default.toValue.withFile file = .ok below ∧
      Settings.ofValue? (below.withEnvironment env) = some s ∧ s.check = .ok () := by
  unfold Settings.load at h
  split at h
  · exact absurd h (by simp)
  · rename_i below hbelow
    split at h
    · exact absurd h (by simp)
    · rename_i settings hread
      split at h
      · exact absurd h (by simp)
      · rename_i hcheck
        obtain rfl := Except.ok.inj h
        exact ⟨below, hbelow, hread, hcheck⟩

/-- A variable counts as what its text can be taken for, before anything else is known of it.  The
default repository is spelled as that is printed.  A number below `2 ^ 63` is taken as it is written;
from there on it is rounded to a multiple of `2 ^ 11`, though as a text it would be read in full. -/
theorem variables_are_guessed_first
    (hload : Settings.load file (front ++ (name, r) :: rear) = .ok s) :
    (IsAbout name repositoryNames → LeavesAlone repositoryNames rear →
      s.dispatcher.defaultRepository = some (respelled r)) ∧
    ∀ k : NumberKey, IsAbout name k.names → LeavesAlone k.names rear →
      ∀ n ≤ wordMax, r = Text.ofNat n →
        k.valueIn s = (if n < signedCount then n else roundedWord n) ∧
        (k.valueIn s = n ↔ n < signedCount ∨ 2048 ∣ n ∨ n = wordMax) ∧
        asWord? (.text r) = some n := by
  obtain ⟨below, -, hread, -⟩ := Settings.load_eq_ok hload
  constructor
  · intro habout hrear
    have hfound := partAt?_withEnvironment_of_isAbout front r habout (List.cons_ne_nil _ _)
      (by decide +kernel) hrear below
    have hrepository := Settings.read_repository hread hfound
    rw [asOptional?_ofVariable] at hrepository
    exact (Option.some.inj hrepository).symm
  · rintro k habout hrear n hn rfl
    have hfound := partAt?_withEnvironment_of_isAbout front (Text.ofNat n) habout k.names_ne_nil
      k.lower_names hrear below
    have hvalue := Settings.read_number hread hfound
    rw [asWord?_ofVariable_ofNat hn] at hvalue
    have heq := (Option.some.inj hvalue).symm
    refine ⟨heq, ?_, asWord?_text_ofNat hn⟩
    rw [heq]
    by_cases hlow : n < signedCount
    · rw [if_pos hlow]
      exact iff_of_true rfl (.inl hlow)
    · rw [if_neg hlow, roundedWord_eq_iff hn]
      exact (or_iff_right hlow).symm

/-- A repository is named like a number, and statuses are to be kept for `2 ^ 63 + 1` seconds. -/
def guessedWrong : List (String × String) :=
  [("BULK__DISPATCHER__DEFAULT_REPOSITORY", "1.50"),
    ("BULK__STATUS__RETENTION_SECONDS", "9223372036854775809")]

theorem variables_are_guessed_first_wrong :
    ∃ s, Settings.load none guessedWrong = .ok s ∧
      s.dispatcher.defaultRepository = some "1.5" ∧
      s.status.retentionSeconds = 9223372036854775808 := by
  have hcheck : (Settings.load none guessedWrong).toOption.isSome = true := by decide +kernel
  cases hload : Settings.load none guessedWrong with
  | error f =>
    rw [hload] at hcheck
    exact absurd hcheck (by simp [Except.toOption])
  | ok s =>
    refine ⟨s, rfl, ?_, ?_⟩
    · have hrear : LeavesAlone repositoryNames
          [("BULK__STATUS__RETENTION_SECONDS", "9223372036854775809")] := by
        rintro x hx path hpath
        obtain rfl := List.mem_singleton.1 hx
        have hknown : variablePath? "BULK__STATUS__RETENTION_SECONDS" =
            some "status.retention_seconds" := by decide +kernel
        obtain rfl := Option.some.inj (hknown.symm.trans hpath)
        have hsteps : stepsOf "status.retention_seconds" =
            [.name "status", .name "retention_seconds"] := by decide +kernel
        rw [hsteps]
        exact .inl (by decide +kernel)
      have hfirst : Settings.load none ([] ++ ("BULK__DISPATCHER__DEFAULT_REPOSITORY", "1.50") ::
          [("BULK__STATUS__RETENTION_SECONDS", "9223372036854775809")]) = .ok s := hload
      rw [(variables_are_guessed_first hfirst).1 isAbout_repository hrear]
      decide +kernel
    · have hlast : Settings.load none ([("BULK__DISPATCHER__DEFAULT_REPOSITORY", "1.50")] ++
          ("BULK__STATUS__RETENTION_SECONDS", "9223372036854775809") :: []) = .ok s := hload
      have hvalue := (variables_are_guessed_first hlast).2 .retention
        (isAbout_variableName .retention) (fun x hx => absurd hx List.not_mem_nil)
        9223372036854775809 (by decide) (by decide +kernel)
      exact hvalue.1.trans (by decide +kernel)

end BulkRun
