/-!
# Entries by key

Tables with few entries are lists of pairs with distinct keys, in the order in which the keys were
first put.  Main statement: after an entry is put, its key finds the new value and every other key
what it found before (`lookup_insertEntry`).
-/

namespace BulkRun

variable {κ α : Type}

/-- Puts an entry into a list of entries with distinct keys, in the place of an entry of that key if
there is one. -/
def insertEntry [BEq κ] (entries : List (κ × α)) (key : κ) (value : α) : List (κ × α) :=
  match entries with
  | [] => [(key, value)]
  | (k, v) :: rest =>
    if k == key then (key, value) :: rest else (k, v) :: insertEntry rest key value

/-- What is found after an entry was put. -/
theorem lookup_insertEntry [BEq κ] [LawfulBEq κ] (entries : List (κ × α)) (key other : κ)
    (value : α) :
    (insertEntry entries key value).lookup other =
      if other == key then some value else entries.lookup other := by
  induction entries with
  | nil => cases h : other == key <;> simp [insertEntry, List.lookup_cons, h]
  | cons entry rest ih =>
    obtain ⟨k, v⟩ := entry
    unfold insertEntry
    split
    · rename_i hk
      obtain rfl := eq_of_beq hk
      cases h : other == k <;> simp [List.lookup_cons, h]
    · rename_i hk
      cases h : other == k
      · simp [List.lookup_cons, h, ih]
      · obtain rfl := eq_of_beq h
        simp [hk]

end BulkRun
