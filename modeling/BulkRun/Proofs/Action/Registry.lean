import BulkRun.Action.Registry
/-!
# The registration of actions

In a registry that was built a name finds the last registration under it (`find?_build`), and every
registration in it went through the check of its descriptor (`check_of_build`).
-/

namespace BulkRun

/-- A descriptor is good when its name is not blank and its defaults are set to sizes that go
together, or left unset. -/
theorem ActionDescriptor.check_eq_ok {d : ActionDescriptor} :
    d.check = .ok () ↔ Text.isBlank d.name = false ∧ d.defaultBucketSize ≠ some 0 ∧
      d.defaultBatchSize ≠ some 0 ∧ ∀ bucket batch, d.defaultBucketSize = some bucket →
        d.defaultBatchSize = some batch → batch ≤ bucket := by
  unfold check
  split
  · simp_all
  · split
    · rename_i hzero
      simp only [reduceCtorEq, false_iff]
      rintro ⟨-, hbucket, hbatch, -⟩
      exact hzero.elim hbucket hbatch
    · rename_i hname hzero
      rw [not_or] at hzero
      rw [Bool.not_eq_true] at hname
      rw [and_iff_right hname, and_iff_right hzero.1, and_iff_right hzero.2]
      cases d.defaultBucketSize <;> cases d.defaultBatchSize <;> simp

namespace ActionRegistry

variable {α : Type} {r r' : ActionRegistry α} {actions : List (RegisteredAction α)}

/-- The last of some registrations under a name. -/
def lastNamed? (actions : List (RegisteredAction α)) (name : String) :
    Option (RegisteredAction α) :=
  actions.reverse.find? fun a => name == a.descriptor.name

theorem find?_registerAll (h : r.registerAll actions = .ok r') (name : String) :
    r'.find? name = (lastNamed? actions name).or (r.find? name) := by
  induction actions generalizing r with
  | nil => rw [← Except.ok.inj h, lastNamed?, List.reverse_nil, List.find?_nil, Option.none_or]
  | cons a rest ih =>
    unfold registerAll at h
    split at h
    · exact absurd h (by simp)
    · rw [ih h, lastNamed?, lastNamed?, List.reverse_cons, List.find?_append, Option.or_assoc]
      congr 1
      rw [find?, lookup_insertEntry, List.find?_singleton]
      split <;> rfl

/-- Later registrations take the place of earlier ones. -/
theorem find?_build (h : build actions = .ok r) (name : String) :
    r.find? name = lastNamed? actions name := by
  rw [find?_registerAll h, find?, List.lookup_nil, Option.or_none]

theorem check_of_registerAll (h : r.registerAll actions = .ok r') :
    ∀ a ∈ actions, a.descriptor.check = .ok () := by
  induction actions generalizing r with
  | nil => exact fun a ha => absurd ha List.not_mem_nil
  | cons b rest ih =>
    unfold registerAll at h
    split at h
    · exact absurd h (by simp)
    · rename_i hcheck
      exact List.forall_mem_cons.2 ⟨hcheck, ih h⟩

theorem check_of_build (h : build actions = .ok r) :
    ∀ a ∈ actions, a.descriptor.check = .ok () :=
  check_of_registerAll h

/-- What a registry finds was registered under that name, with a good descriptor. -/
theorem check_of_find? {name : String} {a : RegisteredAction α} (h : build actions = .ok r)
    (hfind : r.find? name = some a) : a.descriptor.name = name ∧ a.descriptor.check = .ok () := by
  rw [find?_build h] at hfind
  have hname := List.find?_some hfind
  have hmem := List.mem_reverse.1 (List.mem_of_find?_eq_some hfind)
  exact ⟨(eq_of_beq hname).symm, check_of_build h a hmem⟩

end ActionRegistry

end BulkRun
