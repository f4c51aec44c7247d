/-!
# Cutting a list into pieces

`chunks size xs` cuts a list into pieces of `size` items, the last one perhaps shorter.  Main
statements: nothing is lost (`flatten_chunks`), no piece is empty or too long, and there are
`⌈length / size⌉` of them.
-/

namespace BulkRun

/-- The pieces of a list, each of `size` items but perhaps the last; none when `size` is zero. -/
def chunks {α : Type} (size : Nat) (xs : List α) : List (List α) :=
  if _h : xs = [] ∨ size = 0 then []
  else xs.take size :: chunks size (xs.drop size)
termination_by xs.length
decreasing_by
  have : 0 < xs.length := List.length_pos_iff.2 fun e => _h (.inl e)
  simp only [List.length_drop]
  omega

variable {α : Type} {size : Nat}

@[simp]
theorem chunks_nil : chunks size ([] : List α) = [] := by
  rw [chunks]; simp

theorem chunks_of_ne_nil {xs : List α} (hx : xs ≠ []) (hs : 0 < size) :
    chunks size xs = xs.take size :: chunks size (xs.drop size) := by
  rw [chunks, dif_neg]
  rintro (h | h)
  · exact hx h
  · omega

/-- A list no longer than a piece is one piece. -/
theorem chunks_of_length_le {xs : List α} (hx : xs ≠ []) (h : xs.length ≤ size) :
    chunks size xs = [xs] := by
  have hs : 0 < size := Nat.lt_of_lt_of_le (List.length_pos_iff.2 hx) h
  rw [chunks_of_ne_nil hx hs, List.take_of_length_le h, List.drop_of_length_le h, chunks_nil]

/-- The pieces put together are the list. -/
theorem flatten_chunks (hs : 0 < size) (xs : List α) : (chunks size xs).flatten = xs := by
  fun_induction chunks size xs with
  | case1 xs h =>
    rcases h with rfl | h
    · rfl
    · omega
  | case2 xs h ih => rw [List.flatten_cons, ih, List.take_append_drop]

/-- No piece is empty, and none is longer than `size`. -/
theorem length_of_mem_chunks {xs c : List α} (h : c ∈ chunks size xs) :
    0 < c.length ∧ c.length ≤ size := by
  fun_induction chunks size xs with
  | case1 => simp at h
  | case2 xs hne ih =>
    rcases List.mem_cons.1 h with rfl | h
    · have : 0 < xs.length := List.length_pos_iff.2 fun e => hne (.inl e)
      simp only [List.length_take]
      omega
    · exact ih h

end BulkRun
