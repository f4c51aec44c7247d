import BulkRun.Text.Numeral
/-!
# Reading what was written

A number that is written in decimal is read back as the same number, as long as it is a word
(`readWord_ofNat`) or a signed word (`readSignedWord_ofNat`).
-/

namespace BulkRun.Text

theorem digit?_ofNat {d : Nat} (h : d < 10) : digit? (Char.ofNat (48 + d)) = some d := by
  have hall : ∀ d < 10, digit? (Char.ofNat (48 + d)) = some d := by decide
  exact hall d h

/-- The digits of a number begin with a digit, whatever comes behind them. -/
theorem exists_decimalDigits {fuel n : Nat} (h : n < fuel) (tail : List Char) :
    ∃ d rest, d < 10 ∧ decimalDigits fuel n tail = Char.ofNat (48 + d) :: rest := by
  induction fuel generalizing n tail with
  | zero => omega
  | succ fuel ih =>
    rw [decimalDigits]
    split
    · exact ⟨n % 10, tail, Nat.mod_lt _ (by omega), rfl⟩
    · exact ih (by omega) _

/-- The digits of a number append it to a value; how many places that takes is their own affair. -/
theorem appendDigits_decimalDigits {fuel n : Nat} (h : n < fuel) :
    ∃ places, ∀ value tail,
      appendDigits 10 digit? value (decimalDigits fuel n tail) =
        appendDigits 10 digit? (value * tenTo places + n) tail := by
  induction fuel generalizing n with
  | zero => omega
  | succ fuel ih =>
    have hdigit : digit? (Char.ofNat (48 + n % 10)) = some (n % 10) :=
      digit?_ofNat (Nat.mod_lt n (by omega))
    by_cases hn : n < 10
    · refine ⟨1, ?_⟩
      intro value tail
      rw [decimalDigits, if_pos hn, appendDigits, hdigit, Nat.mod_eq_of_lt hn]
      rfl
    · obtain ⟨places, hplaces⟩ := ih (n := n / 10) (by omega)
      refine ⟨places + 1, ?_⟩
      intro value tail
      have hvalue : (value * tenTo places + n / 10) * 10 + n % 10 =
          value * tenTo (places + 1) + n := by
        have hten : tenTo (places + 1) = tenTo places * 10 := rfl
        rw [hten, Nat.add_mul, Nat.mul_assoc]
        omega
      rw [decimalDigits, if_neg hn, hplaces, appendDigits, hdigit, ← hvalue]

/-- What is written for a number begins with a digit. -/
theorem exists_toList_ofNat (n : Nat) :
    ∃ d rest, d < 10 ∧ (ofNat n).toList = Char.ofNat (48 + d) :: rest := by
  obtain ⟨d, rest, hd, hdigits⟩ := exists_decimalDigits (Nat.lt_succ_self n) []
  exact ⟨d, rest, hd, String.toList_ofList.trans hdigits⟩

/-- What begins with a digit does not begin with anything else. -/
theorem toList_ofNat_ne {c : Char} (hc : ∀ d < 10, Char.ofNat (48 + d) ≠ c) (n : Nat)
    (rest : List Char) : (ofNat n).toList ≠ c :: rest := by
  obtain ⟨d, more, hd, hdigits⟩ := exists_toList_ofNat n
  rw [hdigits]
  intro heq
  exact hc d hd (List.cons.inj heq).1

/-- What begins with a digit is no word that begins with a letter, in whatever case it is put. -/
theorem ofList_map_ofNat_ne {f : Char → Char} {word : String} {c : Char} {rest : List Char}
    (hword : word.toList = c :: rest) (hc : ∀ d < 10, f (Char.ofNat (48 + d)) ≠ c) (n : Nat) :
    String.ofList ((ofNat n).toList.map f) ≠ word := by
  obtain ⟨d, more, hd, hdigits⟩ := exists_toList_ofNat n
  intro heq
  have hlist := congrArg String.toList heq
  rw [String.toList_ofList, hdigits, hword] at hlist
  exact hc d hd (List.cons.inj hlist).1

theorem readDigits_ofNat (n : Nat) : readDigits 10 digit? (ofNat n).toList = some n := by
  obtain ⟨d, rest, -, hdigits⟩ := exists_toList_ofNat n
  obtain ⟨places, hplaces⟩ := appendDigits_decimalDigits (Nat.lt_succ_self n)
  have happend := hplaces 0 []
  rw [Nat.zero_mul, Nat.zero_add] at happend
  have htext : (ofNat n).toList = decimalDigits (n + 1) n [] := String.toList_ofList
  rw [hdigits, readDigits, ← hdigits, htext]
  · exact happend
  · exact List.cons_ne_nil _ _

/-- A word that was written is read back. -/
theorem readWord_ofNat {n : Nat} (h : n ≤ wordMax) : readWord (ofNat n) = some n := by
  -- the first character is a digit, so there is no sign to be left out
  have hsign := toList_ofNat_ne (c := '+') (by decide) n
  unfold readWord
  dsimp only
  split
  · rename_i heq
    split at heq
    · rename_i r hr
      exact absurd hr (hsign r)
    · rw [readDigits_ofNat] at heq
      exact absurd heq (by simp)
  · rename_i m heq
    split at heq
    · rename_i r hr
      exact absurd hr (hsign r)
    · rw [readDigits_ofNat] at heq
      obtain rfl := Option.some.inj heq
      exact if_pos h

/-- A number that was written is read back as a signed word if it is one. -/
theorem readSignedWord_ofNat (n : Nat) :
    readSignedWord (ofNat n) = if n < signedCount then some (n : Int) else none := by
  have hminus := toList_ofNat_ne (c := '-') (by decide) n
  have hplus := toList_ofNat_ne (c := '+') (by decide) n
  unfold readSignedWord
  split
  · rename_i r hr
    exact absurd hr (hminus r)
  · dsimp only
    split
    · rename_i heq
      split at heq
      · rename_i r hr
        exact absurd hr (hplus r)
      · rw [readDigits_ofNat] at heq
        exact absurd heq (by simp)
    · rename_i m heq
      split at heq
      · rename_i r hr
        exact absurd hr (hplus r)
      · rw [readDigits_ofNat] at heq
        obtain rfl := Option.some.inj heq
        rfl

end BulkRun.Text
