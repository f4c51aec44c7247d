import BulkRun.Decimal.Reading
import BulkRun.Proofs.Text.Numeral
import Mathlib.Data.List.TakeWhile
/-!
# Words read as doubles

The decimal of a number is read as a numeral without point or exponent (`numeral_ofNat`).  A double
has 53 bits, so of a word in the upper half the last eleven bits are rounded off; read back as a
word it is a multiple of `2 ^ 11` (`toWord_read?_ofNat`).
-/

namespace BulkRun

open Text

namespace Decimal

/-! ## The digits of a number -/

theorem ofDigits_concat (ds : List Nat) (d : Nat) : ofDigits (ds ++ [d]) = ofDigits ds * 10 + d := by
  rw [ofDigits, List.foldl_append, ofDigits]
  rfl

/-- What is written for a number are digits of which it is made. -/
theorem decimalDigits_eq {fuel n : Nat} (h : n < fuel) (tail : List Char) :
    ∃ ds, (∀ d ∈ ds, d < 10) ∧ ofDigits ds = n ∧
      decimalDigits fuel n tail = ds.map (fun d => Char.ofNat (48 + d)) ++ tail := by
  induction fuel generalizing n tail with
  | zero => omega
  | succ fuel ih =>
    have hlast : n % 10 < 10 := Nat.mod_lt n (by omega)
    rw [decimalDigits]
    split
    · rename_i hn
      refine ⟨[n % 10], ?_, ?_, rfl⟩
      · simpa using hlast
      · rw [Nat.mod_eq_of_lt hn]
        exact Nat.zero_add n
    · obtain ⟨ds, hds, hvalue, hdigits⟩ := ih (n := n / 10) (by omega)
        (Char.ofNat (48 + n % 10) :: tail)
      refine ⟨ds ++ [n % 10], ?_, ?_, ?_⟩
      · intro d hd
        obtain hd | hd := List.mem_append.1 hd
        · exact hds d hd
        · rwa [List.mem_singleton.1 hd]
      · rw [ofDigits_concat, hvalue]
        omega
      · rw [hdigits, List.map_append, List.append_assoc]
        rfl

/-- Digits are taken one and all. -/
theorem takeDigits_map {ds : List Nat} (h : ∀ d ∈ ds, d < 10) :
    takeDigits (ds.map fun d => Char.ofNat (48 + d)) = (ds, []) := by
  have hall : ∀ c ∈ ds.map (fun d => Char.ofNat (48 + d)), (digit? c).isSome = true := by
    intro c hc
    obtain ⟨d, hd, rfl⟩ := List.mem_map.1 hc
    rw [digit?_ofNat (h d hd)]
    rfl
  have hvalues : (ds.map fun d => Char.ofNat (48 + d)).filterMap digit? = ds := by
    rw [List.filterMap_map]
    induction ds with
    | nil => rfl
    | cons d ds ih =>
      have hd : (digit? ∘ fun d => Char.ofNat (48 + d)) d = some d :=
        digit?_ofNat (h d List.mem_cons_self)
      rw [List.filterMap_cons_some hd, ih (fun e he => h e (List.mem_cons_of_mem d he))]
      intro c hc
      exact hall c (List.mem_cons_of_mem _ hc)
  rw [takeDigits, List.takeWhile_eq_self_iff.2 hall, List.dropWhile_eq_nil_iff.2 hall, hvalues]

/-- A number is written without a sign. -/
theorem takeSign_ofNat (n : Nat) : takeSign (ofNat n).toList = (false, (ofNat n).toList) := by
  unfold takeSign
  split
  · rename_i r hr
    exact absurd hr (toList_ofNat_ne (by decide) n r)
  · rename_i r hr
    exact absurd hr (toList_ofNat_ne (by decide) n r)
  · rfl

/-- A number that was written is a numeral of its digits. -/
theorem numeral_ofNat (n : Nat) :
    ∃ whole, ofDigits whole = n ∧
      Numeral.read? (ofNat n).toList = some ⟨false, whole, [], none⟩ := by
  obtain ⟨ds, hds, hvalue, hdigits⟩ := decimalDigits_eq (Nat.lt_succ_self n) []
  have htext : (ofNat n).toList = ds.map fun d => Char.ofNat (48 + d) := by
    rw [ofNat, String.toList_ofList, hdigits, List.append_nil]
  have hne : ds ≠ [] := by
    rintro rfl
    obtain ⟨d, rest, -, hfirst⟩ := exists_toList_ofNat n
    rw [htext] at hfirst
    exact absurd hfirst (by simp)
  refine ⟨ds, hvalue, ?_⟩
  rw [Numeral.read?, takeSign_ofNat]
  dsimp only
  rw [htext, takeDigits_map hds]
  dsimp only
  rw [if_neg (by simp [hne])]
  rfl

end Decimal

/-! ## Rounding -/

namespace Binary64

/-- A quotient is rounded down, or up by one. -/
theorem roundQuotient_eq (num den : Nat) :
    roundQuotient num den = num / den ∨ roundQuotient num den = num / den + 1 := by
  unfold roundQuotient
  dsimp only
  split
  · exact .inr rfl
  · exact .inl rfl

theorem roundQuotient_of_dvd {num den : Nat} (h : den ∣ num) :
    roundQuotient num den = num / den := by
  unfold roundQuotient
  dsimp only
  rw [Nat.mod_eq_zero_of_dvd h, if_neg]
  intro hup
  simp only [Nat.mul_zero, Bool.or_eq_true, Bool.and_eq_true, decide_eq_true_eq, beq_iff_eq] at hup
  obtain hup | ⟨rfl, hup⟩ := hup
  · exact absurd hup (Nat.not_lt_zero den)
  · rw [Nat.div_zero] at hup
    exact absurd hup (by decide)

/-- In the upper half of the words the doubles are `2 ^ 11` apart. -/
theorem exponentOf_upper {n : Nat} (hlow : signedCount ≤ n) (hhigh : n < wordCount) :
    exponentOf n 1 = 11 := by
  have hne : n ≠ 0 := Nat.ne_of_gt (Nat.lt_of_lt_of_le (by decide) hlow)
  have hlog : n.log2 = 63 := (Nat.log2_eq_iff hne).2 ⟨hlow, hhigh⟩
  have hstart : ((n.log2 : Int) - ((1 : Nat).log2 : Int) - 52) = 11 := by
    rw [hlog]
    rfl
  have hnot : ¬n < 1 * twoTo 11 * twoTo 52 := Nat.not_lt.2 hlow
  unfold exponentOf
  rw [hstart]
  show (if (if n < 1 * twoTo 11 * twoTo 52 then (11 : Int) - 1 else 11) < minExponent then _
    else _) = _
  rw [if_neg hnot]
  rfl

/-- The double nearest to a word in the upper half, as a number. -/
theorem ofRatio?_upper {n : Nat} (hlow : signedCount ≤ n) (hhigh : n < wordCount) :
    ∃ x, ofRatio? false n 1 = some x ∧ x.negative = false ∧
      x.toRatio = (2048 * roundQuotient n 2048, 1) := by
  have hne : n ≠ 0 := Nat.ne_of_gt (Nat.lt_of_lt_of_le (by decide) hlow)
  have hunits : inUnits n 1 11 = (n, 2048) := rfl
  rw [ofRatio?, if_neg hne, exponentOf_upper hlow hhigh]
  dsimp only
  rw [hunits]
  dsimp only
  by_cases hcarry : roundQuotient n 2048 = twoTo 53
  · -- rounded up to a power of two, which has one bit less
    refine ⟨⟨false, twoTo 52, 12⟩, ?_, rfl, ?_⟩
    · rw [if_pos hcarry]
      rfl
    · rw [hcarry]
      rfl
  · refine ⟨⟨false, roundQuotient n 2048, 11⟩, ?_, rfl, ?_⟩
    · rw [if_neg hcarry]
      rfl
    · rw [Nat.mul_comm]
      rfl

end Binary64

/-! ## A word through a double -/

/-- A word in the upper half, rounded to eleven bits less and cut to the range of words. -/
def roundedWord (n : Nat) : Nat := min (2048 * Binary64.roundQuotient n 2048) wordMax

/-- Only multiples of `2 ^ 11` and the greatest word are what they are rounded to. -/
theorem roundedWord_eq_iff {n : Nat} (h : n ≤ wordMax) :
    roundedWord n = n ↔ 2048 ∣ n ∨ n = wordMax := by
  have hmax : wordMax = 18446744073709551615 := rfl
  constructor
  · intro heq
    unfold roundedWord at heq
    by_cases hn : n = wordMax
    · exact .inr hn
    · left
      obtain hround | hround := Binary64.roundQuotient_eq n 2048
      · rw [hround] at heq
        omega
      · rw [hround] at heq
        omega
  · rintro (hdvd | rfl)
    · rw [roundedWord, Binary64.roundQuotient_of_dvd hdvd, Nat.mul_div_cancel' hdvd]
      exact Nat.min_eq_left h
    · rfl

/-- A word in the upper half that is read as a double and taken back as a word. -/
theorem Double.toWord_read?_ofNat {n : Nat} (hlow : signedCount ≤ n) (hhigh : n ≤ wordMax) :
    ∃ x, Double.read? (ofNat n) = some x ∧ x.toWord = roundedWord n := by
  obtain ⟨whole, hvalue, hnumeral⟩ := Decimal.numeral_ofNat n
  obtain ⟨x, hx, hpositive, hratio⟩ :=
    Binary64.ofRatio?_upper hlow (Nat.lt_of_le_of_lt hhigh (by decide))
  have hne : n ≠ 0 := Nat.ne_of_gt (Nat.lt_of_lt_of_le (by decide) hlow)
  have hnearest : Decimal.Numeral.nearest ⟨false, whole, [], none⟩ = .finite x := by
    have hscale : Decimal.Numeral.power ⟨false, whole, [], none⟩ - (([] : List Nat).length : Int) =
        .ofNat 0 := rfl
    have hcount : ¬(whole.length : Int) + .ofNat 0 < -400 := by
      show ¬(whole.length : Int) + 0 < -400
      omega
    have hwhole : n * tenTo 0 = n := Nat.mul_one n
    unfold Decimal.Numeral.nearest
    dsimp only
    rw [List.append_nil, hvalue, hscale, if_neg hne, if_neg (by decide), if_neg hcount]
    dsimp only
    rw [hwhole, hx]
  refine ⟨.finite x, ?_, ?_⟩
  · unfold Double.read?
    rw [Decimal.takeSign_ofNat]
    dsimp only
    split
    · rename_i heq
      exact absurd heq (ofList_map_ofNat_ne rfl (by decide) n)
    · rename_i heq
      exact absurd heq (ofList_map_ofNat_ne rfl (by decide) n)
    · rename_i heq
      exact absurd heq (ofList_map_ofNat_ne rfl (by decide) n)
    · rw [hnumeral, Option.map_some, hnearest]
  · rw [toWord, hpositive, hratio]
    dsimp only
    rw [if_neg Bool.false_ne_true, roundedWord]
    congr 1
    omega

end BulkRun
