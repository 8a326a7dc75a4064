import FilterQuery.Query.Scan
import Mathlib

/-!
The scanners never give back more text than they got, and those that have to take something
give back less.
-/
namespace FilterQuery.Query

theorem takeEscapedWhile_length_le (p : List Char → Bool) (cs : List Char) :
    (takeEscapedWhile p cs).2.length ≤ cs.length := by
  fun_induction takeEscapedWhile p cs with
  | case1 => simp
  | case2 c cs h taken rest ht ih =>
    rw [ht] at ih
    simp only [List.length_cons] at ih ⊢
    omega
  | case3 => simp
  | case4 c cs _ h taken rest ht ih =>
    rw [ht] at ih
    simp only [List.length_cons] at ih ⊢
    omega
  | case5 => simp

theorem takeQuoted_length_le (cs : List Char) : (takeQuoted cs).2.length ≤ cs.length := by
  have h := takeEscapedWhile_length_le (·.head? != some '"') cs
  simp only [takeQuoted, List.length_tail]
  omega

theorem takeEscaped_length_lt {cs : List Char} (h : cs ≠ []) :
    (takeEscaped cs).2.length < cs.length := by
  fun_cases takeEscaped cs
  · exact absurd rfl h
  · simp only [List.length_cons]; omega
  · simp

theorem takeWord_length_lt {cs : List Char} (h : cs ≠ []) :
    (takeWord cs).2.length < cs.length := by
  have h₁ := takeEscaped_length_lt h
  have h₂ := takeEscapedWhile_length_le (fun cs => inWord cs && cs.head? != some '!')
    (takeEscaped cs).2
  exact Nat.lt_of_le_of_lt h₂ h₁

theorem takeTerm_length_lt {cs : List Char} (h : cs ≠ []) :
    (takeTerm cs).2.length < cs.length := by
  fun_cases takeTerm cs with
  | case1 cs taken rest ht =>
    have hq := takeQuoted_length_le cs
    rw [ht] at hq
    exact Nat.lt_succ_of_le hq
  | case2 cs _ taken rest ht =>
    have hw := takeWord_length_lt h
    rwa [ht] at hw

theorem extendTerm_length_le (t : Term) (cs : List Char) :
    (extendTerm t cs).2.length ≤ cs.length :=
  takeEscapedWhile_length_le _ cs

theorem takeValue_length_le (cs : List Char) : (takeValue cs).2.length ≤ cs.length := by
  have hb := Text.skipBlanks_length_le cs
  fun_cases takeValue cs with
  | case1 rest hs taken rest' ht =>
    have hq := takeQuoted_length_le rest
    rw [ht] at hq
    rw [hs, List.length_cons] at hb
    simp only at hq ⊢
    omega
  | case2 _ taken rest' ht =>
    have hv := takeEscapedWhile_length_le inValue (Text.skipBlanks cs)
    rw [ht] at hv
    exact Nat.le_trans hv hb

theorem takePayload_length_le (cs : List Char) : (takePayload cs).2.length ≤ cs.length := by
  fun_induction takePayload cs with
  | case1 => simp
  | case2 cs => simp only [List.length_cons]; omega
  | case3 c cs _ taken rest ht ih =>
    rw [ht] at ih
    exact Nat.le_succ_of_le ih

theorem skipStray_length_le (cs : List Char) : (skipStray cs).length ≤ cs.length := by
  fun_induction skipStray cs with
  | case1 => simp
  | case2 => simp
  | case3 c cs h ih => exact Nat.le_succ_of_le ih

theorem dropClose_length_le (cs : List Char) : (dropClose cs).length ≤ cs.length := by
  fun_cases dropClose cs <;> simp

theorem skipAnd_length_le (cs : List Char) : (skipAnd cs).length ≤ cs.length := by
  rw [skipAnd]
  split
  · simp
  · split <;> simp

theorem drop_length_lt_of_atOr {cs : List Char} (h : atOr cs = true) :
    (cs.drop 2).length < cs.length := by
  fun_cases atOr cs with
  | case1 a b cs => simp only [List.drop_succ_cons, List.drop_zero, List.length_cons]; omega
  | case2 cs hc => simp [atOr] at h

end FilterQuery.Query
