import CallAtlas.Json.Reader

/-!
# Reading back what is written

What the decoders of both report formats have in common: a fixed word that has to stand in front,
and a number in decimal digits.

## Main definitions

* `decimal?` — the number that digits write.

## Main results

* `Json.behind?_append` — a word in front is passed.
* `decimal?_toString` — a number is read back.
-/

namespace CallAtlas

theorem Json.behind?_append (word : String) (rest : List Char) :
    Json.behind? word (word.toList ++ rest) = some rest := by
  have hprefix : word.toList.isPrefixOf (word.toList ++ rest) = true :=
    List.isPrefixOf_iff_prefix.mpr (List.prefix_append _ _)
  have hdrop : (word.toList ++ rest).drop word.length = rest := by
    rw [← String.length_toList, List.drop_left]
  rw [Json.behind?, if_pos hprefix, hdrop]

/-! ### Numbers -/

/-- The number that some digits write, of which there has to be one. -/
def decimal? (digits : List Char) : Option Nat :=
  if !digits.isEmpty && digits.all (·.isDigit) then some (Nat.ofDigitChars 10 digits 0) else none

theorem toList_toString (n : Nat) : (toString n).toList = Nat.toDigits 10 n := by
  rw [Nat.toString_eq_repr, Nat.toList_repr]

theorem isDigit_of_mem_toString {n : Nat} {c : Char} (h : c ∈ (toString n).toList) :
    c.isDigit = true := by
  rw [toList_toString] at h
  exact Nat.isDigit_of_mem_toDigits (by decide) (by decide) h

theorem decimal?_toString (n : Nat) : decimal? (toString n).toList = some n := by
  have hdigits : (!(toString n).toList.isEmpty && (toString n).toList.all (·.isDigit)) = true := by
    rw [Bool.and_eq_true_iff, List.all_eq_true]
    exact ⟨by simp, fun c => isDigit_of_mem_toString⟩
  rw [decimal?, if_pos hdigits, toList_toString, Nat.ofDigitChars_ten_toDigits]

end CallAtlas
