import Mathlib.Data.Int.Notation
import Mathlib.Data.List.Basic
import Mathlib.Data.Nat.Notation

/-!
# Numbers in format strings

The fields `{n}` and `{n:02d}` of a Python format string, and how a text of several fields
is taken apart again: a field that does not contain the separator after it can be read back
from the text (`field_inj`).
-/

namespace Formatting

/-- `f"{n:02d}"`, for a number that is not negative. -/
def pad2 (n : ℕ) : String := if n < 10 then "0" ++ n.repr else n.repr

theorem repr_nat_injective : Function.Injective Nat.repr := by
  intro m n h
  have hdigits := congrArg (fun s => Nat.ofDigitChars 10 (String.toList s) 0) h
  simpa using hdigits

theorem repr_int_injective : Function.Injective Int.repr := by
  have hminus : ∀ m n : ℕ, m.repr ≠ "-" ++ n.repr := by
    intro m n h
    have hmem : '-' ∈ m.repr.toList := by
      rw [h]
      simp
    rw [Nat.toList_repr] at hmem
    have hdigit := Nat.isDigit_of_mem_toDigits (by omega) (by omega) hmem
    simp at hdigit
  intro m n h
  rw [Int.repr_eq_if, Int.repr_eq_if] at h
  split_ifs at h with hm hn hn
  · have := repr_nat_injective h
    omega
  · exact absurd h (hminus _ _)
  · exact absurd h.symm (hminus _ _)
  · have htail := repr_nat_injective ((String.append_right_inj _).mp h)
    omega

theorem notMem_repr_nat {c : Char} (hc : c.isDigit = false) (n : ℕ) : c ∉ n.repr.toList := by
  intro hmem
  rw [Nat.toList_repr] at hmem
  have hdigit := Nat.isDigit_of_mem_toDigits (by omega) (by omega) hmem
  rw [hc] at hdigit
  cases hdigit

/-- A number is written with digits and a sign. -/
theorem notMem_repr_int {c : Char} (hc : c.isDigit = false) (hsign : c ≠ '-') (n : ℤ) :
    c ∉ (Int.repr n).toList := by
  rw [Int.repr_eq_if]
  split_ifs
  · exact notMem_repr_nat hc _
  · intro hmem
    rw [String.toList_append, List.mem_append] at hmem
    rcases hmem with hmem | hmem
    · exact hsign (by simpa using hmem)
    · exact notMem_repr_nat hc _ hmem

theorem notMem_pad2 {c : Char} (hc : c.isDigit = false) (n : ℕ) : c ∉ (pad2 n).toList := by
  unfold pad2
  split_ifs
  · intro hmem
    rw [String.toList_append, List.mem_append] at hmem
    rcases hmem with hmem | hmem
    · have hzero : c = '0' := by simpa using hmem
      rw [hzero] at hc
      simp at hc
    · exact notMem_repr_nat hc _ hmem
  · exact notMem_repr_nat hc _

/-- A padded number is read back. -/
theorem pad2_injective : Function.Injective pad2 := by
  have hvalue : ∀ n, Nat.ofDigitChars 10 (pad2 n).toList 0 = n := by
    intro n
    unfold pad2
    split_ifs
    · simp [Nat.ofDigitChars_cons]
    · simp
  intro m n h
  rw [← hvalue m, h, hvalue]

/-- What comes before the first separator, and what comes after it. -/
theorem append_sep_inj {α : Type} {c : α} {rest rest' : List α} :
    ∀ {xs xs' : List α}, c ∉ xs → c ∉ xs' → xs ++ c :: rest = xs' ++ c :: rest' →
      xs = xs' ∧ rest = rest'
  | [], [], _, _, h => ⟨rfl, (List.cons.inj h).2⟩
  | [], x :: xs', _, hxs', h => absurd ((List.cons.inj h).1 ▸ List.mem_cons_self) hxs'
  | x :: xs, [], hxs, _, h => absurd ((List.cons.inj h).1 ▸ List.mem_cons_self) hxs
  | x :: xs, x' :: xs', hxs, hxs', h => by
    obtain ⟨rfl, htail⟩ := List.cons.inj h
    rw [List.mem_cons, not_or] at hxs hxs'
    obtain ⟨rfl, hrest⟩ := append_sep_inj hxs.2 hxs'.2 htail
    exact ⟨rfl, hrest⟩

/-- **A field** that ends where the separator begins. -/
theorem field_inj {c : Char} {a a' : String} {rest rest' : List Char} (ha : c ∉ a.toList)
    (ha' : c ∉ a'.toList) (h : a.toList ++ c :: rest = a'.toList ++ c :: rest') :
    a = a' ∧ rest = rest' := by
  obtain ⟨htext, hrest⟩ := append_sep_inj ha ha' h
  exact ⟨String.toList_injective htext, hrest⟩

end Formatting
