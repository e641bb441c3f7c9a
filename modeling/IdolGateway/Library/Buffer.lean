import Mathlib.Data.List.Range
import Mathlib.Logic.Function.Basic

namespace IdolGateway

variable {β : Type*}

/-- `xs` stored at the offsets `p, p+1, …`. -/
def writeAt (buf : ℕ → β) (p : ℕ) : List β → ℕ → β
  | [] => buf
  | x :: xs => writeAt (Function.update buf p x) (p + 1) xs

def firstCells (buf : ℕ → β) (n : ℕ) : List β := (List.range n).map buf

@[simp] theorem writeAt_nil (buf : ℕ → β) (p : ℕ) : writeAt buf p [] = buf := rfl

@[simp] theorem writeAt_cons (buf : ℕ → β) (p : ℕ) (x : β) (xs : List β) :
    writeAt buf p (x :: xs) = writeAt (Function.update buf p x) (p + 1) xs := rfl

@[simp] theorem firstCells_length (buf : ℕ → β) (n : ℕ) : (firstCells buf n).length = n := by
  simp [firstCells]

theorem writeAt_of_outside (buf : ℕ → β) (p : ℕ) (xs : List β) {i : ℕ}
    (hi : i < p ∨ p + xs.length ≤ i) : writeAt buf p xs i = buf i := by
  induction xs generalizing buf p with
  | nil => rfl
  | cons x xs ih =>
    simp only [List.length_cons] at hi
    rw [writeAt_cons, ih _ _ (by omega), Function.update_of_ne (by omega)]

theorem writeAt_of_inside (buf : ℕ → β) (p : ℕ) (xs : List β) (k : ℕ) (hk : k < xs.length) :
    writeAt buf p xs (p + k) = xs[k] := by
  induction xs generalizing buf p k with
  | nil => simp at hk
  | cons x xs ih =>
    cases k with
    | zero => rw [writeAt_cons, writeAt_of_outside _ _ _ (by omega)]; simp
    | succ k =>
      simp only [List.length_cons] at hk
      simpa [Nat.add_assoc, Nat.add_comm 1 k] using ih (Function.update buf p x) (p + 1) k
        (by omega)

theorem firstCells_writeAt (buf : ℕ → β) (xs : List β) :
    firstCells (writeAt buf 0 xs) xs.length = xs := by
  refine List.ext_getElem (by simp) ?_
  intro i h1 h2
  simpa [firstCells] using writeAt_of_inside buf 0 xs i h2

theorem firstCells_update_of_le (buf : ℕ → β) {n i : ℕ} (h : n ≤ i) (x : β) :
    firstCells (Function.update buf i x) n = firstCells buf n := by
  refine List.map_congr_left ?_
  intro k hk
  have hk' := List.mem_range.mp hk
  exact Function.update_of_ne (by omega) _ _

theorem firstCells_succ (buf : ℕ → β) (n : ℕ) :
    firstCells buf (n + 1) = firstCells buf n ++ [buf n] := by
  simp [firstCells, List.range_succ]

theorem firstCells_add (buf : ℕ → β) (m n : ℕ) :
    firstCells buf (m + n) = firstCells buf m ++ firstCells (fun i => buf (m + i)) n := by
  unfold firstCells
  rw [List.range_add, List.map_append, List.map_map]
  rfl

end IdolGateway
