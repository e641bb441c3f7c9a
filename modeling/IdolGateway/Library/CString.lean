import IdolGateway.Library.Buffer
import Mathlib.Data.Nat.Find
import Mathlib.Data.UInt

namespace IdolGateway

/-- Memory from the address of a string on. -/
structure CString where
  cell : ℕ → UInt8
  terminated : ∃ n, cell n = 0

abbrev CText := {t : List UInt8 // 0 ∉ t}

namespace CString

def blank : CString := ⟨fun _ => 0, 0, rfl⟩

def strlen (s : CString) : ℕ := Nat.find s.terminated

theorem writeAt_nul (buf : ℕ → UInt8) (t : List UInt8) :
    writeAt buf 0 (t ++ [0]) t.length = 0 := by
  have h := writeAt_of_inside buf 0 (t ++ [0]) t.length (by simp)
  rw [Nat.zero_add] at h
  simpa using h

def strcpy (s : CString) (t : CText) : CString :=
  ⟨writeAt s.cell 0 (t.val ++ [0]), t.val.length, writeAt_nul s.cell t.val⟩

variable (s : CString) (t : CText)

theorem cell_strcpy (k : ℕ) (hk : k < t.val.length) : (s.strcpy t).cell k = t.val[k] := by
  have h := writeAt_of_inside s.cell 0 (t.val ++ [0]) k (by simp; omega)
  rw [Nat.zero_add, List.getElem_append_left hk] at h
  exact h

theorem cell_strcpy_length : (s.strcpy t).cell t.val.length = 0 := writeAt_nul s.cell t.val

theorem cell_ne_zero (k : ℕ) (hk : k < t.val.length) : (s.strcpy t).cell k ≠ 0 := by
  rw [s.cell_strcpy t k hk]
  intro h
  have hmem := List.getElem_mem hk
  rw [h] at hmem
  exact t.property hmem

theorem strlen_strcpy : (s.strcpy t).strlen = t.val.length :=
  (Nat.find_eq_iff (s.strcpy t).terminated).mpr
    ⟨s.cell_strcpy_length t, fun k hk => s.cell_ne_zero t k hk⟩

theorem firstCells_strcpy {n : ℕ} (hn : n ≤ t.val.length) :
    firstCells (s.strcpy t).cell n = t.val.take n := by
  apply List.ext_getElem
  · simp [hn]
  · intro k hk hk'
    rw [firstCells_length] at hk
    simp only [firstCells, List.getElem_map, List.getElem_range, List.getElem_take]
    exact s.cell_strcpy t k (by omega)

theorem zero_mem_firstCells {n : ℕ} (hn : t.val.length < n) :
    0 ∈ firstCells (s.strcpy t).cell n :=
  List.mem_map.mpr ⟨t.val.length, List.mem_range.mpr hn, s.cell_strcpy_length t⟩

end CString

end IdolGateway
