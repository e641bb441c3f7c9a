import IdolGateway.Library.Refinement
import Mathlib.Data.Finset.Card
import Mathlib.Data.List.Infix

namespace IdolGateway.Register

variable {α κ : Type*}

theorem keys_append_known {key : α → κ} {xs : List α} {x : α} (hx : key x ∈ xs.map key) (k : κ) :
    k ∈ (xs ++ [x]).map key ↔ k ∈ xs.map key := by
  rw [List.map_append, List.mem_append, List.map_singleton, List.mem_singleton]
  exact ⟨Or.rec id fun hk => hk ▸ hx, Or.inl⟩

variable [DecidableEq κ] (key : α → κ) (room : ℕ)

/-- A known key is not entered again, and nobody is once the register is full. -/
def enter (rs : List α) (x : α) : List α :=
  if key x ∈ rs.map key ∨ room ≤ rs.length then rs else rs ++ [x]

def entries (xs : List α) : List α := xs.foldl (enter key room) []

def machine : Transducer (List α) α Empty where
  step rs x := (enter key room rs x, [])

variable {key room}

theorem after_machine (rs xs : List α) :
    (machine key room).after rs xs = xs.foldl (enter key room) rs := by
  induction xs generalizing rs with
  | nil => rfl
  | cons x xs ih => exact ih _

theorem outputs_machine (rs xs : List α) : (machine key room).outputs rs xs = [] := by
  induction xs generalizing rs with
  | nil => rfl
  | cons x xs ih => exact ih _

theorem entries_append_singleton (xs : List α) (x : α) :
    entries key room (xs ++ [x]) = enter key room (entries key room xs) x :=
  List.foldl_append

theorem prefix_foldl (rs ys : List α) : rs <+: ys.foldl (enter key room) rs := by
  induction ys generalizing rs with
  | nil => exact List.prefix_rfl
  | cons y ys ih =>
    refine List.IsPrefix.trans ?_ (ih _)
    unfold enter
    split_ifs
    · exact List.prefix_rfl
    · exact List.prefix_append _ _

def arrived (key : α → κ) (xs : List α) : ℕ := (xs.map key).toFinset.card

theorem arrived_append_singleton (xs : List α) (x : α) :
    arrived key (xs ++ [x]) = arrived key xs + if key x ∈ xs.map key then 0 else 1 := by
  have hset : ((xs ++ [x]).map key).toFinset = insert (key x) (xs.map key).toFinset := by
    ext k
    simp
  unfold arrived
  rw [hset]
  by_cases h : key x ∈ xs.map key
  · rw [if_pos h, Finset.insert_eq_of_mem (List.mem_toFinset.mpr h), Nat.add_zero]
  · rw [if_neg h, Finset.card_insert_of_notMem (by simpa using h)]

/-- As long as there has been room, every key that has come is in the register; after that it
stays full. -/
theorem entries_room (xs : List α) :
    (entries key room xs).length = min room (arrived key xs) ∧
      (arrived key xs ≤ room → ∀ k, k ∈ (entries key room xs).map key ↔ k ∈ xs.map key) := by
  induction xs using List.reverseRecOn with
  | nil => simp [entries, arrived]
  | append_singleton xs x ih =>
    obtain ⟨hlen, hkeys⟩ := ih
    rw [entries_append_singleton, arrived_append_singleton, enter]
    by_cases hroom : arrived key xs < room
    · have hall := hkeys (le_of_lt hroom)
      by_cases hx : key x ∈ xs.map key
      · rw [if_pos hx, Nat.add_zero, if_pos (Or.inl ((hall _).mpr hx))]
        exact ⟨hlen, fun _ k => (hall k).trans (keys_append_known hx k).symm⟩
      · rw [if_neg hx, if_neg]
        · rw [List.length_append, List.length_singleton]
          refine ⟨by omega, fun _ k => ?_⟩
          rw [List.map_append, List.map_append, List.mem_append, List.mem_append, hall]
        · rw [not_or, hlen]
          exact ⟨fun h => hx ((hall _).mp h), by omega⟩
    · rw [if_pos (Or.inr (by omega))]
      split_ifs with hx
      · exact ⟨hlen, fun hle k => (hkeys hle k).trans (keys_append_known hx k).symm⟩
      · exact ⟨by omega, fun hle => by omega⟩

theorem entered_iff (xs : List α) (x : α) :
    ¬ (key x ∈ (entries key room xs).map key ∨ room ≤ (entries key room xs).length) ↔
      key x ∉ xs.map key ∧ arrived key xs < room := by
  obtain ⟨hlen, hkeys⟩ := @entries_room _ _ _ key room xs
  rw [not_or, hlen]
  by_cases hroom : arrived key xs < room
  · rw [hkeys (le_of_lt hroom)]
    exact and_congr_right fun _ => iff_of_true (by omega) hroom
  · exact iff_of_false (fun h => h.2 (by omega)) fun h => hroom h.2

/-- Who is in the register: the first to come with a key, while fewer than `room` keys had come
before. -/
theorem mem_entries_iff {xs : List α} {x : α} :
    x ∈ entries key room xs ↔
      ∃ pre post, xs = pre ++ x :: post ∧ key x ∉ pre.map key ∧ arrived key pre < room := by
  induction xs using List.reverseRecOn with
  | nil => simp [entries]
  | append_singleton xs y ih =>
    have hlast : x ∈ entries key room (xs ++ [y]) ↔ x ∈ entries key room xs ∨
        (x = y ∧ key y ∉ xs.map key ∧ arrived key xs < room) := by
      rw [entries_append_singleton, enter, ← entered_iff]
      split_ifs with h
      · exact ⟨Or.inl, Or.rec id fun hx => absurd h hx.2⟩
      · rw [List.mem_append, List.mem_singleton]
        simp only [h, not_false_iff, and_true]
    rw [hlast, ih]
    constructor
    · rintro (⟨pre, post, rfl, hkey, hcount⟩ | ⟨rfl, hkey, hcount⟩)
      · exact ⟨pre, post ++ [y], by simp, hkey, hcount⟩
      · exact ⟨xs, [], rfl, hkey, hcount⟩
    · rintro ⟨pre, post, heq, hkey, hcount⟩
      rcases List.eq_nil_or_concat' post with rfl | ⟨post, z, rfl⟩
      · obtain ⟨rfl, hy⟩ := List.append_inj' heq rfl
        obtain rfl := List.singleton_inj.mp hy
        exact Or.inr ⟨rfl, hkey, hcount⟩
      · rw [← List.cons_append, ← List.append_assoc] at heq
        exact Or.inl ⟨pre, post, (List.append_inj' heq rfl).1, hkey, hcount⟩

end IdolGateway.Register
