import Mathlib.Data.Nat.Init

namespace IdolGateway

variable {σ : Type*} (guard : σ → Bool) (body : σ → σ)

def whileLoop : ℕ → σ → Option σ
  | 0, _ => none
  | fuel + 1, s => if guard s then whileLoop fuel (body s) else some s

variable {guard body}

/-- A loop that goes through `s 0, …, s n` and stops there. -/
theorem whileLoop_of_chain (guard : σ → Bool) (body : σ → σ) (s : ℕ → σ) (n fuel : ℕ)
    (hguard : ∀ k < n, guard (s k) = true) (hbody : ∀ k < n, body (s k) = s (k + 1))
    (hend : guard (s n) = false) (hfuel : n < fuel) :
    whileLoop guard body fuel (s 0) = some (s n) := by
  induction n generalizing s fuel with
  | zero =>
    obtain ⟨f, rfl⟩ := Nat.exists_eq_add_of_lt hfuel
    simp [whileLoop, hend]
  | succ n ih =>
    obtain ⟨f, rfl⟩ : ∃ f, fuel = f + 1 := ⟨fuel - 1, by omega⟩
    rw [whileLoop, if_pos (hguard 0 (by omega)), hbody 0 (by omega)]
    exact ih (fun k => s (k + 1)) f (fun k hk => hguard (k + 1) (by omega))
      (fun k hk => hbody (k + 1) (by omega)) hend (by omega)

/-- An invariant of the body that forces the guard keeps the loop going for ever. -/
theorem whileLoop_eq_none_of_invariant (Inv : σ → Prop) (hguard : ∀ s, Inv s → guard s = true)
    (hbody : ∀ s, Inv s → Inv (body s)) (fuel : ℕ) {s : σ} (hs : Inv s) :
    whileLoop guard body fuel s = none := by
  induction fuel generalizing s with
  | zero => rfl
  | succ f ih => rw [whileLoop, if_pos (hguard s hs), ih (hbody s hs)]

end IdolGateway
