import Mathlib.Algebra.BigOperators.Group.List.Basic
import Mathlib.Algebra.GroupWithZero.Nat
import Mathlib.Data.List.Infix

/-!
# Machines that read a sequence of inputs

A transducer moves its state on every input and emits a list of outputs.  This
module runs one over a list of inputs and gives the induction rules every result
about a run is an instance of: an invariant kept by each step holds after every run,
a rank that falls until a goal is met bounds the steps to the goal, and a credit to
which each input adds one unit bounds the worth of what comes out.
-/

namespace IdolGateway

/-- A deterministic machine: an input moves the state and emits outputs. -/
structure Transducer (σ ι ω : Type*) where
  step : σ → ι → σ × List ω

namespace Transducer

variable {σ ι ω : Type*} (m : Transducer σ ι ω)

def after : σ → List ι → σ
  | s, [] => s
  | s, x :: xs => after (m.step s x).1 xs

def outputs : σ → List ι → List ω
  | _, [] => []
  | s, x :: xs => (m.step s x).2 ++ outputs (m.step s x).1 xs

/-- `P` holds of the state and the input at every step of the run. -/
def Along (P : σ → ι → Prop) : σ → List ι → Prop
  | _, [] => True
  | s, x :: xs => P s x ∧ Along P (m.step s x).1 xs

instance Along.decidable (P : σ → ι → Prop) [∀ s x, Decidable (P s x)] (s : σ) (xs : List ι) :
    Decidable (m.Along P s xs) :=
  match xs with
  | [] => isTrue trivial
  | x :: xs =>
    have := Along.decidable P (m.step s x).1 xs
    inferInstanceAs (Decidable (P s x ∧ m.Along P (m.step s x).1 xs))

/-- The inputs behind the last step at which `E` held; `none` if it never did. -/
def since (E : σ → ι → Prop) [∀ s x, Decidable (E s x)] : σ → List ι → Option (List ι)
  | _, [] => none
  | s, x :: xs => (since E (m.step s x).1 xs).or (if E s x then some xs else none)

/-- Some nonempty prefix of the inputs leads to a state in `goal`. -/
def Visits (goal : σ → Prop) (s : σ) (xs : List ι) : Prop :=
  ∃ ys, ys <+: xs ∧ ys ≠ [] ∧ goal (m.after s ys)

@[simp] theorem after_nil (s : σ) : m.after s [] = s := rfl

@[simp] theorem after_cons (s : σ) (x : ι) (xs : List ι) :
    m.after s (x :: xs) = m.after (m.step s x).1 xs := rfl

@[simp] theorem outputs_nil (s : σ) : m.outputs s [] = [] := rfl

@[simp] theorem outputs_cons (s : σ) (x : ι) (xs : List ι) :
    m.outputs s (x :: xs) = (m.step s x).2 ++ m.outputs (m.step s x).1 xs := rfl

@[simp] theorem along_nil (P : σ → ι → Prop) (s : σ) : m.Along P s [] := trivial

@[simp] theorem along_cons (P : σ → ι → Prop) (s : σ) (x : ι) (xs : List ι) :
    m.Along P s (x :: xs) ↔ P s x ∧ m.Along P (m.step s x).1 xs := Iff.rfl

theorem after_append (s : σ) (xs ys : List ι) :
    m.after s (xs ++ ys) = m.after (m.after s xs) ys := by
  induction xs generalizing s with
  | nil => rfl
  | cons x xs ih => exact ih _

theorem after_append_singleton (s : σ) (xs : List ι) (x : ι) :
    m.after s (xs ++ [x]) = (m.step (m.after s xs) x).1 := by
  rw [after_append]
  rfl

theorem outputs_append (s : σ) (xs ys : List ι) :
    m.outputs s (xs ++ ys) = m.outputs s xs ++ m.outputs (m.after s xs) ys := by
  induction xs generalizing s with
  | nil => rfl
  | cons x xs ih => simp only [List.cons_append, outputs_cons, ih, after_cons, List.append_assoc]

theorem along_append (P : σ → ι → Prop) (s : σ) (xs ys : List ι) :
    m.Along P s (xs ++ ys) ↔ m.Along P s xs ∧ m.Along P (m.after s xs) ys := by
  induction xs generalizing s with
  | nil => simp
  | cons x xs ih => simp [ih, and_assoc]

theorem along_of_forall {P : σ → ι → Prop} (h : ∀ s x, P s x) (s : σ) (xs : List ι) :
    m.Along P s xs := by
  induction xs generalizing s with
  | nil => trivial
  | cons x xs ih => exact ⟨h s x, ih _⟩

theorem along_mono {P P' : σ → ι → Prop} (h : ∀ s x, P s x → P' s x) {s : σ} {xs : List ι}
    (hP : m.Along P s xs) : m.Along P' s xs := by
  induction xs generalizing s with
  | nil => trivial
  | cons x xs ih => exact ⟨h s x hP.1, ih hP.2⟩

theorem along_iff (P : σ → ι → Prop) (s : σ) (xs : List ι) :
    m.Along P s xs ↔ ∀ pre x post, xs = pre ++ x :: post → P (m.after s pre) x := by
  constructor
  · rintro h pre x post rfl
    rw [along_append] at h
    exact h.2.1
  · intro h
    induction xs generalizing s with
    | nil => trivial
    | cons x xs ih =>
      refine ⟨h [] x xs rfl, ih _ ?_⟩
      rintro pre y post rfl
      exact h (x :: pre) y post rfl

theorem since_append_singleton (E : σ → ι → Prop) [∀ s x, Decidable (E s x)] (s : σ) (xs : List ι)
    (x : ι) : m.since E s (xs ++ [x]) =
      if E (m.after s xs) x then some [] else (m.since E s xs).map (· ++ [x]) := by
  induction xs generalizing s with
  | nil =>
    by_cases h : E s x
    · simp [since, h]
    · simp [since, h]
  | cons y ys ih =>
    rw [List.cons_append, since, ih, after_cons, since]
    by_cases h : E (m.after (m.step s y).1 ys) x
    · rw [if_pos h, if_pos h, Option.some_or]
    · rw [if_neg h, if_neg h]
      cases m.since E (m.step s y).1 ys with
      | some zs => rfl
      | none => by_cases hy : E s y <;> simp [hy]

section Invariant

variable {m} {Inv : σ → Prop} {P : σ → ι → Prop}

/-- A property of the run so far that each further step preserves holds of every run. -/
theorem run_induction {Q : List ι → Prop} {s : σ} (hnil : Q [])
    (hstep : ∀ xs x, Q xs → P (m.after s xs) x → Q (xs ++ [x]))
    {xs : List ι} (hP : m.Along P s xs) : Q xs := by
  induction xs using List.reverseRecOn with
  | nil => exact hnil
  | append_singleton xs x ih =>
    rw [along_append] at hP
    exact hstep xs x (ih hP.1) hP.2.1

/-- What one step preserves, a whole run preserves. -/
theorem after_invariant (hstep : ∀ s x, Inv s → P s x → Inv (m.step s x).1)
    {s : σ} {xs : List ι} (hs : Inv s) (hP : m.Along P s xs) : Inv (m.after s xs) := by
  induction xs generalizing s with
  | nil => exact hs
  | cons x xs ih => exact ih (hstep s x hs hP.1) hP.2

theorem after_preserves (hstep : ∀ s x, Inv s → Inv (m.step s x).1) {s : σ} (hs : Inv s)
    (xs : List ι) : Inv (m.after s xs) :=
  after_invariant (fun s x hs _ => hstep s x hs) hs (m.along_of_forall (fun _ _ => trivial) s xs)

/-- Two step properties that mean the same under an invariant mean the same for a run. -/
theorem along_congr {P' : σ → ι → Prop} (hstep : ∀ s x, Inv s → P' s x → Inv (m.step s x).1)
    (h : ∀ s x, Inv s → (P s x ↔ P' s x)) {s : σ} (hs : Inv s) (xs : List ι) :
    m.Along P s xs ↔ m.Along P' s xs := by
  induction xs generalizing s with
  | nil => rfl
  | cons x xs ih =>
    rw [along_cons, along_cons, h s x hs]
    exact and_congr_right fun hx => ih (hstep s x hs hx)

/-- An invariant that makes each step emit only outputs in `Q` makes the whole
run emit only outputs in `Q`. -/
theorem outputs_invariant {Q : ω → Prop} (hstep : ∀ s x, Inv s → P s x → Inv (m.step s x).1)
    (hout : ∀ s x, Inv s → P s x → ∀ o ∈ (m.step s x).2, Q o)
    {s : σ} {xs : List ι} (hs : Inv s) (hP : m.Along P s xs) :
    ∀ o ∈ m.outputs s xs, Q o := by
  induction xs generalizing s with
  | nil => simp
  | cons x xs ih =>
    intro o ho
    rcases List.mem_append.mp ho with ho | ho
    · exact hout s x hs hP.1 o ho
    · exact ih (hstep s x hs hP.1) hP.2 o ho

/-- If the outputs of a step are in `Q` exactly when `P` holds of it, those of a run are in `Q`
exactly when `P` holds along the run. -/
theorem forall_outputs_iff {Q : ω → Prop} (hinv : ∀ s x, Inv s → Inv (m.step s x).1)
    (hout : ∀ s x, Inv s → ((∀ o ∈ (m.step s x).2, Q o) ↔ P s x)) {s : σ} (hs : Inv s)
    (xs : List ι) : (∀ o ∈ m.outputs s xs, Q o) ↔ m.Along P s xs := by
  induction xs generalizing s with
  | nil => simp
  | cons x xs ih =>
    rw [outputs_cons, List.forall_mem_append, hout s x hs, ih (hinv s x hs), along_cons]

/-- Each input pays one unit into a credit of the state; what comes out is worth no more
than was paid. -/
theorem worth_le_paid (worth : ω → ℕ) (credit : σ → ℕ)
    (hinv : ∀ s x, Inv s → Inv (m.step s x).1)
    (hpay : ∀ s x, Inv s → ((m.step s x).2.map worth).sum + credit (m.step s x).1 ≤ credit s + 1)
    {s : σ} (hs : Inv s) (xs : List ι) :
    ((m.outputs s xs).map worth).sum ≤ credit s + xs.length := by
  induction xs generalizing s with
  | nil => simp
  | cons x xs ih =>
    have hstep := hpay s x hs
    have hrest := ih (hinv s x hs)
    rw [outputs_cons, List.map_append, List.sum_append, List.length_cons]
    omega

/-- If every step outside `P` loses a unit, a run whose outputs are worth all that was
paid stays in `P`. -/
theorem along_of_spent (worth : ω → ℕ) (credit : σ → ℕ)
    (hinv : ∀ s x, Inv s → Inv (m.step s x).1)
    (hpay : ∀ s x, Inv s → ((m.step s x).2.map worth).sum + credit (m.step s x).1 ≤ credit s + 1)
    (hlose : ∀ s x, Inv s → ¬ P s x →
      ((m.step s x).2.map worth).sum + credit (m.step s x).1 ≤ credit s)
    {s : σ} (hs : Inv s) {xs : List ι}
    (hspent : credit s + xs.length ≤ ((m.outputs s xs).map worth).sum) : m.Along P s xs := by
  induction xs generalizing s with
  | nil => trivial
  | cons x xs ih =>
    have hs' := hinv s x hs
    have hpaid := worth_le_paid worth credit hinv hpay hs' xs
    rw [outputs_cons, List.map_append, List.sum_append, List.length_cons] at hspent
    constructor
    · by_contra hx
      have := hlose s x hs hx
      omega
    · apply ih hs'
      have := hpay s x hs
      omega

/-- A rank that falls on every step that misses the goal reaches the goal within
as many steps as the rank counts. -/
theorem visits_of_rank {goal : σ → Prop} (rank : σ → ℕ)
    (hstep : ∀ s x, Inv s → P s x → Inv (m.step s x).1)
    (hrank : ∀ s x, Inv s → P s x → goal (m.step s x).1 ∨ rank (m.step s x).1 < rank s)
    {s : σ} {xs : List ι} (hs : Inv s) (hP : m.Along P s xs) (hlen : rank s < xs.length) :
    m.Visits goal s xs := by
  induction xs generalizing s with
  | nil => simp at hlen
  | cons x xs ih =>
    rcases hrank s x hs hP.1 with hg | hlt
    · exact ⟨[x], by simp, by simp, hg⟩
    · simp only [List.length_cons] at hlen
      obtain ⟨ys, hpre, -, hgoal⟩ := ih (hstep s x hs hP.1) hP.2 (by omega)
      exact ⟨x :: ys, by simpa using hpre, by simp, hgoal⟩

end Invariant

end Transducer

end IdolGateway
