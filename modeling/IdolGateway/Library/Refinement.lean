import IdolGateway.Library.Transducer

namespace IdolGateway.Transducer

variable {σ ι ω α κ β δ γ : Type*}

/-- The inputs of the upper machine that the steps of a run stand for. -/
def trace (m : Transducer σ ι ω) (tr : σ → ι → List κ) : Transducer σ ι κ where
  step s x := ((m.step s x).1, tr s x)

@[simp] theorem trace_step (m : Transducer σ ι ω) (tr : σ → ι → List κ) (s : σ) (x : ι) :
    (m.trace tr).step s x = ((m.step s x).1, tr s x) := rfl

@[simp] theorem after_trace (m : Transducer σ ι ω) (tr : σ → ι → List κ) (s : σ) (xs : List ι) :
    (m.trace tr).after s xs = m.after s xs := by
  induction xs generalizing s with
  | nil => rfl
  | cons x xs ih => exact ih _

/-- The steps of `m` at which `P` holds stand for the steps `tr` of `n`; `obs` is what shows. -/
structure Refines (m : Transducer σ ι ω) (n : Transducer α κ β) (R : σ → α → Prop)
    (P : σ → ι → Prop) (tr : σ → ι → List κ) (obs : ω → Option β) : Prop where
  state : ∀ {s a x}, R s a → P s x → R (m.step s x).1 (n.after a (tr s x))
  out : ∀ {s a x}, R s a → P s x → (m.step s x).2.filterMap obs = n.outputs a (tr s x)

theorem Refines.run {m : Transducer σ ι ω} {n : Transducer α κ β} {R : σ → α → Prop}
    {P : σ → ι → Prop} {tr : σ → ι → List κ} {obs : ω → Option β} (h : m.Refines n R P tr obs)
    {s : σ} {a : α} (hR : R s a) {xs : List ι} (hP : m.Along P s xs) :
    R (m.after s xs) (n.after a ((m.trace tr).outputs s xs)) ∧
      (m.outputs s xs).filterMap obs = n.outputs a ((m.trace tr).outputs s xs) := by
  induction xs generalizing s a with
  | nil => exact ⟨hR, rfl⟩
  | cons x xs ih =>
    obtain ⟨hstate, hout⟩ := ih (h.state hR hP.1) hP.2
    rw [after_cons, outputs_cons, outputs_cons, after_append, outputs_append,
      List.filterMap_append, h.out hR hP.1]
    exact ⟨hstate, congrArg _ hout⟩

theorem trace_outputs_of_map (m : Transducer σ ι ω) (f : ι → List κ) (s : σ) (xs : List ι) :
    (m.trace fun _ => f).outputs s xs = xs.flatMap f := by
  induction xs generalizing s with
  | nil => rfl
  | cons x xs ih => rw [outputs_cons, ih, List.flatMap_cons, trace_step]

/-- The machine of which only what `obs` makes of its outputs shows. -/
def seen (m : Transducer σ ι ω) (obs : ω → Option β) : Transducer σ ι β where
  step s x := ((m.step s x).1, (m.step s x).2.filterMap obs)

theorem run_seen (m : Transducer σ ι ω) (obs : ω → Option β) (s : σ) (xs : List ι) :
    (m.seen obs).after s xs = m.after s xs ∧
      (m.seen obs).outputs s xs = (m.outputs s xs).filterMap obs := by
  induction xs generalizing s with
  | nil => exact ⟨rfl, rfl⟩
  | cons x xs ih =>
    obtain ⟨hafter, hout⟩ := ih (m.step s x).1
    rw [outputs_cons, outputs_cons, List.filterMap_append, ← hout]
    exact ⟨hafter, rfl⟩

/-- Inputs that do nothing may be left out. -/
theorem run_filter (n : Transducer α κ β) (p : κ → Bool) {xs : List κ}
    (h : ∀ x ∈ xs, p x = false → ∀ a, n.step a x = (a, [])) (a : α) :
    n.after a (xs.filter p) = n.after a xs ∧ n.outputs a (xs.filter p) = n.outputs a xs := by
  induction xs generalizing a with
  | nil => exact ⟨rfl, rfl⟩
  | cons x xs ih =>
    rw [List.forall_mem_cons] at h
    rw [after_cons, outputs_cons]
    cases hx : p x with
    | true =>
      rw [List.filter_cons_of_pos hx, after_cons, outputs_cons]
      obtain ⟨hafter, hout⟩ := ih h.2 (n.step a x).1
      exact ⟨hafter, congrArg _ hout⟩
    | false =>
      rw [List.filter_cons_of_neg (by simp [hx]), h.1 hx]
      exact ih h.2 a

/-- What `m` emits is the input of `n`. -/
def through (m : Transducer σ ι κ) (n : Transducer α κ β) : Transducer (σ × α) ι β where
  step s x :=
    let r := m.step s.1 x
    ((r.1, n.after s.2 r.2), n.outputs s.2 r.2)

theorem run_through (m : Transducer σ ι κ) (n : Transducer α κ β) (s : σ) (a : α) (xs : List ι) :
    (m.through n).after (s, a) xs = (m.after s xs, n.after a (m.outputs s xs)) ∧
      (m.through n).outputs (s, a) xs = n.outputs a (m.outputs s xs) := by
  induction xs generalizing s a with
  | nil => exact ⟨rfl, rfl⟩
  | cons x xs ih =>
    obtain ⟨hafter, hout⟩ := ih (m.step s x).1 (n.after a (m.step s x).2)
    rw [after_cons, outputs_cons, outputs_cons, after_append, outputs_append]
    exact ⟨hafter, congrArg _ hout⟩

/-- `m`, with further inputs that are passed on as they are. -/
def merge (m : Transducer σ ι κ) (g : δ → κ) : Transducer σ (ι ⊕ δ) κ where
  step s
    | .inl x => m.step s x
    | .inr d => (s, [g d])

section Merge

variable (m : Transducer σ ι κ) {g : δ → κ} (s : σ) (xs : List (ι ⊕ δ))

theorem outputs_merge_left {h : κ → Option γ} (hg : ∀ d, h (g d) = none) :
    ((m.merge g).outputs s xs).filterMap h =
      (m.outputs s (xs.filterMap Sum.getLeft?)).filterMap h := by
  induction xs generalizing s with
  | nil => rfl
  | cons x xs ih =>
    rw [outputs_cons, List.filterMap_append, ih]
    cases x with
    | inl x => exact List.filterMap_append.symm
    | inr d =>
      change [g d].filterMap h ++ _ = _
      rw [List.filterMap_cons_none (hg d)]
      rfl

theorem outputs_merge_right {h : κ → Option γ} (hm : ∀ s x, (m.step s x).2.filterMap h = []) :
    ((m.merge g).outputs s xs).filterMap h =
      (xs.filterMap Sum.getRight?).filterMap fun d => h (g d) := by
  induction xs generalizing s with
  | nil => rfl
  | cons x xs ih =>
    rw [outputs_cons, List.filterMap_append, ih]
    cases x with
    | inl x =>
      change (m.step s x).2.filterMap h ++ _ = _
      rw [hm]
      rfl
    | inr d =>
      change [g d].filterMap h ++ _ = (d :: xs.filterMap Sum.getRight?).filterMap _
      simp only [List.filterMap_cons, List.filterMap_nil]
      cases h (g d) <;> rfl

end Merge

end IdolGateway.Transducer
