import Mathlib.Data.List.Basic

/-!
# Procedures that read memory cells

A `ReadTree` is a computation whose only contact with memory is that it asks for
the value of a cell and continues with the answer.  Its value and the list of the
cells it asked for are both functions of the memory, so that what a computation
reads is part of its meaning: two memories that agree on the cells read give the
same value.  A `Procedure` adds a state that is threaded through and a list of
outputs.
-/

namespace IdolGateway

/-- A computation that reads cells named by `κ` and holding values of `β`. -/
inductive ReadTree (κ β : Type) (α : Type)
  | done (a : α)
  | read (k : κ) (next : β → ReadTree κ β α)

namespace ReadTree

variable {κ β : Type} {α γ : Type}

def eval (mem : κ → β) : ReadTree κ β α → α
  | done a => a
  | read k next => (next (mem k)).eval mem

def reads (mem : κ → β) : ReadTree κ β α → List κ
  | done _ => []
  | read k next => k :: (next (mem k)).reads mem

def bind (f : α → ReadTree κ β γ) : ReadTree κ β α → ReadTree κ β γ
  | done a => f a
  | read k next => read k fun b => (next b).bind f

theorem eval_bind (mem : κ → β) (f : α → ReadTree κ β γ) (t : ReadTree κ β α) :
    (t.bind f).eval mem = (f (t.eval mem)).eval mem := by
  induction t with
  | done a => rfl
  | read k next ih => exact ih _

theorem reads_bind (mem : κ → β) (f : α → ReadTree κ β γ) (t : ReadTree κ β α) :
    (t.bind f).reads mem = t.reads mem ++ (f (t.eval mem)).reads mem := by
  induction t with
  | done a => rfl
  | read k next ih => simp only [bind, reads, eval, ih, List.cons_append]

theorem eval_congr {mem mem' : κ → β} (t : ReadTree κ β α)
    (h : ∀ k ∈ t.reads mem, mem k = mem' k) : t.eval mem = t.eval mem' := by
  induction t with
  | done a => rfl
  | read k next ih =>
    simp only [reads, List.mem_cons, forall_eq_or_imp] at h
    simp only [eval, ← h.1]
    exact ih _ h.2

end ReadTree

structure Outcome (σ ω : Type) (α : Type) where
  value : α
  state : σ
  out : List ω

/-- A procedure reads cells, moves a state and emits outputs. -/
def Procedure (κ β σ ω : Type) (α : Type) := σ → ReadTree κ β (Outcome σ ω α)

namespace Procedure

variable {κ β σ ω : Type} {α γ : Type}

instance : Monad (Procedure κ β σ ω) where
  pure a := fun s => .done ⟨a, s, []⟩
  bind p f := fun s => (p s).bind fun r =>
    ((f r.value) r.state).bind fun q => .done ⟨q.value, q.state, r.out ++ q.out⟩

def cell (k : κ) : Procedure κ β σ ω β := fun s => .read k fun b => .done ⟨b, s, []⟩

def gets (f : σ → α) : Procedure κ β σ ω α := fun s => .done ⟨f s, s, []⟩

def modify (f : σ → σ) : Procedure κ β σ ω Unit := fun s => .done ⟨(), f s, []⟩

def emit (o : List ω) : Procedure κ β σ ω Unit := fun s => .done ⟨(), s, o⟩

def when (c : Prop) [Decidable c] (p : Procedure κ β σ ω Unit) : Procedure κ β σ ω Unit :=
  if c then p else pure ()

def each {ι : Type} (body : ι → Procedure κ β σ ω Unit) : List ι → Procedure κ β σ ω Unit
  | [] => pure ()
  | i :: is => body i >>= fun _ => each body is

def run (p : Procedure κ β σ ω α) (mem : κ → β) (s : σ) : Outcome σ ω α := (p s).eval mem

def reads (p : Procedure κ β σ ω α) (mem : κ → β) (s : σ) : List κ := (p s).reads mem

section Run

variable (mem : κ → β) (s : σ)

@[simp] theorem run_pure (a : α) : (pure a : Procedure κ β σ ω α).run mem s = ⟨a, s, []⟩ := rfl

@[simp] theorem run_cell (k : κ) : (cell k : Procedure κ β σ ω β).run mem s = ⟨mem k, s, []⟩ := rfl

@[simp] theorem run_gets (f : σ → α) :
    (gets f : Procedure κ β σ ω α).run mem s = ⟨f s, s, []⟩ := rfl

@[simp] theorem run_modify (f : σ → σ) :
    (modify f : Procedure κ β σ ω Unit).run mem s = ⟨(), f s, []⟩ := rfl

@[simp] theorem run_emit (o : List ω) :
    (emit o : Procedure κ β σ ω Unit).run mem s = ⟨(), s, o⟩ := rfl

@[simp] theorem run_bind (p : Procedure κ β σ ω α) (f : α → Procedure κ β σ ω γ) :
    (p >>= f).run mem s =
      let r := p.run mem s
      let q := (f r.value).run mem r.state
      ⟨q.value, q.state, r.out ++ q.out⟩ := by
  simp only [run, Bind.bind, ReadTree.eval_bind]
  rfl

/-! A statement that only asks or only sets hands its answer on. -/

theorem run_cell_bind (k : κ) (f : β → Procedure κ β σ ω γ) :
    (cell k >>= f).run mem s = (f (mem k)).run mem s := by
  rw [run_bind]
  rfl

theorem run_gets_bind (g : σ → α) (f : α → Procedure κ β σ ω γ) :
    (gets g >>= f).run mem s = (f (g s)).run mem s := by
  rw [run_bind]
  rfl

variable {mem s} in
theorem run_bind_of_quiet {p : Procedure κ β σ ω α} {f : α → Procedure κ β σ ω γ} {a : α} {s' : σ}
    (h : p.run mem s = ⟨a, s', []⟩) : (p >>= f).run mem s = (f a).run mem s' := by
  rw [run_bind, h]
  rfl

theorem run_bind_pure (p : Procedure κ β σ ω Unit) :
    (p >>= fun _ => pure ()).run mem s = p.run mem s := by
  rw [run_bind]
  simp only [run_pure, List.append_nil]

theorem run_bind_state (p : Procedure κ β σ ω α) (f : α → Procedure κ β σ ω γ) :
    ((p >>= f).run mem s).state = ((f (p.run mem s).value).run mem (p.run mem s).state).state := by
  rw [run_bind]

theorem run_bind_out (p : Procedure κ β σ ω α) (f : α → Procedure κ β σ ω γ) :
    ((p >>= f).run mem s).out =
      (p.run mem s).out ++ ((f (p.run mem s).value).run mem (p.run mem s).state).out := by
  rw [run_bind]

@[simp] theorem run_ite (c : Prop) [Decidable c] (p q : Procedure κ β σ ω α) :
    (if c then p else q).run mem s = if c then p.run mem s else q.run mem s := by
  split_ifs <;> rfl

theorem run_when (c : Prop) [Decidable c] (p : Procedure κ β σ ω Unit) :
    (when c p).run mem s = if c then p.run mem s else ⟨(), s, []⟩ := by
  unfold when
  exact run_ite mem s c p (pure ())

end Run

theorem run_each_state {ι : Type} {body : ι → Procedure κ β σ ω Unit} {is : List ι}
    {mem : κ → β} {s : σ} (h : ∀ i ∈ is, ((body i).run mem s).state = s) :
    ((each body is).run mem s).state = s := by
  induction is with
  | nil => rfl
  | cons i is ih =>
    rw [List.forall_mem_cons] at h
    rw [each, run_bind_state, h.1]
    exact ih h.2

/-- Every cell the procedure asks for satisfies `K`. -/
def ReadsWithin (K : κ → Prop) (p : Procedure κ β σ ω α) (mem : κ → β) (s : σ) : Prop :=
  ∀ k ∈ p.reads mem s, K k

section Reads

variable {K : κ → Prop} {mem : κ → β} {s : σ}

theorem reads_bind (p : Procedure κ β σ ω α) (f : α → Procedure κ β σ ω γ) :
    (p >>= f).reads mem s =
      p.reads mem s ++ (f (p.run mem s).value).reads mem (p.run mem s).state := by
  simp only [reads, run, Bind.bind, ReadTree.reads_bind]
  simp [ReadTree.reads]

theorem readsWithin_pure (a : α) :
    ReadsWithin K (pure a : Procedure κ β σ ω α) mem s := fun _ h => nomatch h

theorem readsWithin_gets (f : σ → α) :
    ReadsWithin K (gets f : Procedure κ β σ ω α) mem s := fun _ h => nomatch h

theorem readsWithin_modify (f : σ → σ) :
    ReadsWithin K (modify f : Procedure κ β σ ω Unit) mem s := fun _ h => nomatch h

theorem readsWithin_emit (o : List ω) :
    ReadsWithin K (emit o : Procedure κ β σ ω Unit) mem s := fun _ h => nomatch h

theorem readsWithin_cell (k : κ) :
    ReadsWithin K (cell k : Procedure κ β σ ω β) mem s ↔ K k := by
  simp [ReadsWithin, reads, cell, ReadTree.reads]

theorem readsWithin_bind (p : Procedure κ β σ ω α) (f : α → Procedure κ β σ ω γ) :
    ReadsWithin K (p >>= f) mem s ↔
      ReadsWithin K p mem s ∧
        ReadsWithin K (f (p.run mem s).value) mem (p.run mem s).state := by
  simp only [ReadsWithin, reads_bind, List.mem_append, or_imp, forall_and]

theorem readsWithin_when (c : Prop) [Decidable c] (p : Procedure κ β σ ω Unit) :
    ReadsWithin K (when c p) mem s ↔ (c → ReadsWithin K p mem s) := by
  unfold when
  by_cases hc : c
  · simp [hc]
  · simp [hc, readsWithin_pure]

theorem readsWithin_each {ι : Type} {body : ι → Procedure κ β σ ω Unit} {is : List ι}
    (h : ∀ i ∈ is, ∀ s, ReadsWithin K (body i) mem s) : ReadsWithin K (each body is) mem s := by
  induction is generalizing s with
  | nil => exact readsWithin_pure _
  | cons i is ih =>
    rw [each, readsWithin_bind]
    exact ⟨h i (by simp) s, ih fun j hj => h j (by simp [hj])⟩

/-- A procedure cannot tell apart two memories that agree on the cells it reads. -/
theorem run_congr {p : Procedure κ β σ ω α} {mem' : κ → β} (hp : ReadsWithin K p mem s)
    (h : ∀ k, K k → mem k = mem' k) : p.run mem s = p.run mem' s :=
  ReadTree.eval_congr (p s) fun k hk => h k (hp k hk)

end Reads

/-- From a state in `P` the procedure ends with a value and a state in `Q`. -/
def Triple (mem : κ → β) (P : σ → Prop) (p : Procedure κ β σ ω α) (Q : α → σ → Prop) : Prop :=
  ∀ s, P s → Q (p.run mem s).value (p.run mem s).state

namespace Triple

variable {mem : κ → β} {P : σ → Prop} {Q : α → σ → Prop} {R : γ → σ → Prop}

theorem bind {p : Procedure κ β σ ω α} {f : α → Procedure κ β σ ω γ} (hp : Triple mem P p Q)
    (hf : ∀ a, Triple mem (Q a) (f a) R) : Triple mem P (p >>= f) R := by
  intro s hs
  rw [run_bind]
  exact hf _ _ (hp s hs)

theorem any {p : Procedure κ β σ ω α} (P : σ → Prop) : Triple mem P p fun _ _ => True :=
  fun _ _ => trivial

theorem of_quiet {p : Procedure κ β σ ω α} (hp : ∀ s, (p.run mem s).state = s) :
    Triple mem P p fun _ => P := by
  intro s hs
  rw [hp]
  exact hs

theorem cell {k : κ} (P : σ → Prop) :
    Triple mem P (Procedure.cell k : Procedure κ β σ ω β) fun _ => P := fun _ hs => hs

theorem when {c : Prop} [Decidable c] {p : Procedure κ β σ ω Unit} {Q : Unit → σ → Prop}
    (hp : c → Triple mem P p Q) (hn : ¬ c → ∀ s, P s → Q () s) :
    Triple mem P (Procedure.when c p) Q := by
  intro s hs
  rw [run_when]
  by_cases hc : c
  · rw [if_pos hc]
    exact hp hc s hs
  · rw [if_neg hc]
    exact hn hc s hs

theorem each {ι : Type} {body : ι → Procedure κ β σ ω Unit} {is : List ι}
    (h : ∀ i, Triple mem P (body i) fun _ => P) :
    Triple mem P (Procedure.each body is) fun _ => P := by
  induction is with
  | nil => exact fun _ hs => hs
  | cons i is ih => exact (h i).bind fun _ => ih

end Triple

def OutAll (Q : ω → Prop) (p : Procedure κ β σ ω α) (mem : κ → β) (s : σ) : Prop :=
  ∀ o ∈ (p.run mem s).out, Q o

section OutAll

variable {Q : ω → Prop} {mem : κ → β} {s : σ}

theorem outAll_pure (a : α) : OutAll Q (pure a : Procedure κ β σ ω α) mem s := by
  intro o ho
  exact absurd ho List.not_mem_nil

theorem outAll_bind (p : Procedure κ β σ ω α) (f : α → Procedure κ β σ ω γ) :
    OutAll Q (p >>= f) mem s ↔
      OutAll Q p mem s ∧ OutAll Q (f (p.run mem s).value) mem (p.run mem s).state := by
  unfold OutAll
  rw [run_bind_out, List.forall_mem_append]

theorem outAll_when (c : Prop) [Decidable c] (p : Procedure κ β σ ω Unit) :
    OutAll Q (when c p) mem s ↔ (c → OutAll Q p mem s) := by
  unfold when
  by_cases hc : c
  · simp [hc]
  · simp [hc, outAll_pure]

/-- If each round keeps `P` and, from `P` on, emits only `Q` exactly for the elements in `C`,
then the loop does so exactly if all its elements are in `C`. -/
theorem outAll_each {ι : Type} {P : σ → Prop} {C : ι → Prop}
    {body : ι → Procedure κ β σ ω Unit} {is : List ι}
    (hkeep : ∀ i, Triple mem P (body i) fun _ => P)
    (hbody : ∀ i s, P s → (OutAll Q (body i) mem s ↔ C i)) (hs : P s) :
    OutAll Q (each body is) mem s ↔ ∀ i ∈ is, C i := by
  induction is generalizing s with
  | nil => simp [each, outAll_pure]
  | cons i is ih =>
    rw [each, outAll_bind, hbody i s hs, ih (hkeep i s hs), List.forall_mem_cons]

end OutAll

/-- Lists of outputs any two of which may follow each other. -/
structure Chainable (L : List ω → Prop) : Prop where
  nil : L []
  append : ∀ {o o' : List ω}, L o → L o' → L (o ++ o')

/-- From a state in `P` the procedure ends with a value and a state in `Q`, and the list
it emits is in `L`. -/
def Emits (mem : κ → β) (L : List ω → Prop) (P : σ → Prop) (p : Procedure κ β σ ω α)
    (Q : α → σ → Prop) : Prop :=
  ∀ s, P s → Q (p.run mem s).value (p.run mem s).state ∧ L (p.run mem s).out

namespace Emits

variable {mem : κ → β} {L : List ω → Prop} {P : σ → Prop} {Q : α → σ → Prop} {R : γ → σ → Prop}

theorem pure (hL : Chainable L) (a : α) :
    Emits mem L P (Pure.pure a : Procedure κ β σ ω α) fun _ => P := fun _ hs => ⟨hs, hL.nil⟩

theorem cell (hL : Chainable L) (k : κ) :
    Emits mem L P (Procedure.cell k : Procedure κ β σ ω β) fun _ => P := fun _ hs => ⟨hs, hL.nil⟩

theorem gets (hL : Chainable L) (f : σ → α) :
    Emits mem L P (Procedure.gets f : Procedure κ β σ ω α) fun _ => P := fun _ hs => ⟨hs, hL.nil⟩

theorem modify (hL : Chainable L) {f : σ → σ} (hf : ∀ s, P s → P (f s)) :
    Emits mem L P (Procedure.modify f : Procedure κ β σ ω Unit) fun _ => P :=
  fun s hs => ⟨hf s hs, hL.nil⟩

theorem emit {o : List ω} (ho : L o) :
    Emits mem L P (Procedure.emit o : Procedure κ β σ ω Unit) fun _ => P := fun _ hs => ⟨hs, ho⟩

theorem bind (hL : Chainable L) {p : Procedure κ β σ ω α} {f : α → Procedure κ β σ ω γ}
    (hp : Emits mem L P p Q) (hf : ∀ a, Emits mem L (Q a) (f a) R) :
    Emits mem L P (p >>= f) R := by
  intro s hs
  obtain ⟨hq, ho⟩ := hp s hs
  obtain ⟨hr, ho'⟩ := hf _ _ hq
  rw [run_bind]
  exact ⟨hr, hL.append ho ho'⟩

theorem when (hL : Chainable L) {c : Prop} [Decidable c] {p : Procedure κ β σ ω Unit}
    (hp : c → Emits mem L P p fun _ => P) : Emits mem L P (Procedure.when c p) fun _ => P := by
  unfold Procedure.when
  by_cases hc : c
  · rw [if_pos hc]
    exact hp hc
  · rw [if_neg hc]
    exact pure hL ()

end Emits

/-- Runs of `p` and `p'` from states tied by `R` give equal values, states tied by
`R` again, and outputs of which `obs` sees the same. -/
def Lockstep {ο : Type} (R : σ → σ → Prop) (obs : ω → Option ο) (mem : κ → β)
    (p p' : Procedure κ β σ ω α) : Prop :=
  ∀ s s', R s s' →
    (p.run mem s).value = (p'.run mem s').value ∧
    R (p.run mem s).state (p'.run mem s').state ∧
    (p.run mem s).out.filterMap obs = (p'.run mem s').out.filterMap obs

namespace Lockstep

variable {ο : Type} {R : σ → σ → Prop} {obs : ω → Option ο} {mem : κ → β}

theorem pure (a : α) : Lockstep R obs mem (pure a) (Pure.pure a) := fun _ _ h => ⟨rfl, h, rfl⟩

theorem cell (k : κ) : Lockstep R obs mem (cell k) (Procedure.cell k) :=
  fun _ _ h => ⟨rfl, h, rfl⟩

theorem gets {f : σ → α} (hf : ∀ s s', R s s' → f s = f s') :
    Lockstep R obs mem (Procedure.gets f) (Procedure.gets f) :=
  fun s s' h => ⟨hf s s' h, h, rfl⟩

theorem modify {f f' : σ → σ} (hf : ∀ s s', R s s' → R (f s) (f' s')) :
    Lockstep R obs mem (Procedure.modify f) (Procedure.modify f') :=
  fun s s' h => ⟨rfl, hf s s' h, rfl⟩

theorem emit {o o' : List ω} (ho : o.filterMap obs = o'.filterMap obs) :
    Lockstep R obs mem (Procedure.emit o) (Procedure.emit o') := fun _ _ h => ⟨rfl, h, ho⟩

theorem bind {p p' : Procedure κ β σ ω α} {f f' : α → Procedure κ β σ ω γ}
    (hp : Lockstep R obs mem p p') (hf : ∀ a, Lockstep R obs mem (f a) (f' a)) :
    Lockstep R obs mem (p >>= f) (p' >>= f') := by
  intro s s' h
  obtain ⟨hv, hs, ho⟩ := hp s s' h
  obtain ⟨hv', hs', ho'⟩ := hf (p.run mem s).value _ _ hs
  rw [run_bind, run_bind]
  simp only [← hv, List.filterMap_append, ho, ho']
  exact ⟨hv', hs', trivial⟩

theorem when {c : Prop} [Decidable c] {p p' : Procedure κ β σ ω Unit}
    (hp : Lockstep R obs mem p p') :
    Lockstep R obs mem (Procedure.when c p) (Procedure.when c p') := by
  unfold Procedure.when
  by_cases hc : c
  · simpa [hc] using hp
  · simpa [hc] using pure _

end Lockstep

end Procedure

end IdolGateway
