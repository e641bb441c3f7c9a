import Mathlib.Algebra.BigOperators.Group.Finset.Basic
import Mathlib.Data.Multiset.AddSub
import IdolGateway.Library.Transducer

namespace IdolGateway

/-- A sequence of steps, split where it has come to. -/
structure Strand (α : Type*) where
  done : List α
  todo : List α

variable {ι α : Type*}

def Strand.start (xs : List α) : Strand α := ⟨[], xs⟩

def Strand.advance : Strand α → Strand α × List α
  | ⟨done, []⟩ => (⟨done, []⟩, [])
  | ⟨done, x :: xs⟩ => (⟨done ++ [x], xs⟩, [x])

variable [DecidableEq ι]

def interleaving (ι α : Type*) [DecidableEq ι] : Transducer (ι → Strand α) ι α where
  step strands i := (Function.update strands i (strands i).advance.1, (strands i).advance.2)

def startAll (steps : ι → List α) : ι → Strand α := fun i => Strand.start (steps i)

theorem interleaving_outputs_snoc (strands : ι → Strand α) (turns : List ι) (i : ι) :
    (interleaving ι α).outputs strands (turns ++ [i]) =
      (interleaving ι α).outputs strands turns ++
        ((interleaving ι α).after strands turns i).advance.2 := by
  rw [Transducer.outputs_append]
  simp only [Transducer.outputs_cons, Transducer.outputs_nil, List.append_nil]
  rfl

theorem interleaving_after_snoc (strands : ι → Strand α) (turns : List ι) (i : ι) :
    (interleaving ι α).after strands (turns ++ [i]) =
      Function.update ((interleaving ι α).after strands turns) i
        ((interleaving ι α).after strands turns i).advance.1 := by
  rw [Transducer.after_append_singleton]
  rfl

theorem Strand.coe_advance (p : Strand α) :
    (p.advance.2 : Multiset α) + (p.advance.1.todo : Multiset α) = p.todo := by
  obtain ⟨done, todo⟩ := p
  cases todo with
  | nil => rfl
  | cons x xs => rfl

/-- What has come out and what is still to come is what there was to come. -/
theorem interleaving_conserves [Fintype ι] (strands : ι → Strand α) (turns : List ι) :
    ((interleaving ι α).outputs strands turns : Multiset α) +
        ∑ i, (((interleaving ι α).after strands turns i).todo : Multiset α) =
      ∑ i, ((strands i).todo : Multiset α) := by
  induction turns using List.reverseRecOn with
  | nil => simp
  | append_singleton turns i ih =>
    rw [interleaving_outputs_snoc, interleaving_after_snoc, ← ih, ← Multiset.coe_add, add_assoc]
    congr 1
    generalize (interleaving ι α).after strands turns = s
    rw [← Finset.add_sum_erase _ _ (Finset.mem_univ i),
      ← Finset.add_sum_erase Finset.univ (fun j => ((s j).todo : Multiset α)) (Finset.mem_univ i),
      ← add_assoc, Function.update_self, Strand.coe_advance]
    congr 1
    apply Finset.sum_congr rfl
    intro j hj
    rw [Function.update_of_ne (Finset.ne_of_mem_erase hj)]

theorem interleaving_complete [Fintype ι] {steps : ι → List α} {turns : List ι}
    (hdone : ∀ i, ((interleaving ι α).after (startAll steps) turns i).todo = []) :
    ((interleaving ι α).outputs (startAll steps) turns : Multiset α) =
      ∑ i, (steps i : Multiset α) := by
  have h := interleaving_conserves (startAll steps) turns
  simp only [hdone, Multiset.coe_nil, Finset.sum_const_zero, add_zero] at h
  exact h

end IdolGateway
