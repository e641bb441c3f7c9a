import IdolGateway.Library.Transducer
import Mathlib.Data.Set.Insert
import Mathlib.Data.UInt
import Mathlib.Logic.Function.Basic

namespace IdolGateway.Brower

variable {κ : Type}

structure Update (κ : Type) where
  channel : κ
  posted : ℤ

structure Command (κ : Type) where
  channel : κ
  byte : UInt8

def Update.Known (u : Update κ) (s : κ → UInt8) : Prop := ((s u.channel).toNat : ℤ) = u.posted

instance (u : Update κ) (s : κ → UInt8) : Decidable (u.Known s) :=
  inferInstanceAs (Decidable (_ = _))

/-- What a light makes of a byte; `other` says it for those that are no command. -/
def obey (other : UInt8 → Bool → Bool) (m : UInt8) (b : Bool) : Bool :=
  if m = 0 then false else if m = 1 then true else if m = 2 then b else if m = 3 then !b
  else other m b

/-- The stored bytes are the lights. -/
def InStep (D : Set κ) (s : κ → UInt8) (l : κ → Bool) : Prop := ∀ k ∈ D, s k = (l k).toUInt8

/-- A stored 0 or 1 shows the light. -/
def Shows (D : Set κ) (s : κ → UInt8) (l : κ → Bool) : Prop :=
  ∀ k ∈ D, s k ≤ 1 → s k = (l k).toUInt8

variable {other : UInt8 → Bool → Bool} {D : Set κ} {s : κ → UInt8} {l : κ → Bool}

theorem toUInt8_le (b : Bool) : b.toUInt8 ≤ 1 := by
  cases b with
  | false => decide
  | true => decide

theorem inStep_iff : InStep D s l ↔ Shows D s l ∧ ∀ k ∈ D, s k ≤ 1 := by
  constructor
  · intro h
    refine ⟨fun k hk _ => h k hk, ?_⟩
    intro k hk
    rw [h k hk]
    exact toUInt8_le _
  · intro h k hk
    exact h.1 k hk (h.2 k hk)

variable [DecidableEq κ]

def store : Transducer (κ → UInt8) (Update κ) (Command κ) where
  step s u :=
    if u.Known s then (s, [])
    else (Function.update s u.channel (UInt8.ofInt u.posted),
      [⟨u.channel, UInt8.ofInt u.posted⟩])

def hear (other : UInt8 → Bool → Bool) (l : κ → Bool) : List (Command κ) → κ → Bool
  | [] => l
  | c :: cs => hear other (Function.update l c.channel (obey other c.byte (l c.channel))) cs

/-- The last value posted for a channel. -/
def lastPosted (k : κ) : List (Update κ) → Option ℤ
  | [] => none
  | u :: us => (lastPosted k us).or (if u.channel = k then some u.posted else none)

theorem le_one_cases {n : UInt8} (hn : n ≤ 1) : n = 0 ∨ n = 1 := by
  have hn' : n.toNat ≤ 1 := UInt8.le_iff_toNat_le.mp hn
  rcases Nat.le_one_iff_eq_zero_or_eq_one.mp hn' with h | h
  · exact Or.inl (UInt8.toNat_inj.mp h)
  · exact Or.inr (UInt8.toNat_inj.mp h)

theorem toUInt8_obey {n : UInt8} (hn : n ≤ 1) (b : Bool) : (obey other n b).toUInt8 = n := by
  rcases le_one_cases hn with rfl | rfl
  · rfl
  · rfl

theorem ofInt_toNat (n : UInt8) : UInt8.ofInt (n.toNat : ℤ) = n := by
  apply UInt8.toNat_inj.mp
  have hn := n.toNat_lt
  simp only [UInt8.ofInt, UInt8.toNat_ofNat']
  omega

theorem hear_append (l : κ → Bool) (cs cs' : List (Command κ)) :
    hear other l (cs ++ cs') = hear other (hear other l cs) cs' := by
  induction cs generalizing l with
  | nil => rfl
  | cons c cs ih => exact ih _

theorem step_known {s : κ → UInt8} {u : Update κ} (h : u.Known s) : store.step s u = (s, []) :=
  if_pos h

theorem step_new {s : κ → UInt8} {u : Update κ} (h : ¬ u.Known s) :
    store.step s u = (Function.update s u.channel (UInt8.ofInt u.posted),
      [⟨u.channel, UInt8.ofInt u.posted⟩]) :=
  if_neg h

theorem outputs_known {s : κ → UInt8} {us : List (Update κ)} (h : ∀ u ∈ us, u.Known s) :
    store.outputs s us = [] := by
  induction us with
  | nil => rfl
  | cons u us ih =>
    rw [List.forall_mem_cons] at h
    rw [Transducer.outputs_cons, step_known h.1]
    exact ih h.2

theorem store_step (s : κ → UInt8) (u : Update κ) :
    (store.step s u).1 = Function.update s u.channel (UInt8.ofInt u.posted) := by
  by_cases h : u.Known s
  · rw [step_known h, ← h, ofInt_toNat, Function.update_eq_self]
  · rw [step_new h]

theorem store_after (s : κ → UInt8) (us : List (Update κ)) (k : κ) :
    store.after s us k = ((lastPosted k us).map UInt8.ofInt).getD (s k) := by
  induction us generalizing s with
  | nil => rfl
  | cons u us ih =>
    rw [Transducer.after_cons, ih, store_step, lastPosted]
    cases lastPosted k us with
    | some v => rfl
    | none =>
      rw [Option.none_or]
      by_cases hk : u.channel = k
      · subst hk
        rw [if_pos rfl]
        exact Function.update_self _ _ _
      · rw [if_neg hk]
        exact Function.update_of_ne (Ne.symm hk) _ _

theorem shows_step (h : Shows D s l) (u : Update κ) :
    Shows D (store.step s u).1 (hear other l (store.step s u).2) := by
  by_cases hknown : u.Known s
  · rw [step_known hknown]
    exact h
  · rw [step_new hknown]
    intro k hk hle
    dsimp only [hear] at hle ⊢
    by_cases heq : k = u.channel
    · subst heq
      rw [Function.update_self] at hle
      rw [Function.update_self, Function.update_self, toUInt8_obey hle]
    · rw [Function.update_of_ne heq] at hle
      rw [Function.update_of_ne heq, Function.update_of_ne heq]
      exact h k hk hle

theorem shows_after (h : Shows D s l) (us : List (Update κ)) :
    Shows D (store.after s us) (hear other l (store.outputs s us)) := by
  induction us generalizing s l with
  | nil => exact h
  | cons u us ih =>
    rw [Transducer.after_cons, Transducer.outputs_cons, hear_append]
    exact ih (shows_step h u)

/-- Lights in step stay in step exactly if each value posted last is, in its lowest byte,
off or on. -/
theorem inStep_after_iff (h : InStep D s l) (us : List (Update κ)) :
    InStep D (store.after s us) (hear other l (store.outputs s us)) ↔
      ∀ k ∈ D, ∀ v, lastPosted k us = some v → UInt8.ofInt v ≤ 1 := by
  rw [inStep_iff, and_iff_right (shows_after (inStep_iff.mp h).1 us)]
  apply forall₂_congr
  intro k hk
  rw [store_after]
  cases lastPosted k us with
  | none =>
    refine iff_of_true ((inStep_iff.mp h).2 k hk) ?_
    intro v hv
    exact absurd hv.symm (Option.some_ne_none v)
  | some v =>
    constructor
    · intro hle v' hv'
      rwa [← Option.some.inj hv']
    · intro hle
      exact hle v rfl

end IdolGateway.Brower
