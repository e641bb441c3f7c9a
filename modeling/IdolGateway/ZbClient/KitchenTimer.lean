import IdolGateway.ZbClient.Entries
import IdolGateway.ZbClient.JsonFresh

namespace IdolGateway.ZbClient

open Procedure

def Input.isTick : Input → Bool
  | .frame _ _ _ _ => false
  | .tick _ => true

def ticks (xs : List Input) : ℕ := xs.countP Input.isTick

theorem ticks_append_singleton (xs : List Input) (x : Input) :
    ticks (xs ++ [x]) = ticks xs + if x.isTick then 1 else 0 := by
  unfold ticks
  rw [List.countP_append, List.countP_singleton]

def Input.Motion : Input → Prop
  | .frame _ behind rx len => IsMotion (memory rx behind) len
  | .tick _ => False

instance (x : Input) : Decidable x.Motion :=
  match x with
  | .frame _ _ _ _ => inferInstanceAs (Decidable (IsMotion _ _))
  | .tick _ => inferInstanceAs (Decidable False)

section

variable [JsonC]

def Input.AutoOff (w : World) : Input → Prop
  | .frame _ _ _ _ => False
  | .tick now => ctrl chufangId 3 0 0 0 ∈ (gateway.step w (.tick now)).2

/-- A motion frame that finds the timer armed, or arms it. -/
def Input.Counts (w : World) (x : Input) : Prop :=
  x.Motion ∧ (0 < w.humand ∨ 0 < (gateway.step w x).1.humand)

instance (w : World) (x : Input) : Decidable (x.Counts w) := inferInstanceAs (Decidable (_ ∧ _))

theorem humand_frame (w : World) (now : Tm) (behind rx : ℕ → UInt8) (len : UInt8) :
    (gateway.step w (.frame now behind rx len)).1.humand = w.humandAfter (memory rx behind) len :=
  (frame_settled _ len w now).humand

theorem autoOff_tick_iff (w : World) (now : Tm) :
    (Input.tick now).AutoOff w ↔ w.humand = 1 := by
  unfold Input.AutoOff
  dsimp only
  rw [step_tick, w.mem_tickOut]
  simp [ctrl]

theorem humand_motion (w : World) {x : Input} (hx : x.Motion) :
    (gateway.step w x).1.humand = w.humandOnMotion := by
  cases x with
  | frame now behind rx len => exact (humand_frame w now behind rx len).trans (if_pos hx)
  | tick now => exact hx.elim

/-- A frame of any other kind keeps the count or stops the timer. -/
theorem humand_other (w : World) (now : Tm) (behind rx : ℕ → UInt8) (len : UInt8)
    (hx : ¬ IsMotion (memory rx behind) len) :
    (gateway.step w (.frame now behind rx len)).1.humand = w.humand ∨
      (gateway.step w (.frame now behind rx len)).1.humand = 0 := by
  rw [humand_frame, World.humandAfter, if_neg hx]
  split_ifs with hup
  · unfold World.humandOnReport
    cases w.lookup (idOf (memory rx behind) len) with
    | none => exact Or.inl rfl
    | some i =>
      dsimp only
      split_ifs
      · exact Or.inr rfl
      · exact Or.inl rfl
  · exact Or.inl rfl

theorem humand_tick (w : World) (now : Tm) :
    (gateway.step w (.tick now)).1.humand = if 0 < w.humand then w.humand - 1 else w.humand := by
  rw [step_tick]
  rfl

def World.HumandInRange (w : World) : Prop := 0 ≤ w.humand ∧ w.humand ≤ 120

theorem humandInRange_step (w : World) (x : Input) (hw : w.HumandInRange) :
    (gateway.step w x).1.HumandInRange := by
  unfold World.HumandInRange at *
  by_cases hx : x.Motion
  · rw [humand_motion w hx, World.humandOnMotion]
    split_ifs
    · omega
    · exact hw
  · cases x with
    | frame now behind rx len =>
      rcases humand_other w now behind rx len hx with hsame | hzero
      · rw [hsame]
        exact hw
      · omega
    | tick now =>
      rw [humand_tick]
      split_ifs
      · omega
      · exact hw

/-- At a round of the loop after the inputs `p`, the light is switched off exactly when
the timer is armed and 119 rounds have passed since the last motion frame that counts. -/
def OffOnTime (start : Tm) (p : List Input) (now : Tm) : Prop :=
  (Input.tick now).AutoOff (gateway.after (World.started start) p) ↔
    0 < (gateway.after (World.started start) p).humand ∧
      (gateway.since (fun w x => x.Counts w) (World.started start) p).map ticks = some 119

/-- A motion frame falls on the last second of the timer and finds the light on. -/
def Input.MissesTimer (w : World) (x : Input) : Prop :=
  x.Motion ∧ w.humand = 1 ∧ w.kitchenState ≠ some 0

instance (w : World) (x : Input) : Decidable (x.MissesTimer w) :=
  inferInstanceAs (Decidable (_ ∧ _))

/-- While the timer is armed it counts the rounds since the last motion frame. -/
def Timed (w : World) (rounds : Option ℕ) : Prop :=
  0 < w.humand → ∃ n, rounds = some n ∧ w.humand = 120 - n

theorem timed_motion {w : World} {x : Input} {rounds : Option ℕ} (hx : x.Motion)
    (hmiss : ¬ x.MissesTimer w) :
    Timed (gateway.step w x).1 (if x.Counts w then some 0 else rounds) := by
  have hstep := humand_motion w hx
  unfold World.humandOnMotion at hstep
  intro harmed
  have hcounts : x.Counts w := ⟨hx, Or.inr harmed⟩
  by_cases hset : (w.kitchenState = some 0 ∧ w.humand ≤ 1) ∨ 1 < w.humand
  · rw [if_pos hset] at hstep
    rw [if_pos hcounts]
    exact ⟨0, rfl, by omega⟩
  · -- an armed timer that the frame does not set is at its last second
    rw [if_neg hset] at hstep
    have hone : w.humand = 1 := by omega
    exact absurd ⟨hx, hone, fun hk => hset (Or.inl ⟨hk, by omega⟩)⟩ hmiss

theorem timed_other {w : World} {x : Input} {rounds : Option ℕ} (hw : Timed w rounds)
    (hx : ¬ x.Motion) :
    Timed (gateway.step w x).1 (rounds.map (· + if x.isTick then 1 else 0)) := by
  intro harmed
  cases x with
  | frame now behind rx len =>
    rcases humand_other w now behind rx len hx with hsame | hzero
    · rw [hsame] at harmed ⊢
      obtain ⟨n, hn, hcount⟩ := hw harmed
      exact ⟨n, by simp [hn, Input.isTick], hcount⟩
    · omega
  | tick now =>
    rw [humand_tick] at harmed ⊢
    have hbefore : 0 < w.humand := by
      by_contra hnot
      rw [if_neg hnot] at harmed
      exact hnot harmed
    obtain ⟨n, hn, hcount⟩ := hw hbefore
    rw [if_pos hbefore]
    exact ⟨n + 1, by simp [hn, Input.isTick], by push_cast; omega⟩

theorem timed_step {w : World} {x : Input} {rounds : Option ℕ} (hw : Timed w rounds)
    (hmiss : ¬ x.MissesTimer w) :
    Timed (gateway.step w x).1
      (if x.Counts w then some 0 else rounds.map (· + if x.isTick then 1 else 0)) := by
  by_cases hx : x.Motion
  · have hframe : x.isTick = false := by
      cases x with
      | frame _ _ _ _ => rfl
      | tick _ => exact hx.elim
    have hsame : (rounds.map (· + if x.isTick then 1 else 0)) = rounds := by
      simp [hframe]
    rw [hsame]
    exact timed_motion hx hmiss
  · have hcounts : ¬ x.Counts w := fun h => hx h.1
    rw [if_neg hcounts]
    exact timed_other hw hx

theorem timed_after (start : Tm) {p : List Input}
    (hp : gateway.Along (fun w x => ¬ x.MissesTimer w) (World.started start) p) :
    Timed (gateway.after (World.started start) p)
      ((gateway.since (fun w x => x.Counts w) (World.started start) p).map ticks) := by
  refine Transducer.run_induction (Q := fun p => Timed (gateway.after (World.started start) p)
    ((gateway.since (fun w x => x.Counts w) (World.started start) p).map ticks)) ?_ ?_ hp
  · have hzero := (timers_started start).1
    intro harmed
    simp [hzero] at harmed
  · intro xs x hxs hmiss
    have hnext := timed_step hxs hmiss
    rw [gateway.after_append_singleton, gateway.since_append_singleton, apply_ite (Option.map ticks),
      Option.map_map]
    have hticks : ticks ∘ (· ++ [x]) = (· + if x.isTick then 1 else 0) ∘ ticks := by
      funext ys
      exact ticks_append_singleton ys x
    rw [hticks, ← Option.map_map]
    exact hnext

/-- As long as no motion frame falls on the last second of the timer while the light is
reported as on, the automatic off command comes with the 120th round since the last
motion frame that armed the timer or found it armed, and at no other time. -/
theorem kitchen_off_on_time (start : Tm) (p : List Input)
    (hp : gateway.Along (fun w x => ¬ x.MissesTimer w) (World.started start) p) (now : Tm) :
    OffOnTime start p now := by
  have htimed := timed_after start hp
  unfold OffOnTime
  rw [autoOff_tick_iff]
  constructor
  · intro hone
    obtain ⟨n, hn, hcount⟩ := htimed (by omega)
    refine ⟨by omega, ?_⟩
    rw [hn]
    congr 1
    omega
  · intro ⟨hpos, hrounds⟩
    obtain ⟨n, hn, hcount⟩ := htimed hpos
    rw [hrounds, Option.some_inj] at hn
    omega

end

def motionFrame : Input :=
  received [mxjXiaomi18, 13, 0x3b, 0x6b, 0x04, 0x06, 0, 0, 0, 0, 0, 0, 1, 0]

def kitchenOnFrame : Input := received [mxjSendState, 9, 0x8d, 0xc0, 0, 0, 0, 0, 1, 0]

/-- A motion frame, 118 rounds, a motion frame, 119 rounds. -/
theorem kitchen_off_on_time_twice :
    letI := spacedJsonC
    OffOnTime march ([motionFrame] ++ List.replicate 118 (.tick march) ++ [motionFrame] ++
      List.replicate 119 (.tick march)) march :=
  letI := spacedJsonC
  kitchen_off_on_time march _ (by decide +kernel) march

/-- A motion frame on the last second, with the light reported as on, does not put the
off command off. -/
theorem kitchen_off_too_early :
    letI := spacedJsonC
    ¬ OffOnTime march ([motionFrame] ++ List.replicate 119 (.tick march) ++
      [kitchenOnFrame, motionFrame]) march := by
  intro h
  unfold OffOnTime at h
  rw [@autoOff_tick_iff spacedJsonC] at h
  revert h
  decide +kernel

end IdolGateway.ZbClient
