import IdolGateway.ZbClient.KitchenTimer

namespace IdolGateway.ZbClient

open Procedure

def Input.CtrlUpFrom (id : UInt16) : Input → Prop
  | .frame _ behind rx len => rx 0 = mxjCtrlUp ∧ idOf (memory rx behind) len = id
  | .tick _ => False

theorem occupancy_on (mem : Loc → UInt8) (w : World) (hoff : w.kitchenState = some 0)
    (hh : w.humand ≤ 1) :
    ctrl chufangId 3 1 1 1 ∈ ((occupancyReport 14 xiaomirentiId).run mem w).out := by
  have hstate : ((w.lookup chufangId).map fun j => ((w.beat chufangId).mxjDevice j).state 0) =
      some 0 := by
    simp only [beat_state]
    exact hoff
  unfold occupancyReport
  rw [run_when, if_pos rfl, run_when, if_pos rfl, run_bind_out, run_bind_out, run_findDev,
    run_motionLight, hstate, if_pos ⟨rfl, hh⟩]
  simp

section

variable [JsonC]

def Input.AutoOn (w : World) (x : Input) : Prop :=
  x.Motion ∧ ctrl chufangId 3 1 1 1 ∈ (gateway.step w x).2

/-- In the run `p` from `w₀` a motion frame switched the light on, and since then neither
the main loop switched it off nor the switch of the kitchen reported. -/
def Provoked (w₀ : World) (p : List Input) : Prop :=
  ∃ pre m ys, p = pre ++ m :: ys ∧ m.AutoOn (gateway.after w₀ pre) ∧
    gateway.Along (fun w x => ¬ x.AutoOff w ∧ ¬ x.CtrlUpFrom chufangId)
      (gateway.step (gateway.after w₀ pre) m).1 ys

/-- A motion frame looks its sender up and reports the occupancy; nothing else. -/
theorem run_motionFrame {mem : Loc → UInt8} {len : UInt8} (h : IsMotion mem len) (w : World)
    (now : Tm) : (recieveUsart now len).run mem w =
      (findDev xiaomirentiId >>= fun _ => occupancyReport 14 xiaomirentiId).run mem
        { w with tblock := now } := by
  obtain ⟨hcmd, hid, hcid, hlen⟩ := h
  have hjoin : ∀ i w, (sensorJoin 14 xiaomirentiId 0x406 i).run mem w = ⟨(), w, []⟩ := by
    intro i w
    unfold sensorJoin
    rw [run_when, if_neg (by decide)]
  rw [run_recieveUsart, hcmd, hid, hcid, hlen]
  have hdispatch : dispatch now 14 xiaomirentiId 0x406 mxjXiaomi18 =
      xiaomi18 now 14 xiaomirentiId 0x406 := rfl
  have hreport : xiaomi18 now 14 xiaomirentiId 0x406 =
      findDev xiaomirentiId >>= fun i => sensorJoin 14 xiaomirentiId 0x406 i >>= fun _ =>
        occupancyReport 14 xiaomirentiId := rfl
  rw [hdispatch, hreport, run_bind, run_bind]
  simp only [run_bind, hjoin, List.nil_append]

theorem motion_autoOn {w : World} {x : Input} (hx : x.Motion) (hoff : w.kitchenState = some 0)
    (hh : w.humand ≤ 1) : x.AutoOn w := by
  cases x with
  | tick now => exact hx.elim
  | frame now behind rx len =>
    refine ⟨hx, ?_⟩
    have hrun := run_motionFrame hx w now
    have hlight := occupancy_on (memory rx behind)
      (({ w with tblock := now } : World).beat xiaomirentiId)
      ((World.kitchenState_beat _ _).trans hoff) hh
    simp only [gateway, Input.run, hrun, run_bind_out, run_findDev, List.mem_append]
    exact Or.inr hlight

theorem Provoked.snoc {w₀ : World} {p : List Input} {x : Input} (hp : Provoked w₀ p)
    (hoff : ¬ x.AutoOff (gateway.after w₀ p)) (hup : ¬ x.CtrlUpFrom chufangId) :
    Provoked w₀ (p ++ [x]) := by
  obtain ⟨pre, m, ys, rfl, hon, hquiet⟩ := hp
  refine ⟨pre, m, ys ++ [x], by simp, hon, ?_⟩
  rw [gateway.after_append, gateway.after_cons] at hoff
  rw [gateway.along_append]
  exact ⟨hquiet, ⟨hoff, hup⟩, trivial⟩

/-- The switch of the kitchen stops the timer. -/
theorem humand_ctrlUp {w : World} {x : Input} (hw : w.KeepsFixed) (hx : x.CtrlUpFrom chufangId) :
    (gateway.step w x).1.humand = 0 := by
  cases x with
  | tick now => exact hx.elim
  | frame now behind rx len =>
    obtain ⟨hup, hid⟩ := hx
    have hcmd : memory rx behind (.rx 0) = mxjCtrlUp := hup
    have hmotion : ¬ IsMotion (memory rx behind) len := by
      intro h
      exact absurd (hcmd.symm.trans h.1) (by decide)
    have hlookup : w.lookup chufangId = some 2 := hw.lookup (k := 2) rfl
    have htype : (w.mxjDevice 2).type = 4 := hw.type (k := 2) rfl
    rw [humand_frame, World.humandAfter, if_neg hmotion, if_pos hcmd, hid]
    unfold World.humandOnReport
    rw [hlookup]
    exact if_pos ⟨htype, rfl⟩

theorem provoked_snoc {w₀ : World} {p : List Input} (x : Input)
    (hw : (gateway.after w₀ p).KeepsFixed)
    (hp : 0 < (gateway.after w₀ p).humand → Provoked w₀ p)
    (harmed : 0 < (gateway.after w₀ (p ++ [x])).humand) : Provoked w₀ (p ++ [x]) := by
  rw [gateway.after_append_singleton] at harmed
  have hup : ¬ x.CtrlUpFrom chufangId := by
    intro h
    rw [humand_ctrlUp hw h] at harmed
    omega
  cases x with
  | tick now =>
    have hoff : ¬ (Input.tick now).AutoOff (gateway.after w₀ p) := by
      rw [autoOff_tick_iff]
      intro hone
      rw [humand_tick, hone] at harmed
      simp at harmed
    have hbefore : 0 < (gateway.after w₀ p).humand := by
      by_contra hnot
      rw [humand_tick, if_neg hnot] at harmed
      exact hnot harmed
    exact (hp hbefore).snoc hoff hup
  | frame now behind rx len =>
    by_cases hbefore : 0 < (gateway.after w₀ p).humand
    · exact (hp hbefore).snoc id hup
    · by_cases hx : IsMotion (memory rx behind) len
      · -- the timer was not armed, so the frame found the light off and switched it on
        have hm : (Input.frame now behind rx len).Motion := hx
        rw [humand_motion _ hm, World.humandOnMotion] at harmed
        have hset : (gateway.after w₀ p).kitchenState = some 0 := by
          by_contra hk
          rw [if_neg (by rintro (h | h); exact hk h.1; omega)] at harmed
          exact hbefore harmed
        exact ⟨p, _, [], rfl, motion_autoOn hm hset (by omega), trivial⟩
      · rcases humand_other (gateway.after w₀ p) now behind rx len hx with hsame | hzero
        · omega
        · omega

theorem provoked_of_armed (start : Tm) (p : List Input) :
    0 < (gateway.after (World.started start) p).humand → Provoked (World.started start) p := by
  induction p using List.reverseRecOn with
  | nil =>
    intro harmed
    rw [gateway.after_nil, (timers_started start).1] at harmed
    exact absurd harmed (by decide)
  | append_singleton p x ih =>
    exact provoked_snoc x (keepsFixed_after (keepsFixed_started start) p) ih

/-- Whatever is received and however the main loop runs in between, `humand` stays between
0 and 120, and a round of the loop that switches the light off comes after a motion
frame that switched it on, with no other such round and no report of the switch since. -/
theorem kitchen_off_provoked (start : Tm) (p : List Input) :
    (gateway.after (World.started start) p).HumandInRange ∧
    ∀ now, (Input.tick now).AutoOff (gateway.after (World.started start) p) →
      Provoked (World.started start) p := by
  have hzero := (timers_started start).1
  have hstart : (World.started start).HumandInRange := by
    unfold World.HumandInRange
    omega
  constructor
  · exact Transducer.after_preserves humandInRange_step hstart p
  · intro now hoff
    rw [autoOff_tick_iff] at hoff
    exact provoked_of_armed start p (by omega)

end

/-- A motion frame and 119 rounds; the next one switches the light off. -/
theorem kitchen_off_provoked_first :
    letI := spacedJsonC
    Provoked (World.started march) ([motionFrame] ++ List.replicate 119 (.tick march)) :=
  letI := spacedJsonC
  (kitchen_off_provoked march _).2 march (by
    rw [@autoOff_tick_iff spacedJsonC]
    decide +kernel)

end IdolGateway.ZbClient
