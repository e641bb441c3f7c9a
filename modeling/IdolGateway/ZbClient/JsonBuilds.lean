import IdolGateway.ZbClient.JsonFresh
import IdolGateway.ZbClient.Joins

namespace IdolGateway.ZbClient

open Procedure

section Text

variable {mem : Loc → UInt8} (text : String)

theorem text_onOffReport (now : Tm) (len : UInt8) (id : UInt16) :
    Triple mem (fun w => w.jsonStr = text) (onOffReport now len id) fun _ w => w.jsonStr = text := by
  apply Triple.when
  · intro _
    refine (Triple.cell _).bind fun kick => ?_
    by_cases hkick : kick = 0x20
    · rw [if_pos hkick]
      exact fun _ hw => hw
    · rw [if_neg hkick]
      exact (Triple.cell _).bind fun _ => fun _ hw => hw
  · exact fun _ _ hw => hw

theorem text_occupancyReport (len : UInt8) (id : UInt16) :
    Triple mem (fun w => w.jsonStr = text) (occupancyReport len id) fun _ w => w.jsonStr = text := by
  intro w hw
  have hlight : ∀ j (v : World), ((motionLight j).run mem v).state.jsonStr = v.jsonStr := by
    intro j v
    rw [run_motionLight]
    split_ifs
    · rfl
    · rfl
  unfold occupancyReport
  rw [run_when, run_when]
  split_ifs
  · rw [run_bind_state, run_findDev, run_bind_state, run_gets_bind, run_when]
    split_ifs
    · exact (hlight _ _).trans hw
    · exact (hlight _ _).trans hw
  · exact hw
  · exact hw

theorem text_measureReport (len : UInt8) :
    Triple mem (fun w => w.jsonStr = text) (measureReport len) fun _ w => w.jsonStr = text :=
  Triple.when (fun _ => (Triple.cell _).bind fun _ => (Triple.cell _).bind fun _ => fun _ hw => hw)
    fun _ _ hw => hw

end Text

theorem text_toggleSocket (c : Prop) [Decidable c] (mem : Loc → UInt8) (i : ℕ) (w : World) :
    ((when c (toggleSocket i)).run mem w).state.jsonStr = w.jsonStr := by
  rw [run_when]
  split_ifs
  · rfl
  · rfl

section

variable [JsonC]

/-- The globals when `build_json` returns, if the step runs it. -/
def Input.built (w : World) : Input → Option World
  | .frame now behind rx len =>
    let mem := memory rx behind
    let id := idOf mem len
    let found := ({ w with tblock := now } : World).beat id
    if rx 0 = mxjCtrlUp then
      match w.lookup id with
      | some i =>
        if (w.mxjDevice i).type = 4 then some ((switchReport id i).run mem found).state else none
      | none => none
    else if rx 0 = mxjSendState then
      match w.lookup id with
      | some i => some ((stateReport len i).run mem found).state
      | none => none
    else if w.joinType mem len ≠ none then some ((recieveUsart now len).run mem w).state
    else none
  | .tick _ => none

theorem text_xiaomi18 {mem : Loc → UInt8} {len : UInt8} {w : World}
    (hcmd : mem (.rx 0) = mxjXiaomi18) (hjoin : w.joinType mem len = none) (now : Tm) :
    ((xiaomi18 now len (idOf mem len) (cidOf mem len)).run mem w).state.jsonStr = w.jsonStr := by
  unfold xiaomi18
  rw [run_bind_state, run_findDev, run_bind_state, run_sensorJoin mem _ len _ _ hcmd,
    ← World.joinType, hjoin]
  dsimp only
  split_ifs
  · exact text_onOffReport w.jsonStr now len _ _ rfl
  · exact text_occupancyReport w.jsonStr len _ _ rfl
  · exact text_measureReport w.jsonStr len _ rfl
  · exact text_measureReport w.jsonStr len _ rfl
  · rfl

theorem text_other {mem : Loc → UInt8} {len : UInt8} {w : World} (hup : mem (.rx 0) ≠ mxjCtrlUp)
    (hsend : mem (.rx 0) ≠ mxjSendState) (hjoin : w.joinType mem len = none) (now : Tm) :
    ((recieveUsart now len).run mem w).state.jsonStr = w.jsonStr := by
  rw [run_recieveUsart]
  unfold dispatch
  rw [if_neg hup, if_neg hsend]
  split_ifs with hreg hget h18 h1c
  · rfl
  · rfl
  · exact text_xiaomi18 (w := { w with tblock := now }) h18 hjoin now
  · rw [run_bind_state, run_findDev]
    rfl
  · rfl

theorem text_ctrlUp (mem : Loc → UInt8) (id : UInt16) (w : World) :
    ((ctrlUp id).run mem w).state.jsonStr =
      match w.lookup id with
      | some i =>
        if (w.mxjDevice i).type = 4 then ((switchReport id i).run mem (w.beat id)).state.jsonStr
        else w.jsonStr
      | none => w.jsonStr := by
  unfold ctrlUp
  rw [run_bind_state, run_findDev]
  cases w.lookup id with
  | none => rfl
  | some i =>
    dsimp only
    rw [run_gets_bind, w.beat_type, run_bind_state, text_toggleSocket, run_when]
    split_ifs
    · rfl
    · rfl

theorem step_jsonStr (w : World) (x : Input) :
    (gateway.step w x).1.jsonStr = ((x.built w).map World.jsonStr).getD w.jsonStr := by
  cases x with
  | tick now =>
    rw [step_tick]
    rfl
  | frame now behind rx len =>
    have hstep : (gateway.step w (.frame now behind rx len)).1 =
        ((recieveUsart now len).run (memory rx behind) w).state := rfl
    have hlookup : ∀ id, ({ w with tblock := now } : World).lookup id = w.lookup id := fun _ => rfl
    rw [hstep]
    unfold Input.built
    dsimp only
    by_cases hup : rx 0 = mxjCtrlUp
    · have hcmd : dispatch now len (idOf (memory rx behind) len) (cidOf (memory rx behind) len)
          (memory rx behind (.rx 0)) = ctrlUp (idOf (memory rx behind) len) := if_pos hup
      rw [run_recieveUsart, hcmd, text_ctrlUp, hlookup, if_pos hup]
      cases w.lookup (idOf (memory rx behind) len) with
      | none => rfl
      | some i =>
        dsimp only
        split_ifs
        · rfl
        · rfl
    · by_cases hsend : rx 0 = mxjSendState
      · have hcmd : dispatch now len (idOf (memory rx behind) len) (cidOf (memory rx behind) len)
            (memory rx behind (.rx 0)) = sendState len (idOf (memory rx behind) len) := by
          have hvalue : memory rx behind (.rx 0) = mxjSendState := hsend
          rw [hvalue]
          rfl
        rw [run_recieveUsart, hcmd, if_neg hup, if_pos hsend, sendState, run_bind_state,
          run_findDev, hlookup]
        cases w.lookup (idOf (memory rx behind) len) with
        | none => rfl
        | some i => rfl
      · rw [if_neg hup, if_neg hsend]
        by_cases hjoin : w.joinType (memory rx behind) len = none
        · rw [if_neg (not_not.mpr hjoin)]
          exact text_other hup hsend hjoin now
        · rw [if_pos hjoin]
          rfl

variable {w v : World} {now : Tm} {behind rx : ℕ → UInt8} {len : UInt8}

/-- A report of a device found, or a join. -/
theorem built_cases (hv : v ∈ (Input.frame now behind rx len).built w) :
    (∃ i, rx 0 = mxjCtrlUp ∧ v = ((switchReport (idOf (memory rx behind) len) i).run
        (memory rx behind) (({ w with tblock := now } : World).beat
          (idOf (memory rx behind) len))).state) ∨
    (∃ i, rx 0 = mxjSendState ∧ v = ((stateReport len i).run (memory rx behind)
        (({ w with tblock := now } : World).beat (idOf (memory rx behind) len))).state) ∨
    (w.joinType (memory rx behind) len ≠ none ∧
      v = ((recieveUsart now len).run (memory rx behind) w).state) := by
  unfold Input.built at hv
  dsimp only at hv
  split_ifs at hv with hup hsend hjoin
  · cases hlookup : w.lookup (idOf (memory rx behind) len) with
    | none => simp [hlookup] at hv
    | some i =>
      simp only [hlookup] at hv
      split_ifs at hv
      · exact Or.inl ⟨i, hup, (Option.some_inj.mp hv).symm⟩
      · exact absurd hv (by simp)
  · cases hlookup : w.lookup (idOf (memory rx behind) len) with
    | none => simp [hlookup] at hv
    | some i =>
      simp only [hlookup] at hv
      exact Or.inr (Or.inl ⟨i, hsend, (Option.some_inj.mp hv).symm⟩)
  · exact Or.inr (Or.inr ⟨hjoin, (Option.some_inj.mp hv).symm⟩)
  · exact absurd hv (by simp)

theorem join_built (hjoin : w.joinType (memory rx behind) len ≠ none) :
    ((recieveUsart now len).run (memory rx behind) w).state ∈
      (Input.frame now behind rx len).built w := by
  have h18 : rx 0 = mxjXiaomi18 := by
    by_contra hne
    exact hjoin (w.joinType_of_ne (memory rx behind) len hne)
  have hup : rx 0 ≠ mxjCtrlUp := by
    rw [h18]
    decide
  have hsend : rx 0 ≠ mxjSendState := by
    rw [h18]
    decide
  unfold Input.built
  dsimp only
  rw [if_neg hup, if_neg hsend, if_pos hjoin]
  rfl

theorem step_built {x : Input} (hx : x.Joins w) : (gateway.step w x).1 ∈ x.built w := by
  cases x with
  | tick now => exact hx.elim
  | frame now behind rx len => exact join_built hx

theorem built_fresh (hv : v ∈ (Input.frame now behind rx len).built w) : v.Fresh := by
  rcases built_cases hv with ⟨i, -, rfl⟩ | ⟨i, -, rfl⟩ | ⟨hjoin, rfl⟩
  · exact fresh_switchReport _ i (fun _ => True) _ trivial
  · exact fresh_stateReport len i (fun _ => True) _ trivial
  · obtain ⟨type, htype⟩ := Option.ne_none_iff_exists'.mp hjoin
    rw [run_join htype]
    exact fresh_appendSensor _ type (fun _ => True) _ trivial

theorem built_settled (hv : v ∈ (Input.frame now behind rx len).built w) :
    ∃ h, (w.heard (memory rx behind) len).Settled h v := by
  have hclock : ∀ {id : UInt16} {h : ℤ} {v : World},
      (({ w with tblock := now } : World).beat id).Settled h v → (w.beat id).Settled h v :=
    fun hs => ⟨hs.slot, hs.devsize, hs.flagHour, hs.humand⟩
  rcases built_cases hv with ⟨i, hup, rfl⟩ | ⟨i, hsend, rfl⟩ | ⟨-, rfl⟩
  · have hcmd : memory rx behind (.rx 0) = mxjCtrlUp := hup
    have hlooks : LooksUp (memory rx behind (.rx 0)) := Or.inl hcmd
    rw [w.heard_of_ne _ _ (by rw [hcmd]; decide), if_pos hlooks]
    exact ⟨_, hclock (settled_switchReport _ i _ (.refl _))⟩
  · have hcmd : memory rx behind (.rx 0) = mxjSendState := hsend
    have hlooks : LooksUp (memory rx behind (.rx 0)) := Or.inr (Or.inl hcmd)
    rw [w.heard_of_ne _ _ (by rw [hcmd]; decide), if_pos hlooks]
    exact ⟨_, hclock (settled_stateReport len i _ (.refl _))⟩
  · exact ⟨_, frame_settled _ len w now⟩

end

end IdolGateway.ZbClient
