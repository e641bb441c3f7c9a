import IdolGateway.ZbClient.Dispatch

namespace IdolGateway.ZbClient

open Procedure

/-- Channel `c` of a switch takes the value `v`; there are three channels. -/
def reported (c v : UInt8) (s : Fin 3 → UInt8) : Fin 3 → UInt8 :=
  if c = 1 then Function.update s 0 v
  else if c = 2 then Function.update s 1 v
  else if c = 3 then Function.update s 2 v
  else s

/-- The states a `SEND_STATE` frame of `len` bytes stores. -/
def reportedStates (len v₀ v₁ v₂ : UInt8) (s : Fin 3 → UInt8) : Fin 3 → UInt8
  | 0 => if 6 ≤ len then v₀ else s 0
  | 1 => if 6 ≤ len then v₁ else s 1
  | 2 => if 7 ≤ len then v₂ else s 2

def toggled (s : Fin 3 → UInt8) : Fin 3 → UInt8 := Function.update s 0 (1 - s 0)

def World.withStates (w : World) (i : ℕ) (s : Fin 3 → UInt8) : World :=
  { w with mxjDevice := Function.update w.mxjDevice i { w.mxjDevice i with state := s } }

@[simp] theorem withStates_state (w : World) (i : ℕ) (s : Fin 3 → UInt8) :
    ((w.withStates i s).mxjDevice i).state = s := by
  simp [World.withStates]

section

variable (mem : Loc → UInt8) (w : World) (i : ℕ)

theorem guardedStore_state (c : Prop) [Decidable c] (k : Fin 3) (j : ℕ) :
    ((when c (storeRx i k j)).run mem w).state =
      w.withStates i (if c then Function.update (w.mxjDevice i).state k (mem (.rx j))
        else (w.mxjDevice i).state) := by
  rw [run_when]
  by_cases hc : c
  · rw [if_pos hc, if_pos hc]
    rfl
  · rw [if_neg hc, if_neg hc]
    simp [World.withStates]

theorem channelReport_state (c : UInt8) (k : Fin 3) :
    ((channelReport i c k).run mem w).state =
      w.withStates i (if mem (.rx 5) = c then
        Function.update (w.mxjDevice i).state k (mem (.rx 6)) else (w.mxjDevice i).state) := by
  unfold channelReport
  rw [run_cell_bind, guardedStore_state]

/-- What follows the stores of a report leaves the table alone. -/
theorem report_tail [JsonC] (c : Prop) [Decidable c] :
    ((when c (modify fun w => { w with humand := 0 }) >>= fun _ =>
      (buildJson : Handler Unit)).run mem w).state.mxjDevice = w.mxjDevice := by
  rw [run_bind_state, run_when, run_buildJson]
  by_cases hc : c
  · rw [if_pos hc]
    rfl
  · rw [if_neg hc]

/-- The three tests of a switch report exclude each other. -/
theorem switchReport_states [JsonC] (id : UInt16) :
    (((switchReport id i).run mem w).state.mxjDevice i).state =
      reported (mem (.rx 5)) (mem (.rx 6)) (w.mxjDevice i).state := by
  unfold switchReport reported
  rw [run_bind_state, channelReport_state, run_bind_state, channelReport_state, run_bind_state,
    channelReport_state, report_tail]
  simp only [withStates_state]
  by_cases h1 : mem (.rx 5) = 1
  · simp [h1]
  · by_cases h2 : mem (.rx 5) = 2
    · simp [h2]
    · simp [h1, h2]

theorem stateReport_states [JsonC] (len : UInt8) :
    (((stateReport len i).run mem w).state.mxjDevice i).state =
      reportedStates len (mem (.rx 8)) (mem (.rx 9)) (mem (.rx 10)) (w.mxjDevice i).state := by
  have hlen : 5 + linkqualityEnable ≤ len.toNat ↔ 6 ≤ len :=
    (UInt8.le_iff_toNat_le (a := 6) (b := len)).symm
  unfold stateReport
  rw [run_bind_state, guardedStore_state, run_bind_state, guardedStore_state, run_bind_state,
    guardedStore_state, run_buildJson]
  simp only [withStates_state, hlen]
  funext k
  match k with
  | 0 => simp [reportedStates, ite_apply]
  | 1 => simp [reportedStates, ite_apply]
  | 2 => simp [reportedStates, ite_apply]

theorem beat_state (id : UInt16) (j : ℕ) :
    ((w.beat id).mxjDevice j).state = (w.mxjDevice j).state := by
  obtain ⟨h, hj⟩ := w.beat_mxjDevice id j
  rw [hj]

theorem sendState_states [JsonC] (len : UInt8) {id : UInt16} (hi : w.lookup id = some i) :
    (((sendState len id).run mem w).state.mxjDevice i).state =
      reportedStates len (mem (.rx 8)) (mem (.rx 9)) (mem (.rx 10)) (w.mxjDevice i).state := by
  unfold sendState
  rw [run_bind_state, run_findDev, hi]
  exact (stateReport_states mem (w.beat id) i len).trans (by rw [beat_state])

/-- A device found by its id and of type 4 takes over the reported channel; the bedroom
socket is toggled on top of that. -/
theorem ctrlUp_states [JsonC] {id : UInt16} (hi : w.lookup id = some i)
    (htype : (w.mxjDevice i).type = 4) :
    (((ctrlUp id).run mem w).state.mxjDevice i).state =
      if id = powerCiwoId then
        toggled (reported (mem (.rx 5)) (mem (.rx 6)) (w.mxjDevice i).state)
      else reported (mem (.rx 5)) (mem (.rx 6)) (w.mxjDevice i).state := by
  have htype' : ((w.beat id).mxjDevice i).type = 4 := by rw [w.beat_type, htype]
  have hswitch := switchReport_states mem (w.beat id) i id
  rw [beat_state] at hswitch
  unfold ctrlUp
  rw [run_bind_state, run_findDev, hi]
  dsimp only
  rw [run_gets_bind, run_bind_state, run_when, run_when, if_pos htype']
  by_cases hid : id = powerCiwoId
  · rw [if_pos hid, if_pos hid, ← hswitch]
    simp [toggleSocket, toggled, storeState]
  · rw [if_neg hid, if_neg hid, hswitch]

end

end IdolGateway.ZbClient
