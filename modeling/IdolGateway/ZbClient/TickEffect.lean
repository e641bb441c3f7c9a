import IdolGateway.ZbClient.MainLoop

namespace IdolGateway.ZbClient

open Procedure

def World.CheckDue (w : World) : Prop := 7500 ≤ w.flagHour + 1

instance (w : World) : Decidable w.CheckDue := inferInstanceAs (Decidable (_ ≤ _))

def MxjDevice.Silent (d : MxjDevice) : Prop :=
  d.heart = 0 ∧ (d.id = xmloushuiChufangId ∨ d.id = xmloushuiCiwoId)

instance (d : MxjDevice) : Decidable d.Silent := inferInstanceAs (Decidable (_ ∧ _))

def MxjDevice.cleared (d : MxjDevice) : MxjDevice := { d with heart := 0 }

def World.clear (w : World) (is : List ℕ) : World :=
  { w with mxjDevice := fun j => if j ∈ is then (w.mxjDevice j).cleared else w.mxjDevice j }

def World.checkOut (w : World) (i : ℕ) : List Out :=
  if (w.mxjDevice i).Silent then [.post (offlineText (w.mxjDevice i) w.tblock)] else [.store i]

def World.ticked (w : World) (now : Tm) : World where
  mxjDevice := fun j =>
    if w.CheckDue ∧ j < w.devsize.toNat then (w.mxjDevice j).cleared else w.mxjDevice j
  devsize := w.devsize
  humand := if 0 < w.humand then w.humand - 1 else w.humand
  jsonStr := w.jsonStr
  tblock := if w.humand = 1 then now else w.tblock
  flagHour := if w.CheckDue then 0 else w.flagHour + 1

theorem World.ticked_mxjDevice (w : World) (now : Tm) (i : ℕ) :
    ∃ h, (w.ticked now).mxjDevice i = { w.mxjDevice i with heart := h } := by
  by_cases hcheck : w.CheckDue ∧ i < w.devsize.toNat
  · exact ⟨0, by simp [World.ticked, hcheck, MxjDevice.cleared]⟩
  · exact ⟨(w.mxjDevice i).heart, by simp [World.ticked, hcheck]⟩

def World.tickOut (w : World) : List Out :=
  (if w.CheckDue then (List.range w.devsize.toNat).flatMap w.checkOut else []) ++
    (if w.humand = 1 then [ctrl chufangId 3 0 0 0] else [])

theorem World.mem_tickOut (w : World) (o : Out) :
    o ∈ w.tickOut ↔ (w.CheckDue ∧ ∃ i < w.devsize.toNat,
      ((w.mxjDevice i).Silent ∧ o = .post (offlineText (w.mxjDevice i) w.tblock)) ∨
        (¬ (w.mxjDevice i).Silent ∧ o = .store i)) ∨ (w.humand = 1 ∧ o = ctrl chufangId 3 0 0 0) := by
  have hslot : ∀ i, o ∈ w.checkOut i ↔
      ((w.mxjDevice i).Silent ∧ o = .post (offlineText (w.mxjDevice i) w.tblock)) ∨
        (¬ (w.mxjDevice i).Silent ∧ o = .store i) := by
    intro i
    unfold checkOut
    by_cases h : (w.mxjDevice i).Silent
    · simp [h]
    · simp [h]
  unfold tickOut
  rw [List.mem_append]
  apply or_congr
  · by_cases hdue : w.CheckDue
    · simp only [hdue, if_true, true_and, List.mem_flatMap, List.mem_range, hslot]
    · simp [hdue]
  · by_cases h : w.humand = 1
    · simp [h]
    · simp [h]

section

variable (mem : Loc → UInt8) (w : World)

theorem run_checkOffline (i : ℕ) :
    (checkOffline i).run mem w = ⟨(), w.clear [i], w.checkOut i⟩ := by
  have hclear : w.clear [i] =
      { w with mxjDevice := Function.update w.mxjDevice i (w.mxjDevice i).cleared } := by
    unfold World.clear
    congr 1
    funext j
    by_cases hj : j = i
    · subst hj
      simp
    · simp [hj]
  rw [hclear]
  unfold checkOffline World.checkOut
  rw [run_gets_bind, run_ite]
  by_cases h : (w.mxjDevice i).Silent
  · have hsame : (w.mxjDevice i).cleared = w.mxjDevice i := by rw [MxjDevice.cleared, ← h.1]
    rw [if_pos h, if_pos (show _ ∧ _ from h), run_gets_bind, hsame, Function.update_eq_self]
    rfl
  · rw [if_neg h, if_neg (show ¬ (_ ∧ _) from h)]
    rfl

theorem clear_clear {i : ℕ} {is : List ℕ} (hi : i ∉ is) :
    (w.clear [i]).clear is = w.clear (i :: is) := by
  unfold World.clear
  dsimp only
  congr 1
  funext j
  by_cases hj : j = i
  · subst hj
    simp [hi]
  · simp [hj]

/-- Each round of the loop looks at its own slot, which no other round has changed. -/
theorem run_offlineLoop (is : List ℕ) (hnd : is.Nodup) :
    (each checkOffline is).run mem w = ⟨(), w.clear is, is.flatMap w.checkOut⟩ := by
  induction is generalizing w with
  | nil => simp [each, World.clear]
  | cons i is ih =>
    obtain ⟨hi, hnd⟩ := List.nodup_cons.mp hnd
    have hout : is.flatMap (w.clear [i]).checkOut = is.flatMap w.checkOut := by
      apply List.flatMap_congr
      intro k hk
      have hki : k ≠ i := fun h => hi (h ▸ hk)
      simp [World.checkOut, World.clear, hki]
    rw [each, run_bind, run_checkOffline]
    dsimp only
    rw [ih _ hnd, clear_clear w hi, hout]
    rfl

theorem run_offlineChecks :
    offlineChecks.run mem w =
      ⟨(), ({ w with flagHour := 0 } : World).clear (List.range w.devsize.toNat),
        (List.range w.devsize.toNat).flatMap w.checkOut⟩ := by
  unfold offlineChecks
  rw [run_bind, run_modify]
  dsimp only
  rw [run_gets_bind, run_offlineLoop _ _ _ List.nodup_range]
  rfl

theorem run_tick (now : Tm) : (tick now).run mem w = ⟨(), w.ticked now, w.tickOut⟩ := by
  have hcheck : ({ w with flagHour := w.flagHour + 1 } : World).checkOut = w.checkOut := rfl
  unfold tick World.ticked World.tickOut
  rw [run_bind, run_modify]
  dsimp only
  rw [run_gets_bind, run_bind, run_when, run_offlineChecks, hcheck]
  by_cases hdue : w.CheckDue
  · simp only [if_pos (show 7500 ≤ w.flagHour + 1 from hdue), run_bind, run_when]
    by_cases h1 : w.humand = 1
    · simp [h1, hdue, World.clear]
    · by_cases hpos : 0 < w.humand
      · simp [h1, hpos, hdue, World.clear]
      · simp [h1, hpos, hdue, World.clear]
  · simp only [if_neg (show ¬ 7500 ≤ w.flagHour + 1 from hdue), run_bind, run_when]
    by_cases h1 : w.humand = 1
    · simp [h1, hdue]
    · by_cases hpos : 0 < w.humand
      · simp [h1, hpos, hdue]
      · simp [h1, hpos, hdue]

end

end IdolGateway.ZbClient
