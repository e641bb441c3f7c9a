import IdolGateway.ZbClient.JsonBuilds

namespace IdolGateway.ZbClient

open Procedure

def World.Named (w : World) : Prop := ∀ i < w.devsize.toNat, (w.mxjDevice i).name ≠ none

def World.BlankBehind (w : World) : Prop := ∀ i, w.devsize.toNat ≤ i → (w.mxjDevice i).name = none

/-- A join adds a device to the table. -/
def Input.Lists (w : World) (x : Input) : Prop := x.Joins w ∧ w.devsize.toNat < devSize

instance (w : World) (x : Input) : Decidable (x.Lists w) := inferInstanceAs (Decidable (_ ∧ _))

/-- If the step runs `build_json`, every device has a name at that moment. -/
def Input.BuildsNamed [JsonC] (w : World) (x : Input) : Prop := ∀ v ∈ x.built w, v.Named

section

variable (mem : Loc → UInt8) (len : UInt8) (w : World)

theorem name_heard (i : ℕ) : ((w.heard mem len).mxjDevice i).name = (w.mxjDevice i).name := by
  have hbeat : ∀ (v : World) (id : UInt16), ((v.beat id).mxjDevice i).name = (v.mxjDevice i).name := by
    intro v id
    obtain ⟨h, hi⟩ := v.beat_mxjDevice id i
    rw [hi]
  have hjoined : ∀ id type, ((w.joined id type).mxjDevice i).name = (w.mxjDevice i).name := by
    intro id type
    by_cases hi : i = w.devsize.toNat
    · simp [World.joined, hi]
    · simp [World.joined, hi]
  unfold World.heard
  split_ifs
  · cases w.joinType mem len with
    | some type => exact hjoined _ type
    | none => exact (hbeat _ _).trans (hbeat _ _)
  · cases w.joinType mem len with
    | some type => exact hjoined _ type
    | none => exact hbeat _ _
  · rfl

theorem devsize_heard :
    (w.heard mem len).devsize =
      if w.joinType mem len ≠ none ∧ w.devsize.toNat < devSize then w.devsize + 1
      else w.devsize := by
  unfold World.heard
  by_cases hlooks : LooksUp (mem (.rx 0))
  · rw [if_pos hlooks]
    cases w.joinType mem len with
    | some type => simp [World.joined]
    | none =>
      dsimp only
      split_ifs <;> simp_all
  · have hne : mem (.rx 0) ≠ mxjXiaomi18 := fun h => hlooks (Or.inr (Or.inr (Or.inl h)))
    simp [hlooks, w.joinType_of_ne mem len hne]

end

theorem blankBehind_setup (fs : List FixedDevice) (w : World) (hw : w.BlankBehind)
    (hroom : w.devsize.toNat + fs.length ≤ devSize) :
    (fs.foldl World.appended w).BlankBehind := by
  induction fs generalizing w with
  | nil => exact hw
  | cons f fs ih =>
    rw [List.length_cons] at hroom
    have hsize : (w.appended f).devsize.toNat = w.devsize.toNat + 1 :=
      devsize_appended f (by omega)
    apply ih
    · intro i hi
      have hne : i ≠ w.devsize.toNat := by omega
      simp only [World.appended, ne_eq, hne, not_false_eq_true, Function.update_of_ne]
      exact hw i (by omega)
    · omega

/-- Frames that list no new device keep the names and the size of the table. -/
theorem named_settled {w v : World} {mem : Loc → UInt8} {len : UInt8} {h : ℤ}
    (hlists : ¬ (w.joinType mem len ≠ none ∧ w.devsize.toNat < devSize))
    (hv : (w.heard mem len).Settled h v) :
    v.devsize = w.devsize ∧ ∀ i, (v.mxjDevice i).name = (w.mxjDevice i).name := by
  constructor
  · rw [hv.devsize, devsize_heard, if_neg hlists]
  · intro i
    obtain ⟨s, hs⟩ := hv.slot i
    rw [hs]
    exact name_heard mem len w i

theorem not_named_of_join {w v : World} {mem : Loc → UInt8} {len : UInt8} {h : ℤ}
    (hw : w.BlankBehind) (hjoin : w.joinType mem len ≠ none) (hroom : w.devsize.toNat < devSize)
    (hv : (w.heard mem len).Settled h v) : ¬ v.Named := by
  intro hnamed
  have hsize : v.devsize.toNat = w.devsize.toNat + 1 := by
    have hroom' : w.devsize.toNat < 200 := hroom
    rw [hv.devsize, devsize_heard, if_pos ⟨hjoin, hroom⟩, UInt8.toNat_add]
    simp only [UInt8.reduceToNat]
    omega
  apply hnamed w.devsize.toNat (by omega)
  obtain ⟨s, hs⟩ := hv.slot w.devsize.toNat
  rw [hs]
  exact (name_heard mem len w _).trans (hw _ (le_refl _))

section

variable [JsonC]

theorem name_step (w : World) (x : Input) (i : ℕ) :
    ((gateway.step w x).1.mxjDevice i).name = (w.mxjDevice i).name := by
  cases x with
  | frame now behind rx len =>
    obtain ⟨s, hs⟩ := (frame_settled (memory rx behind) len w now).slot i
    have hstep : (gateway.step w (.frame now behind rx len)).1.mxjDevice i =
      { (w.heard (memory rx behind) len).mxjDevice i with state := s } := hs
    rw [hstep]
    exact name_heard _ len w i
  | tick now =>
    obtain ⟨h, hi⟩ := w.ticked_mxjDevice now i
    rw [step_tick, hi]

theorem buildsNamed_iff {w : World} (hw : w.Named ∧ w.BlankBehind) (x : Input) :
    x.BuildsNamed w ↔ ¬ x.Lists w := by
  cases x with
  | tick now =>
    have hjoins : ¬ (Input.tick now).Lists w := fun h => h.1
    have hbuilt : (Input.tick now).BuildsNamed w := by
      intro v hv
      exact absurd hv (by simp [Input.built])
    exact iff_of_true hbuilt hjoins
  | frame now behind rx len =>
    constructor
    · intro h ⟨hjoin, hroom⟩
      exact not_named_of_join hw.2 hjoin hroom (frame_settled _ len w now) (h _ (join_built hjoin))
    · intro hlists v hv
      obtain ⟨h, hsettled⟩ := built_settled hv
      obtain ⟨hsize, hname⟩ := named_settled hlists hsettled
      intro i hi
      rw [hname i]
      exact hw.1 i (hsize ▸ hi)

theorem named_step (w : World) (x : Input) (hw : w.Named ∧ w.BlankBehind) (hx : ¬ x.Lists w) :
    (gateway.step w x).1.Named ∧ (gateway.step w x).1.BlankBehind := by
  have hsize : (gateway.step w x).1.devsize = w.devsize := by
    cases x with
    | frame now behind rx len => exact (named_settled hx (frame_settled _ len w now)).1
    | tick now =>
      rw [step_tick]
      rfl
  constructor
  · intro i hi
    rw [name_step]
    exact hw.1 i (hsize ▸ hi)
  · intro i hi
    rw [name_step]
    exact hw.2 i (hsize ▸ hi)

theorem named_started (start : Tm) : (World.started start).Named := by
  intro i hi
  have hlt : i < (World.started start).entries.length := by rwa [entries_length]
  have hmem := List.getElem_mem hlt
  rw [entries_getElem, entries_started] at hmem
  obtain ⟨f, -, hf⟩ := List.mem_map.mp hmem
  have hname := congrArg MxjDevice.name hf
  rw [identity_name] at hname
  rw [← hname]
  simp [FixedDevice.entry]

theorem blankBehind_started (start : Tm) : (World.started start).BlankBehind := by
  obtain ⟨text, hw⟩ := started_eq start
  have hroom : World.zero.devsize.toNat + fixedDevices.length ≤ devSize := by decide
  have hblank := blankBehind_setup fixedDevices { World.zero with tblock := start }
    (fun _ _ => rfl) hroom
  generalize fixedDevices.foldl World.appended { World.zero with tblock := start } = v at hw hblank
  rw [hw]
  exact hblank

/-- In a run from the start, `build_json` finds a name for every device it lists if and only
if no sensor is added to the table. -/
theorem device_names_iff (start : Tm) (xs : List Input) :
    gateway.Along (fun w x => x.BuildsNamed w) (World.started start) xs ↔
      gateway.Along (fun w x => ¬ x.Lists w) (World.started start) xs :=
  Transducer.along_congr named_step (fun _ x hw => buildsNamed_iff hw x)
    ⟨named_started start, blankBehind_started start⟩ xs

end

/-- A button joins. -/
theorem device_name_missing :
    letI := spacedJsonC
    ¬ gateway.Along (fun w x => x.BuildsNamed w) (World.started march) [joinFrame 1] := by
  let _ := spacedJsonC
  intro h
  have hnew := lookup_joins (Nat.zero_le 181) (ids_started march)
  apply (buildsNamed_iff ⟨named_started march, blankBehind_started march⟩ _).mp h.1
  refine ⟨joinFrame_joins hnew, ?_⟩
  rw [devsize_started]
  decide

end IdolGateway.ZbClient
