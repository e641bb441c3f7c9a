import IdolGateway.ZbClient.Joins

namespace IdolGateway.ZbClient

open Procedure

/-- A frame, or the next of the append blocks of `main`. -/
inductive SetupInput
  | frame (now : Tm) (behind : ℕ → UInt8) (rx : ℕ → UInt8) (len : UInt8)
  | block

abbrev SetupState := World × List FixedDevice

def setup [JsonC] : Transducer SetupState SetupInput Out where
  step
    | (w, rest), .frame now behind rx len =>
      let r := (recieveUsart now len).run (memory rx behind) w
      ((r.state, rest), r.out)
    | (w, f :: rest), .block =>
      let r := (appendFixed f).run (fun _ => 0) w
      ((r.state, rest), r.out)
    | (w, []), .block => ((w, []), [])

def SetupState.initial : SetupState := (.zero, fixedDevices)

/-- A sensor joins under the id of a fixed device that is not in the table yet. -/
def SetupInput.Preempts : SetupState → SetupInput → Prop
  | (w, rest), .frame _ behind rx len =>
    w.joinType (memory rx behind) len ≠ none ∧ w.devsize.toNat < devSize ∧
      idOf (memory rx behind) len ∈ rest.map FixedDevice.id
  | _, .block => False

instance (s : SetupState) (x : SetupInput) : Decidable (x.Preempts s) :=
  match s, x with
  | _, .frame _ _ _ _ => inferInstanceAs (Decidable (_ ∧ _))
  | _, .block => inferInstanceAs (Decidable False)

def SetupState.Distinct (s : SetupState) : Prop :=
  (s.1.entries.map MxjDevice.id ++ s.2.map FixedDevice.id).Nodup

theorem setup_block_distinct {w : World} {f : FixedDevice} {rest : List FixedDevice}
    (hs : SetupState.Distinct (w, f :: rest)) : SetupState.Distinct (w.appended f, rest) := by
  unfold SetupState.Distinct at *
  dsimp only at *
  rw [entries_appended]
  by_cases h : w.devsize.toNat < devSize
  · have hid : f.entry.id = f.id := rfl
    rw [if_pos h, List.map_append, List.map_singleton, hid, List.append_assoc,
      List.singleton_append]
    exact hs
  · rw [if_neg h]
    exact (List.nodup_cons.mp (List.nodup_middle.mp hs)).2

section

variable [JsonC]

theorem setup_frame_distinct {w : World} {rest : List FixedDevice}
    (hs : SetupState.Distinct (w, rest)) (now : Tm) (behind rx : ℕ → UInt8) (len : UInt8)
    (hx : ¬ SetupInput.Preempts (w, rest) (.frame now behind rx len)) :
    SetupState.Distinct ((recieveUsart now len).run (memory rx behind) w |>.state, rest) := by
  unfold SetupState.Distinct at *
  dsimp only at *
  rw [entries_frame]
  rcases w.appends_cases (memory rx behind) len with hnil | ⟨type, hjoin, hnone, hroom, hnew⟩
  · rw [hnil, List.append_nil]
    exact hs
  · have hid : (w.newEntry (idOf (memory rx behind) len) type).id = idOf (memory rx behind) len := rfl
    have htable : idOf (memory rx behind) len ∉ w.entries.map MxjDevice.id := by
      intro hmem
      obtain ⟨e, he, heq⟩ := List.mem_map.mp hmem
      exact (lookup_eq_none_iff w _).mp hnone e he heq
    have hrest : idOf (memory rx behind) len ∉ rest.map FixedDevice.id := fun hmem =>
      hx ⟨by simp [hjoin], hroom, hmem⟩
    have hfresh : idOf (memory rx behind) len ∉
        w.entries.map MxjDevice.id ++ rest.map FixedDevice.id := by
      rw [List.mem_append]
      exact not_or.mpr ⟨htable, hrest⟩
    rw [hnew, List.map_append, List.map_singleton, hid, List.append_assoc, List.singleton_append]
    exact (List.nodup_middle).mpr (List.nodup_cons.mpr ⟨hfresh, hs⟩)

theorem setup_step_distinct (s : SetupState) (x : SetupInput) (hs : s.Distinct)
    (hx : ¬ x.Preempts s) : (setup.step s x).1.Distinct := by
  obtain ⟨w, rest⟩ := s
  cases x with
  | frame now behind rx len => exact setup_frame_distinct hs now behind rx len hx
  | block =>
    cases rest with
    | nil => exact hs
    | cons f rest =>
      have hstep : (setup.step (w, f :: rest) .block).1 = (w.appended f, rest) := by
        simp only [setup, run_appendFixed]
      rw [hstep]
      exact setup_block_distinct hs

/-- Whatever frames arrive between the append blocks of `main` and after them, the ids in
the table are distinct in every state, as long as no sensor joins under the id of a
fixed device whose append block has not run yet. -/
theorem device_ids_distinct (xs : List SetupInput)
    (h : setup.Along (fun s x => ¬ x.Preempts s) SetupState.initial xs) :
    (setup.after SetupState.initial xs).1.Distinct := by
  have hstart : SetupState.initial.Distinct := by
    unfold SetupState.Distinct
    decide
  have hend : (setup.after SetupState.initial xs).Distinct :=
    Transducer.after_invariant setup_step_distinct hstart h
  exact (List.nodup_append.mp hend).1

end

def joinInput (id : UInt16) : SetupInput :=
  .frame march (fun _ => 0) (fun i => (joinPayload id).getD i 0) 31

/-- A button that is not a fixed device joins between the append blocks. -/
theorem device_ids_distinct_new_button :
    letI := spacedJsonC
    (setup.after SetupState.initial
      (List.replicate 3 .block ++ [joinInput 1] ++ List.replicate 16 .block)).1.Distinct :=
  letI := spacedJsonC
  device_ids_distinct _ (by decide +kernel)

/-- The button of the main bedroom joins before the eighth block appends it. -/
theorem device_ids_collide :
    letI := spacedJsonC
    ¬ (setup.after SetupState.initial
      (joinInput xmkgZhuId :: List.replicate 8 .block)).1.Distinct := by
  unfold World.Distinct
  decide +kernel

end IdolGateway.ZbClient
