import IdolGateway.ZbClient.FrameOutput
import IdolGateway.ZbClient.Joins

namespace IdolGateway.ZbClient

open Procedure

def Input.Overfills (w : World) (x : Input) : Prop := x.Joins w ∧ w.devsize.toNat = devSize

instance (w : World) (x : Input) : Decidable (x.Overfills w) := inferInstanceAs (Decidable (_ ∧ _))

/-- The step stays inside the table, and a join that finds it full changes nothing but the
clock. -/
structure Input.InTable [JsonC] (w : World) (x : Input) : Prop where
  devsize : (gateway.step w x).1.devsize.toNat ≤ devSize
  stores : ∀ i, .store i ∈ (gateway.step w x).2 → i < devSize
  full : x.Joins w → w.devsize.toNat = devSize →
    { (gateway.step w x).1 with tblock := w.tblock } = w

def World.Bounded (w : World) : Prop := w.devsize.toNat ≤ devSize

def StoresBelow (n : ℕ) (o : List Out) : Prop := ∀ i, .store i ∈ o → i < n

theorem store_not_mem_doubleKick (i : ℕ) (id : UInt16) : Out.store i ∉ doubleKick id := by
  unfold doubleKick
  simp only [List.mem_append, not_or]
  refine ⟨⟨⟨⟨?_, ?_⟩, ?_⟩, ?_⟩, ?_⟩ <;> split_ifs <;> simp [ctrl]

theorem store_not_mem_leakReport (i : ℕ) (now : Tm) (place : String) (room : UInt16)
    (action : UInt8) : Out.store i ∉ leakReport now place room action := by
  unfold leakReport
  split_ifs <;> simp [ctrl]

theorem store_not_mem_singleKick (i : ℕ) (now : Tm) (id : UInt16) (action : UInt8) :
    Out.store i ∉ singleKick now id action := by
  unfold singleKick
  simp only [List.mem_append, not_or]
  refine ⟨⟨⟨⟨⟨⟨⟨?_, ?_⟩, ?_⟩, ?_⟩, ?_⟩, ?_⟩, ?_⟩, ?_⟩ <;> split_ifs <;>
    simp [ctrl, store_not_mem_leakReport]

theorem storesBelow_law {n : ℕ} (hn : n ≤ devSize) : FrameLaw n (StoresBelow devSize) where
  nil := fun i h => absurd h (List.not_mem_nil)
  append := fun ho ho' i h => (List.mem_append.mp h).elim (ho i) (ho' i)
  store := by
    intro i hi j hj
    obtain rfl : j = i := by simpa using hj
    omega
  socket := fun v i h => absurd h (by simp [ctrl])
  light := fun i h => absurd h (by simp [ctrl])
  register := fun id i h => absurd h (by simp)
  getState := fun id i h => absurd h (by simp [ctrl])
  double := fun id i h => absurd h (store_not_mem_doubleKick i id)
  single := fun now id action i h => absurd h (store_not_mem_singleKick i now id action)

theorem store_mem_tickOut {w : World} {i : ℕ} (hi : .store i ∈ w.tickOut) :
    i < w.devsize.toNat := by
  rcases (w.mem_tickOut _).mp hi with ⟨-, j, hj, ⟨-, hpost⟩ | ⟨-, hstore⟩⟩ | ⟨-, hlight⟩
  · exact Out.noConfusion hpost
  · rw [Out.store.inj hstore]
    exact hj
  · exact Out.noConfusion hlight

section

variable [JsonC]

theorem bounded_step (w : World) (x : Input) (hw : w.Bounded) : (gateway.step w x).1.Bounded := by
  have hlen := congrArg List.length (entries_step w x)
  rw [List.length_append, entries_length, entries_length] at hlen
  unfold World.Bounded at *
  cases x with
  | tick now =>
    have hnil : (Input.tick now).appends w = [] := rfl
    rw [hnil, List.length_nil] at hlen
    omega
  | frame now behind rx len =>
    have happends : (Input.frame now behind rx len).appends w = w.appends (memory rx behind) len := rfl
    rcases w.appends_cases (memory rx behind) len with hnil | ⟨type, -, -, hroom, hnew⟩
    · rw [happends, hnil, List.length_nil] at hlen
      omega
    · rw [happends, hnew, List.length_singleton] at hlen
      omega

theorem bounded_started (start : Tm) : (World.started start).Bounded := by
  unfold World.Bounded
  rw [devsize_started]
  decide

theorem stores_frame {w : World} (hw : w.Bounded) {now : Tm} {behind rx : ℕ → UInt8} {len : UInt8}
    (hx : ¬ (Input.frame now behind rx len).Overfills w) :
    StoresBelow devSize (gateway.step w (.frame now behind rx len)).2 := by
  apply frame_out (storesBelow_law hw)
  intro hjoin i hi
  obtain rfl : i = w.devsize.toNat := by simpa using hi
  exact lt_of_le_of_ne hw fun hfull => hx ⟨hjoin, hfull⟩

theorem stores_tick {w : World} (hw : w.Bounded) (now : Tm) :
    StoresBelow devSize (gateway.step w (.tick now)).2 := by
  intro i hi
  rw [step_tick] at hi
  have hlt := store_mem_tickOut hi
  unfold World.Bounded at hw
  omega

theorem inTable_iff {w : World} (hw : w.Bounded) (x : Input) : x.InTable w ↔ ¬ x.Overfills w := by
  constructor
  · intro h ⟨hjoin, hfull⟩
    have hlt := h.stores _ (join_stores hjoin)
    omega
  · intro h
    refine ⟨bounded_step w x hw, ?_, fun hjoin hfull => absurd ⟨hjoin, hfull⟩ h⟩
    cases x with
    | tick now => exact stores_tick hw now
    | frame now behind rx len => exact stores_frame hw h

/-- In a run from the start every step stays inside the table if and only if no sensor
joins a full table. -/
theorem table_bound_iff (start : Tm) (xs : List Input) :
    gateway.Along (fun w x => x.InTable w) (World.started start) xs ↔
      gateway.Along (fun w x => ¬ x.Overfills w) (World.started start) xs :=
  Transducer.along_congr (fun w x hw _ => bounded_step w x hw) (fun _ x hw => inTable_iff hw x)
    (bounded_started start) xs

end

/-- The table has room for 181 buttons; the next one is stored behind it. -/
theorem table_overrun :
    letI := spacedJsonC
    ¬ gateway.Along (fun w x => x.InTable w) (World.started march) (joins 182) := by
  let _ := spacedJsonC
  intro h
  have hids := ids_joins march (le_refl 181)
  rw [joins_succ, gateway.along_append] at h
  have hbounded : (gateway.after (World.started march) (joins 181)).Bounded := by
    unfold World.Bounded
    rw [devsize_joins hids]
    decide
  apply (inTable_iff hbounded _).mp h.2.1
  exact ⟨joinFrame_joins (lookup_joins (le_refl 181) hids), devsize_joins hids⟩

end IdolGateway.ZbClient
