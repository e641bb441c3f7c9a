import IdolGateway.ZbClient.KitchenTimer

namespace IdolGateway.ZbClient

open Procedure

def Input.LooksFor (id : UInt16) : Input → Prop
  | .frame _ behind rx len => LooksUp (rx 0) ∧ idOf (memory rx behind) len = id
  | .tick _ => False

instance (id : UInt16) (x : Input) : Decidable (x.LooksFor id) :=
  match x with
  | .frame _ _ _ _ => inferInstanceAs (Decidable (_ ∧ _))
  | .tick _ => inferInstanceAs (Decidable False)

def framesOf (id : UInt16) (xs : List Input) : ℕ := xs.countP fun x => x.LooksFor id

def Input.IsCheck (w : World) (x : Input) : Prop := x.isTick ∧ w.CheckDue

instance (w : World) (x : Input) : Decidable (x.IsCheck w) := inferInstanceAs (Decidable (_ ∧ _))

section

variable [JsonC]

/-- The inputs since the last check, or since the start. -/
def sinceCheck (start : Tm) (p : List Input) : List Input :=
  (gateway.since (fun w x => x.IsCheck w) (World.started start) p).getD p

def Alarm (w : World) (now : Tm) (id : UInt16) : Prop :=
  ∃ i, w.lookup id = some i ∧
    .post (offlineText (w.mxjDevice i) w.tblock) ∈ (gateway.step w (.tick now)).2

/-- The alarm is raised by the next round if and only if no frame of the sensor came
since the last check. -/
def AlarmExact (start : Tm) (p : List Input) (now : Tm) (id : UInt16) : Prop :=
  Alarm (gateway.after (World.started start) p) now id ↔ framesOf id (sinceCheck start p) = 0

theorem sinceCheck_append_singleton (start : Tm) (p : List Input) (x : Input) :
    sinceCheck start (p ++ [x]) =
      if x.IsCheck (gateway.after (World.started start) p) then []
      else sinceCheck start p ++ [x] := by
  unfold sinceCheck
  rw [gateway.since_append_singleton]
  split_ifs
  · rfl
  · cases gateway.since (fun w x => x.IsCheck w) (World.started start) p with
    | none => rfl
    | some ys => rfl

end

theorem framesOf_append_singleton (id : UInt16) (xs : List Input) (x : Input) :
    framesOf id (xs ++ [x]) = framesOf id xs + if x.LooksFor id then 1 else 0 := by
  unfold framesOf
  rw [List.countP_append, List.countP_singleton]
  simp only [decide_eq_true_eq]

theorem heart_setup (fs : List FixedDevice) (w : World) (hw : ∀ i, (w.mxjDevice i).heart = 0)
    (i : ℕ) : ((fs.foldl World.appended w).mxjDevice i).heart = 0 := by
  induction fs generalizing w with
  | nil => exact hw i
  | cons f fs ih =>
    apply ih
    intro j
    by_cases hj : j = w.devsize.toNat
    · simp [World.appended, hj]
    · simp [World.appended, hj, hw j]

section

variable {w : World} {k : ℕ} {f : FixedDevice}

/-- A fixed device is found by its own id only. -/
theorem World.KeepsFixed.lookup_iff (hw : w.KeepsFixed) (hk : fixedDevices[k]? = some f)
    (id : UInt16) : w.lookup id = some k ↔ id = f.id := by
  constructor
  · intro h
    rw [← ((lookup_eq_some_iff w id k).mp h).2.1, hw.id hk]
  · intro h
    rw [h, hw.lookup hk]

/-- The heart beat of a fixed device counts its own frames; that of the kitchen light
counts motion frames as well. -/
theorem heart_heard (hw : w.KeepsFixed) (hk : fixedDevices[k]? = some f) (hf : f.id ≠ chufangId)
    (mem : Loc → UInt8) (len : UInt8) :
    ((w.heard mem len).mxjDevice k).heart =
      (w.mxjDevice k).heart + if LooksUp (mem (.rx 0)) ∧ idOf mem len = f.id then 1 else 0 := by
  have hlight : w.lookup chufangId ≠ some k := by
    rw [Ne, hw.lookup_iff hk]
    exact Ne.symm hf
  unfold World.heard
  by_cases hlooks : LooksUp (mem (.rx 0))
  · simp only [hlooks, if_true, true_and]
    cases hjoin : w.joinType mem len with
    | some type =>
      have hother : idOf mem len ≠ f.id := by
        intro hid
        have hfound : w.lookup (idOf mem len) ≠ none := by
          rw [hid, hw.lookup hk]
          simp
        rw [World.joinType, if_neg hfound] at hjoin
        exact absurd hjoin (by simp)
      have hslot : k ≠ w.devsize.toNat := by
        have := (hw.slot hk).1
        omega
      simp [World.joined, hslot, hother]
    | none =>
      dsimp only
      by_cases hmotion : IsMotion mem len
      · rw [if_pos hmotion, heart_beat, heart_beat, World.lookup_beat, if_neg hlight]
        simp only [hw.lookup_iff hk, add_zero]
      · rw [if_neg hmotion, heart_beat]
        simp only [hw.lookup_iff hk]
  · simp [hlooks]

variable [JsonC]

theorem heart_step (hw : w.KeepsFixed) (hk : fixedDevices[k]? = some f) (hf : f.id ≠ chufangId)
    (x : Input) :
    ((gateway.step w x).1.mxjDevice k).heart =
      if x.IsCheck w then 0
      else (w.mxjDevice k).heart + if x.LooksFor f.id then 1 else 0 := by
  cases x with
  | frame now behind rx len =>
    obtain ⟨s, hs⟩ := (frame_settled (memory rx behind) len w now).slot k
    have hcheck : ¬ (Input.frame now behind rx len).IsCheck w := fun h => Bool.false_ne_true h.1
    have hheart : ((gateway.step w (.frame now behind rx len)).1.mxjDevice k).heart =
        ((w.heard (memory rx behind) len).mxjDevice k).heart := by
      simp only [gateway, Input.run, hs]
    rw [hheart, if_neg hcheck, heart_heard hw hk hf]
    rfl
  | tick now =>
    have hlooks : ¬ (Input.tick now).LooksFor f.id := id
    rw [step_tick, if_neg hlooks, add_zero]
    by_cases hdue : w.CheckDue
    · rw [if_pos ⟨rfl, hdue⟩]
      simp [World.ticked, hdue, (hw.slot hk).1, MxjDevice.cleared]
    · rw [if_neg fun h => hdue h.2]
      simp [World.ticked, hdue]

theorem heart_started (start : Tm) (i : ℕ) : ((World.started start).mxjDevice i).heart = 0 := by
  obtain ⟨text, hw⟩ := started_eq start
  rw [hw]
  dsimp only
  rw [heart_setup _ _ fun _ => rfl]

theorem heart_counts (start : Tm) (hk : fixedDevices[k]? = some f) (hf : f.id ≠ chufangId)
    (p : List Input) :
    ((gateway.after (World.started start) p).mxjDevice k).heart =
      UInt8.ofNat (framesOf f.id (sinceCheck start p)) := by
  induction p using List.reverseRecOn with
  | nil =>
    have hnone : sinceCheck start [] = [] := rfl
    rw [gateway.after_nil, heart_started, hnone]
    rfl
  | append_singleton p x ih =>
    have hkeeps := keepsFixed_after (keepsFixed_started start) p
    rw [gateway.after_append_singleton, heart_step hkeeps hk hf, sinceCheck_append_singleton, ih]
    split_ifs with hcheck hframe
    · rfl
    · rw [framesOf_append_singleton, if_pos hframe, UInt8.ofNat_add]
      rfl
    · rw [framesOf_append_singleton, if_neg hframe, add_zero, add_zero]

end

theorem offlineText_ne (d d' : MxjDevice) (tblock : Tm) (hd : d.name = some "次卧漏水检测")
    (hd' : d'.name = some "厨房漏水检测") : offlineText d tblock ≠ offlineText d' tblock := by
  intro h
  have hfirst : "次卧漏水检测".toList.head? = some '次' := by decide +kernel
  have hfirst' : "厨房漏水检测".toList.head? = some '厨' := by decide +kernel
  have hchars := congrArg String.toList h
  unfold offlineText at hchars
  rw [hd, hd'] at hchars
  simp only [Option.getD_some, String.toList_append, List.append_assoc] at hchars
  have hhead := congrArg List.head? (List.append_cancel_left hchars)
  simp only [List.head?_append, hfirst, hfirst', Option.some_or, Option.some_inj] at hhead
  exact absurd hhead (by decide)

theorem ofNat_eq_zero_iff (n : ℕ) : UInt8.ofNat n = 0 ↔ 256 ∣ n := by
  rw [← UInt8.toNat_inj, UInt8.toNat_ofNat']
  exact (Nat.dvd_iff_mod_eq_zero).symm

theorem post_mem_tickOut (w : World) (text : String) :
    .post text ∈ w.tickOut ↔ w.CheckDue ∧ ∃ j < w.devsize.toNat,
      (w.mxjDevice j).Silent ∧ text = offlineText (w.mxjDevice j) w.tblock := by
  rw [w.mem_tickOut]
  simp [ctrl]

theorem leak_slot {w : World} (hw : w.KeepsFixed) (hd : w.Distinct) {j : ℕ}
    (hj : j < w.devsize.toNat)
    (hid : (w.mxjDevice j).id = xmloushuiChufangId ∨ (w.mxjDevice j).id = xmloushuiCiwoId) :
    j = 12 ∨ j = 13 := by
  have hself := hd.lookup hj
  rcases hid with h | h
  · rw [h, hw.lookup (k := 13) rfl] at hself
    exact Or.inr (Option.some_inj.mp hself).symm
  · rw [h, hw.lookup (k := 12) rfl] at hself
    exact Or.inl (Option.some_inj.mp hself).symm

section

variable [JsonC] {w : World}

theorem alarm_iff_heart (hw : w.KeepsFixed) (hd : w.Distinct) (hdue : w.CheckDue) (now : Tm)
    {k : ℕ} {f : FixedDevice} (hk : fixedDevices[k]? = some f)
    (hid : f.id = xmloushuiChufangId ∨ f.id = xmloushuiCiwoId) :
    Alarm w now f.id ↔ (w.mxjDevice k).heart = 0 := by
  have hciwo : (w.mxjDevice 12).name = some "次卧漏水检测" := hw.name (k := 12) rfl
  have hchufang : (w.mxjDevice 13).name = some "厨房漏水检测" := hw.name (k := 13) rfl
  have hkid : (w.mxjDevice k).id = xmloushuiChufangId ∨ (w.mxjDevice k).id = xmloushuiCiwoId := by
    rwa [hw.id hk]
  have hslot := leak_slot hw hd (hw.slot hk).1 hkid
  unfold Alarm
  rw [hw.lookup hk, step_tick]
  simp only [Option.some_inj, exists_eq_left', post_mem_tickOut]
  constructor
  · intro ⟨_, j, hj, hsilent, htext⟩
    rcases leak_slot hw hd hj hsilent.2 with rfl | rfl
    · rcases hslot with rfl | rfl
      · exact hsilent.1
      · exact absurd htext.symm (offlineText_ne _ _ _ hciwo hchufang)
    · rcases hslot with rfl | rfl
      · exact absurd htext (offlineText_ne _ _ _ hciwo hchufang)
      · exact hsilent.1
  · intro hheart
    exact ⟨hdue, k, (hw.slot hk).1, ⟨hheart, hkid⟩, rfl⟩

/-- At a check a leak sensor is alarmed for if and only if the number of its frames since
the last check is a multiple of 256. -/
theorem alarm_iff_dvd (start : Tm) (p : List Input) (now : Tm) {k : ℕ} {f : FixedDevice}
    (hk : fixedDevices[k]? = some f) (hid : f.id = xmloushuiChufangId ∨ f.id = xmloushuiCiwoId)
    (hdue : (gateway.after (World.started start) p).CheckDue) :
    Alarm (gateway.after (World.started start) p) now f.id ↔
      256 ∣ framesOf f.id (sinceCheck start p) := by
  have hkeeps := keepsFixed_after (keepsFixed_started start) p
  have hdistinct := Transducer.after_preserves distinct_step (distinct_started start) p
  have hlight : f.id ≠ chufangId := by
    rcases hid with h | h
    · rw [h]
      decide
    · rw [h]
      decide
  rw [alarm_iff_heart hkeeps hdistinct hdue now hk hid, heart_counts start hk hlight,
    ofNat_eq_zero_iff]

/-- The alarm for a leak sensor is exact at a check, except when the number of frames of
the sensor since the last check is a positive multiple of 256. -/
theorem offline_alarm_exact_iff (start : Tm) (p : List Input) (now : Tm) (id : UInt16)
    (hid : id = xmloushuiChufangId ∨ id = xmloushuiCiwoId)
    (hdue : (gateway.after (World.started start) p).CheckDue) :
    AlarmExact start p now id ↔
      ¬ (0 < framesOf id (sinceCheck start p) ∧ 256 ∣ framesOf id (sinceCheck start p)) := by
  have halarm : Alarm (gateway.after (World.started start) p) now id ↔
      256 ∣ framesOf id (sinceCheck start p) := by
    rcases hid with rfl | rfl
    · exact alarm_iff_dvd start p now (k := 13) rfl (Or.inl rfl) hdue
    · exact alarm_iff_dvd start p now (k := 12) rfl (Or.inr rfl) hdue
  unfold AlarmExact
  rw [halarm]
  generalize framesOf id (sinceCheck start p) = n
  constructor
  · intro h ⟨hpos, hdvd⟩
    have hzero : n = 0 := h.mp hdvd
    omega
  · intro h
    constructor
    · intro hdvd
      by_contra hne
      exact h ⟨by omega, hdvd⟩
    · intro hzero
      rw [hzero]
      exact dvd_zero 256

theorem flagHour_frame (w : World) (now : Tm) (behind rx : ℕ → UInt8) (len : UInt8) :
    (gateway.step w (.frame now behind rx len)).1.flagHour = w.flagHour := by
  have hheard : (w.heard (memory rx behind) len).flagHour = w.flagHour := by
    unfold World.heard
    split_ifs
    · cases w.joinType (memory rx behind) len with
      | none => rfl
      | some type => rfl
    · cases w.joinType (memory rx behind) len with
      | none => rfl
      | some type => rfl
    · rfl
  exact (frame_settled _ len w now).flagHour.trans hheard

/-- No check is due before `flag_hour` has counted 7500 rounds. -/
theorem no_check (w : World) (xs : List Input) (h : w.flagHour + ticks xs < 7500) :
    gateway.since (fun w x => x.IsCheck w) w xs = none ∧
      (gateway.after w xs).flagHour = w.flagHour + ticks xs := by
  induction xs generalizing w with
  | nil => exact ⟨rfl, by simp [ticks]⟩
  | cons x xs ih =>
    have hcount : ticks (x :: xs) = ticks xs + if x.isTick then 1 else 0 := List.countP_cons
    have hstep : (gateway.step w x).1.flagHour =
        w.flagHour + ((if x.isTick then 1 else 0 : ℕ) : ℤ) := by
      cases x with
      | frame now behind rx len => simp [flagHour_frame, Input.isTick]
      | tick now =>
        have hdue : ¬ w.CheckDue := by
          simp only [Input.isTick, if_true] at hcount
          unfold World.CheckDue
          omega
        simp [step_tick, World.ticked, hdue, Input.isTick]
    have hcheck : ¬ x.IsCheck w := by
      intro hcheck
      have hdue : 7500 ≤ w.flagHour + 1 := hcheck.2
      rw [if_pos hcheck.1] at hcount
      omega
    have hnext := ih (gateway.step w x).1 (by omega)
    rw [Transducer.since, hnext.1, if_neg hcheck, gateway.after_cons, hnext.2, hstep, hcount]
    exact ⟨rfl, by omega⟩

end

def leakFrame : Input := received [mxjXiaomi18, 3, 0xab, 0x13]

/-- As many frames as the counter has values, and 7499 rounds of the loop. -/
def wrappingRun (n : ℕ) : List Input :=
  List.replicate n leakFrame ++ List.replicate 7499 (.tick march)

theorem wrappingRun_due [JsonC] (n : ℕ) :
    (gateway.after (World.started march) (wrappingRun n)).CheckDue ∧
      framesOf xmloushuiChufangId (sinceCheck march (wrappingRun n)) = n := by
  have hstart : (World.started march).flagHour = 0 := (timers_started march).2
  have hticks : ticks (wrappingRun n) = 7499 := by
    have hframe : leakFrame.isTick = false := rfl
    have htick : (Input.tick march).isTick = true := rfl
    rw [ticks, wrappingRun, List.countP_append, List.countP_replicate, List.countP_replicate,
      if_neg (by simp [hframe]), if_pos htick]
  have hframes : framesOf xmloushuiChufangId (wrappingRun n) = n := by
    have hframe : leakFrame.LooksFor xmloushuiChufangId := by decide
    have htick : ¬ (Input.tick march).LooksFor xmloushuiChufangId := id
    rw [framesOf, wrappingRun, List.countP_append, List.countP_replicate, List.countP_replicate,
      if_pos (decide_eq_true hframe), if_neg (by simp [htick]), add_zero]
  obtain ⟨hnone, hhour⟩ := no_check (World.started march) (wrappingRun n) (by omega)
  constructor
  · unfold World.CheckDue
    omega
  · rw [sinceCheck, hnone]
    exact hframes

theorem offline_alarm_exact_three :
    letI := spacedJsonC
    AlarmExact march (wrappingRun 3) march xmloushuiChufangId :=
  letI := spacedJsonC
  (offline_alarm_exact_iff march (wrappingRun 3) march xmloushuiChufangId (Or.inl rfl)
    (wrappingRun_due 3).1).mpr (by
      rw [(wrappingRun_due 3).2]
      decide)

/-- After 256 frames the heart beat is 0 again, and the sensor is called offline. -/
theorem offline_alarm_after_256_frames :
    letI := spacedJsonC
    ¬ AlarmExact march (wrappingRun 256) march xmloushuiChufangId := by
  intro h
  obtain ⟨hdue, hframes⟩ := @wrappingRun_due spacedJsonC 256
  unfold AlarmExact at h
  rw [@alarm_iff_dvd spacedJsonC march (wrappingRun 256) march 13 _ rfl (Or.inl rfl) hdue,
    hframes] at h
  exact absurd (h.mp ⟨1, rfl⟩) (by decide)

end IdolGateway.ZbClient
