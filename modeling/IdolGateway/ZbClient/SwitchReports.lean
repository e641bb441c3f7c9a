import IdolGateway.ZbClient.FrameCondition

/-!
# Switch reports as devices send them

A `CTRL_UP` frame carries the number of a channel in `rx[8]` and its value in `rx[9]`,
behind a cluster and a command, as a state report does.  Its branch still looks where the
two stood before the layout grew: it takes the low byte of the cluster for the channel and
the command for the value.
-/

namespace IdolGateway.ZbClient

/-- A switch report; the channels are numbered from 1 on the line. -/
structure SwitchFrame where
  id : UInt16
  cluster : UInt16
  command : UInt8
  channel : Fin 3
  value : UInt8
  quality : UInt8

namespace SwitchFrame

/-- `01 0a id cluster command 02 channel value quality` -/
def payload (f : SwitchFrame) : List UInt8 :=
  [mxjCtrlUp, 10, hiByte f.id, loByte f.id, hiByte f.cluster, loByte f.cluster, f.command, 2,
    UInt8.ofNat (f.channel.val + 1), f.value, f.quality]

def len (f : SwitchFrame) : UInt8 := UInt8.ofNat f.payload.length

def memory (f : SwitchFrame) (tail behind : ℕ → UInt8) : Loc → UInt8
  | .rx i => f.payload.getD i (tail i)
  | .behind i => behind i

/-- The frame sets the channel it reports in slot `i`, and no other channel anywhere. -/
structure UpdatesChannel (f : SwitchFrame) (i : ℕ) (w w' : World) : Prop where
  reported : (w'.mxjDevice i).state f.channel = f.value
  others : ∀ j k, (j, k) ≠ (i, f.channel) → (w'.mxjDevice j).state k = (w.mxjDevice j).state k

/-- The channel the branch takes the low byte of the cluster for. -/
def readChannel (f : SwitchFrame) : Option (Fin 3) :=
  if loByte f.cluster = 1 then some 0
  else if loByte f.cluster = 2 then some 1
  else if loByte f.cluster = 3 then some 2
  else none

/-- The stores of the branch come to what the frame says: cluster and command happen to be
channel and value, or what is stored elsewhere is there already. -/
def Agrees (f : SwitchFrame) (s : Fin 3 → UInt8) : Prop :=
  (f.readChannel = some f.channel ∧ f.command = f.value) ∨
    (f.readChannel ≠ some f.channel ∧ s f.channel = f.value ∧
      ∀ k, f.readChannel = some k → s k = f.command)

instance (f : SwitchFrame) (s : Fin 3 → UInt8) : Decidable (f.Agrees s) :=
  inferInstanceAs (Decidable (_ ∨ _))

/-- The bedroom socket is toggled on top of that, so that its first state always changes,
unless the command was stored there just before. -/
def SocketAgrees (f : SwitchFrame) (s : Fin 3 → UInt8) : Prop :=
  if f.readChannel = some 0 then
    (f.channel = 0 ∧ f.value = 1 - f.command) ∨
      (f.channel ≠ 0 ∧ s 0 = 1 - f.command ∧ s f.channel = f.value)
  else f.channel = 0 ∧ f.value = 1 - s 0 ∧ ∀ k, f.readChannel = some k → s k = f.command

theorem updatesChannel_iff (f : SwitchFrame) (i : ℕ) {w w' : World}
    (hother : ∀ j, j ≠ i → (w'.mxjDevice j).state = (w.mxjDevice j).state) :
    f.UpdatesChannel i w w' ↔
      (w'.mxjDevice i).state = Function.update (w.mxjDevice i).state f.channel f.value := by
  constructor
  · intro h
    funext k
    by_cases hk : k = f.channel
    · rw [hk, Function.update_self]
      exact h.reported
    · rw [Function.update_of_ne hk]
      exact h.others i k (by simp [hk])
  · intro h
    refine ⟨by rw [h, Function.update_self], fun j k hjk => ?_⟩
    by_cases hj : j = i
    · subst hj
      have hk : k ≠ f.channel := by
        rintro rfl
        exact hjk rfl
      rw [h, Function.update_of_ne hk]
    · rw [hother j hj]

theorem reported_eq (f : SwitchFrame) (s : Fin 3 → UInt8) :
    reported (loByte f.cluster) f.command s =
      match f.readChannel with
      | some k => Function.update s k f.command
      | none => s := by
  unfold reported readChannel
  by_cases h1 : loByte f.cluster = 1
  · simp [h1]
  · by_cases h2 : loByte f.cluster = 2
    · simp [h2]
    · by_cases h3 : loByte f.cluster = 3
      · simp [h3]
      · simp [h1, h2, h3]

theorem update_eq_update_iff (s : Fin 3 → UInt8) (j k : Fin 3) (a b : UInt8) :
    Function.update s j a = Function.update s k b ↔
      (j = k ∧ a = b) ∨ (j ≠ k ∧ s k = b ∧ s j = a) := by
  rw [Function.update_eq_iff]
  by_cases hjk : j = k
  · subst hjk
    simp +contextual
  · constructor
    · rintro ⟨hj, hrest⟩
      rw [Function.update_of_ne hjk] at hj
      have hk := hrest k (Ne.symm hjk)
      rw [Function.update_self] at hk
      exact Or.inr ⟨hjk, hk, hj.symm⟩
    · rintro (⟨h, -⟩ | ⟨-, hk, hj⟩)
      · exact absurd h hjk
      · rw [Function.update_of_ne hjk]
        refine ⟨hj.symm, fun x _ => ?_⟩
        by_cases hx : x = k
        · rw [hx, hk, Function.update_self]
        · rw [Function.update_of_ne hx]

theorem one_sub_ne (x : UInt8) : 1 - x ≠ x := by
  intro h
  have hx := x.toNat_lt
  have hnat := congrArg UInt8.toNat h
  rw [UInt8.toNat_sub] at hnat
  simp only [UInt8.reduceToNat] at hnat
  omega

theorem reported_agrees_iff (f : SwitchFrame) (s : Fin 3 → UInt8) :
    reported (loByte f.cluster) f.command s = Function.update s f.channel f.value ↔
      f.Agrees s := by
  rw [reported_eq, Agrees]
  cases f.readChannel with
  | none => simp [eq_comm]
  | some k =>
    dsimp only
    rw [update_eq_update_iff]
    simp

/-- The toggled state is a new one, so it has to be the one reported. -/
theorem toggled_agrees_iff (f : SwitchFrame) (s : Fin 3 → UInt8) :
    toggled (reported (loByte f.cluster) f.command s) = Function.update s f.channel f.value ↔
      f.SocketAgrees s := by
  have hswitch : ∀ t : Fin 3 → UInt8, t 0 = s 0 →
      toggled t = Function.update s f.channel f.value → f.channel = 0 := by
    intro t ht h
    by_contra hc
    have h0 := congrFun h 0
    rw [toggled, Function.update_self, Function.update_of_ne (Ne.symm hc), ht] at h0
    exact one_sub_ne _ h0
  rw [reported_eq, SocketAgrees]
  cases hread : f.readChannel with
  | none =>
    dsimp only
    rw [if_neg (by simp)]
    constructor
    · intro h
      have hc := hswitch s rfl h
      have h0 := congrFun h 0
      rw [toggled, Function.update_self, hc, Function.update_self] at h0
      exact ⟨hc, h0.symm, by simp⟩
    · rintro ⟨hc, hv, -⟩
      rw [toggled, hc, hv]
  | some k =>
    dsimp only
    by_cases hk : k = 0
    · subst hk
      rw [if_pos rfl, toggled, Function.update_self, Function.update_idem, update_eq_update_iff]
      constructor
      · rintro (⟨hc, hv⟩ | ⟨hc, hs, h0⟩)
        · exact Or.inl ⟨hc.symm, hv.symm⟩
        · exact Or.inr ⟨Ne.symm hc, h0, hs⟩
      · rintro (⟨hc, hv⟩ | ⟨hc, h0, hs⟩)
        · exact Or.inl ⟨hc.symm, hv.symm⟩
        · exact Or.inr ⟨Ne.symm hc, hs, h0⟩
    · rw [if_neg (by simpa using hk)]
      have h0 : Function.update s k f.command 0 = s 0 := Function.update_of_ne (Ne.symm hk) _ _
      constructor
      · intro h
        have hc := hswitch _ h0 h
        have hat := congrFun h 0
        have hatk := congrFun h k
        rw [toggled, Function.update_self, h0, hc, Function.update_self] at hat
        rw [toggled, Function.update_of_ne hk, Function.update_self, hc,
          Function.update_of_ne hk] at hatk
        refine ⟨hc, hat.symm, fun j hj => ?_⟩
        rw [← Option.some.inj hj, hatk]
      · rintro ⟨hc, hv, hs⟩
        rw [toggled, h0, hc, hv, ← hs k rfl, Function.update_eq_self]

section

variable (f : SwitchFrame) (tail behind : ℕ → UInt8)

theorem idOf_memory : idOf (f.memory tail behind) f.len = f.id := word_bytes f.id

theorem run_eq [JsonC] (now : Tm) (w : World) :
    (recieveUsart now f.len).run (f.memory tail behind) w =
      (ctrlUp f.id).run (f.memory tail behind) { w with tblock := now } := by
  rw [run_recieveUsart, idOf_memory]
  rfl

end

end SwitchFrame

/-- A report of a switch in slot `i` sets what it reports, and nothing else, exactly when
the bytes the branch stores say the same. -/
theorem switch_report_iff [JsonC] (f : SwitchFrame) (tail behind : ℕ → UInt8) (now : Tm)
    (w : World) (i : ℕ) (hi : w.lookup f.id = some i) (htype : (w.mxjDevice i).type = 4) :
    f.UpdatesChannel i w ((recieveUsart now f.len).run (f.memory tail behind) w).state ↔
      if f.id = powerCiwoId then f.SocketAgrees (w.mxjDevice i).state
      else f.Agrees (w.mxjDevice i).state := by
  rw [f.run_eq, f.updatesChannel_iff i]
  · rw [ctrlUp_states _ { w with tblock := now } i hi htype]
    by_cases hid : f.id = powerCiwoId
    · rw [if_pos hid, if_pos hid]
      exact f.toggled_agrees_iff _
    · rw [if_neg hid, if_neg hid]
      exact f.reported_agrees_iff _
  · intro j hj
    refine states_ctrlUp j _ ?_ rfl
    rintro hlookup
    exact hj (Option.some.inj (hlookup.symm.trans hi))

def World.switch (id : UInt16) : World :=
  { World.zero with
    mxjDevice := fun _ => { MxjDevice.zero with id := id, type := 4 }
    devsize := 1 }

/-- The report `01 0a e6 a4 00 04 01 02 01 01 6d` of the second bedroom's switch. -/
def bedroomReport : SwitchFrame := ⟨ciwoId, 4, 1, 0, 1, 0x6d⟩

def firstCluster : SwitchFrame := { bedroomReport with cluster := 1 }

theorem switch_report_first_cluster :
    letI := spacedJsonC
    firstCluster.UpdatesChannel 0 (.switch ciwoId)
      ((recieveUsart march firstCluster.len).run
        (firstCluster.memory (fun _ => 0) fun _ => 0) (.switch ciwoId)).state :=
  (@switch_report_iff spacedJsonC firstCluster (fun _ => 0) (fun _ => 0) march (.switch ciwoId) 0
    (by decide) rfl).mpr (by rw [if_neg (by decide)]; decide)

/-- Nothing is stored. -/
theorem bedroom_report_lost :
    letI := spacedJsonC
    ¬ bedroomReport.UpdatesChannel 0 (.switch ciwoId)
      ((recieveUsart march bedroomReport.len).run
        (bedroomReport.memory (fun _ => 0) fun _ => 0) (.switch ciwoId)).state := by
  let _ := spacedJsonC
  intro h
  have hreported := h.reported
  rw [SwitchFrame.run_eq, ctrlUp_states _ _ 0 (by decide) rfl] at hreported
  exact absurd hreported (by decide)

end IdolGateway.ZbClient
