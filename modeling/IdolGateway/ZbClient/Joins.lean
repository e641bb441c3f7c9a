import IdolGateway.ZbClient.Entries
import IdolGateway.ZbClient.JsonFresh

namespace IdolGateway.ZbClient

open Procedure

/-- The sender of the frame is not in the table and reports a model that may join. -/
def Input.Joins (w : World) : Input → Prop
  | .frame _ behind rx len => w.joinType (memory rx behind) len ≠ none
  | .tick _ => False

instance (w : World) (x : Input) : Decidable (x.Joins w) :=
  match x with
  | .frame _ _ _ _ => inferInstanceAs (Decidable (_ ≠ _))
  | .tick _ => inferInstanceAs (Decidable False)

/-- A joining frame does nothing but join: the sender is not found, and no cluster follows. -/
theorem run_join [JsonC] {mem : Loc → UInt8} {len type : UInt8} {w : World}
    (hjoin : w.joinType mem len = some type) (now : Tm) :
    (recieveUsart now len).run mem w =
      (appendSensor (idOf mem len) type).run mem { w with tblock := now } := by
  have hcmd : mem (.rx 0) = mxjXiaomi18 := by
    by_contra hne
    rw [w.joinType_of_ne mem len hne] at hjoin
    exact absurd hjoin (by simp)
  have hnone : w.lookup (idOf mem len) = none := by
    by_contra hne
    rw [World.joinType, if_neg hne] at hjoin
    exact absurd hjoin (by simp)
  have htype : sensorType mem len = some type := by rwa [World.joinType, if_pos hnone] at hjoin
  have hlookup : ({ w with tblock := now } : World).lookup (idOf mem len) = none := hnone
  have hfind : (findDev (idOf mem len)).run mem { w with tblock := now } =
      ⟨none, { w with tblock := now }, []⟩ := by
    rw [run_findDev, hlookup, World.beat_of_none hlookup]
    rfl
  have hreport : ∀ cid, dispatch now len (idOf mem len) cid mxjXiaomi18 =
      xiaomi18 now len (idOf mem len) cid := fun _ => rfl
  have hcluster : ∀ i, (sensorJoin len (idOf mem len) 0 i >>= fun _ =>
      if (0 : UInt16) = 6 then onOffReport now len (idOf mem len)
      else if (0 : UInt16) = 0x406 then occupancyReport len (idOf mem len)
      else if (0 : UInt16) = 0x402 then measureReport len
      else if (0 : UInt16) = 0x405 then measureReport len
      else pure ()) = (sensorJoin len (idOf mem len) 0 i >>= fun _ => pure ()) := fun _ => rfl
  have hcid : cidOf mem len = 0 := cidOf_of_sensorType htype
  have hsensor := run_sensorJoin mem { w with tblock := now } len (idOf mem len) none hcmd
  rw [if_pos rfl, htype, hcid] at hsensor
  rw [run_recieveUsart, hcmd, hreport, xiaomi18, run_bind_of_quiet hfind, hcid, hcluster,
    run_bind_pure, hsensor]

/-- A join stores into the slot behind the table. -/
theorem join_stores [JsonC] {w : World} {x : Input} (hx : x.Joins w) :
    .store w.devsize.toNat ∈ (gateway.step w x).2 := by
  cases x with
  | tick now => exact hx.elim
  | frame now behind rx len =>
    obtain ⟨type, htype⟩ := Option.ne_none_iff_exists'.mp hx
    have hrun := run_join htype now
    simp only [gateway, Input.run, hrun]
    unfold appendSensor
    rw [run_gets_bind, run_bind_out, run_setDevice]
    simp

section

variable {mem : Loc → UInt8}

theorem copied_eq (name : List UInt8) (hname : 0 ∉ name) (start : ℕ)
    (hmem : ∀ i < name.length, mem (.rx (start + i)) = name.getD i 0) :
    copied mem start name.length = name := by
  induction name generalizing start with
  | nil => rfl
  | cons b name ih =>
    obtain ⟨hb, hrest⟩ := List.ne_and_not_mem_of_not_mem_cons hname
    have hfirst : mem (.rx start) = b := hmem 0 (by simp)
    have hnext : copied mem (start + 1) name.length = name := by
      apply ih hrest
      intro i hi
      have h := hmem (i + 1) (by simpa using hi)
      rwa [List.getD_cons_succ, ← add_assoc, add_right_comm] at h
    rw [List.length_cons, copied, hfirst, if_neg (Ne.symm hb), hnext]

theorem holdsString_append (hnul : mem (.behind 0) = 0) (pre rest : List UInt8) :
    holdsString mem (pre ++ rest) pre.length rest = true := by
  induction rest generalizing pre with
  | nil => simp [holdsString, byteFrom, hnul]
  | cons b rest ih =>
    have hbyte : byteFrom mem (pre ++ b :: rest) pre.length = b := by simp [byteFrom]
    have hnext := ih (pre ++ [b])
    rw [List.append_assoc, List.length_append] at hnext
    rw [holdsString, if_pos hbyte]
    exact hnext

theorem recognised_self (hnul : mem (.behind 0) = 0) (model : List UInt8) (type : UInt8)
    (models : List (List UInt8 × UInt8)) :
    recognised mem model ((model, type) :: models) = some type := by
  have hself : holdsString mem model 0 model = true := holdsString_append hnul [] model
  rw [recognised, if_pos hself]

end

theorem word_bytes (id : UInt16) : word (hiByte id) (loByte id) = id := by
  have hid : id.toNat < 65536 := id.toNat_lt
  have hhi : (hiByte id).toUInt16.toNat = id.toNat / 256 := by
    have hshift : (id >>> 8).toNat = id.toNat / 256 := by
      rw [UInt16.toNat_shiftRight, Nat.shiftRight_eq_div_pow]
      rfl
    simp only [hiByte, UInt8.toNat_toUInt16, UInt16.toNat_toUInt8, hshift]
    omega
  have hlo : (loByte id).toUInt16.toNat = id.toNat % 256 := by
    simp [loByte]
  have hor := Nat.shiftLeft_add_eq_or_of_lt (i := 8) (b := id.toNat % 256) (by omega)
    (id.toNat / 256)
  apply UInt16.toNat_inj.mp
  unfold word
  rw [UInt16.toNat_or, UInt16.toNat_shiftLeft, hhi, hlo]
  have hmod : (id.toNat / 256) <<< ((8 : UInt16).toNat % 16) % 2 ^ 16 = (id.toNat / 256) <<< 8 := by
    have height : (8 : UInt16).toNat % 16 = 8 := rfl
    rw [height, Nat.shiftLeft_eq]
    omega
  rw [hmod, ← hor, Nat.shiftLeft_eq]
  omega

def switchModel : List UInt8 :=
  [108, 117, 109, 105, 46, 115, 101, 110, 115, 111, 114, 95, 115, 119, 105, 116, 99, 104]

def joinPayload (id : UInt16) : List UInt8 :=
  [mxjXiaomi18, 30, hiByte id, loByte id, 0, 0, 0, 0, 0, 0, 0, 0, 18] ++ switchModel

/-- The report with which a button of this id joins. -/
def joinFrame (id : UInt16) : Input := received (joinPayload id)

theorem asciiBytes_switch : asciiBytes "lumi.sensor_switch" = switchModel := by decide +kernel

theorem sensorType_join (id : UInt16) :
    sensorType (memory (fun i => (joinPayload id).getD i 0) fun _ => 0) 31 = some 0x0b := by
  have hcopied : copied (memory (fun i => (joinPayload id).getD i 0) fun _ => 0) 13 18 =
      switchModel := by
    apply copied_eq switchModel (by decide)
    intro i hi
    have hpayload : (joinPayload id).getD (13 + i) 0 = switchModel.getD i 0 := by
      rw [joinPayload, List.getD_eq_getElem?_getD, List.getD_eq_getElem?_getD,
        List.getElem?_append_right (by simp)]
      congr 2
      simp
    exact hpayload
  have h0 : memory (fun i => (joinPayload id).getD i 0) (fun _ => 0) (.rx 0) = mxjXiaomi18 := rfl
  have h12 : memory (fun i => (joinPayload id).getD i 0) (fun _ => 0) (.rx 12) = 18 := rfl
  have hcid : cidOf (memory (fun i => (joinPayload id).getD i 0) fun _ => 0) 31 = 0 := by
    have h4 : memory (fun i => (joinPayload id).getD i 0) (fun _ => 0) (.rx 4) = 0 := rfl
    have h5 : memory (fun i => (joinPayload id).getD i 0) (fun _ => 0) (.rx 5) = 0 := rfl
    unfold cidOf
    rw [h4, h5]
    decide
  unfold sensorType modelTypes
  rw [h0, hcid, h12, if_pos (by decide), asciiBytes_switch]
  have hn : UInt8.toNat 18 = 18 := rfl
  rw [hn, hcopied]
  exact recognised_self rfl switchModel 0x0b _

theorem idOf_join (id : UInt16) :
    idOf (memory (fun i => (joinPayload id).getD i 0) fun _ => 0) 31 = id := by
  have hid : idOf (memory (fun i => (joinPayload id).getD i 0) fun _ => 0) 31 =
      word (hiByte id) (loByte id) := rfl
  rw [hid, word_bytes]

theorem joinType_join {w : World} {id : UInt16} (hnone : w.lookup id = none) :
    w.joinType (memory (fun i => (joinPayload id).getD i 0) fun _ => 0) 31 = some 0x0b := by
  unfold World.joinType
  rw [idOf_join, if_pos hnone, sensorType_join]

theorem joinFrame_joins {w : World} {id : UInt16} (hnone : w.lookup id = none) :
    (joinFrame id).Joins w := by
  have hlen : UInt8.ofNat (joinPayload id).length = 31 := rfl
  unfold joinFrame received Input.Joins
  rw [hlen]
  dsimp only
  rw [joinType_join hnone]
  simp

theorem joinFrame_appends {w : World} {id : UInt16} (hnone : w.lookup id = none)
    (hroom : w.devsize.toNat < devSize) : (joinFrame id).appends w = [w.newEntry id 0x0b] := by
  have hlen : UInt8.ofNat (joinPayload id).length = 31 := rfl
  unfold joinFrame received Input.appends World.appends
  rw [hlen]
  dsimp only
  rw [joinType_join hnone, idOf_join]
  exact if_pos hroom

def joins (n : ℕ) : List Input := (List.range n).map fun i => joinFrame (UInt16.ofNat (i + 1))

theorem joins_succ (n : ℕ) : joins (n + 1) = joins n ++ [joinFrame (UInt16.ofNat (n + 1))] := by
  simp [joins, List.range_succ]

def newIds (n : ℕ) : List UInt16 := (List.range n).map fun i => UInt16.ofNat (i + 1)

/-- Neither a fixed device nor one of the first `n` buttons has the next id. -/
theorem newId_fresh {n : ℕ} (hn : n ≤ 181) :
    UInt16.ofNat (n + 1) ∉ fixedDevices.map FixedDevice.id ++ newIds n := by
  have hfixed : ∀ f ∈ fixedDevices, f.id.toNat = 0 ∨ 256 ≤ f.id.toNat := by decide
  have hnew : (UInt16.ofNat (n + 1)).toNat = n + 1 := by
    rw [UInt16.toNat_ofNat']
    omega
  rw [List.mem_append, not_or]
  constructor
  · intro hmem
    obtain ⟨f, hf, heq⟩ := List.mem_map.mp hmem
    have h := hfixed f hf
    rw [heq] at h
    omega
  · intro hmem
    obtain ⟨i, hi, heq⟩ := List.mem_map.mp hmem
    have hlt : i < n := List.mem_range.mp hi
    have hval := congrArg UInt16.toNat heq
    rw [hnew, UInt16.toNat_ofNat'] at hval
    omega

theorem lookup_joins {w : World} {n : ℕ} (hn : n ≤ 181)
    (hids : w.entries.map MxjDevice.id = fixedDevices.map FixedDevice.id ++ newIds n) :
    w.lookup (UInt16.ofNat (n + 1)) = none := by
  rw [lookup_eq_none_iff]
  intro e he hid
  apply newId_fresh hn
  rw [← hids, ← hid]
  exact List.mem_map_of_mem he

theorem devsize_joins {w : World} {n : ℕ}
    (hids : w.entries.map MxjDevice.id = fixedDevices.map FixedDevice.id ++ newIds n) :
    w.devsize.toNat = 19 + n := by
  have hlen := congrArg List.length hids
  have hfixed : fixedDevices.length = 19 := rfl
  rw [List.length_map, entries_length] at hlen
  rw [hlen, List.length_append, List.length_map, hfixed, newIds, List.length_map, List.length_range]

theorem ids_started [JsonC] (now : Tm) :
    (World.started now).entries.map MxjDevice.id =
      fixedDevices.map FixedDevice.id ++ newIds 0 := by
  rw [entries_started]
  rfl

theorem ids_joins [JsonC] (now : Tm) {n : ℕ} (hn : n ≤ 181) :
    (gateway.after (World.started now) (joins n)).entries.map MxjDevice.id =
      fixedDevices.map FixedDevice.id ++ newIds n := by
  induction n with
  | zero =>
    have hnone : joins 0 = [] := rfl
    rw [hnone, gateway.after_nil, ids_started]
  | succ n ih =>
    have hids := ih (by omega)
    have hroom : (gateway.after (World.started now) (joins n)).devsize.toNat < devSize := by
      rw [devsize_joins hids, devSize]
      omega
    have happends := joinFrame_appends (lookup_joins (by omega) hids) hroom
    rw [joins_succ, gateway.after_append_singleton, entries_step, happends, List.map_append, hids,
      List.append_assoc, newIds, newIds, List.range_succ, List.map_append]
    rfl

end IdolGateway.ZbClient
