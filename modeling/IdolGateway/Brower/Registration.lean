import IdolGateway.Brower.Table
import IdolGateway.ZbClient.Joins

namespace IdolGateway.Brower

open Procedure
open ZbClient (Json mxjRegisterRequest mxjRegisterOk mxjXiaomi18 hiByte loByte word word_bytes)

def Input.Requests (x : Input) (id : UInt16) : Prop :=
  ∃ rx behind len, x.event = .frame rx behind len ∧ rx 0 = mxjRegisterRequest ∧
    frameId rx len = id

/-- The step answers REGISTER_OK to `id`. -/
def Acknowledged (out : List Out) (id : UInt16) : Prop :=
  ∃ c ∈ mxjSendRegisterMessage id mxjRegisterOk, .usart c ∈ out

section

variable {w w' : World}

theorem World.Grows.lookup_ne_none (h : w.Grows w') {id : ℤ} (hid : w.lookup id ≠ none) :
    w'.lookup id ≠ none := by
  obtain ⟨i, hi⟩ := Option.ne_none_iff_exists'.mp hid
  apply Brower.lookup_ne_none (lt_of_lt_of_le (lookup_lt hi) h.devsize_le)
  rw [MxjDevice.HasId, id_of_label (h.label i (lookup_lt hi))]
  exact lookup_hasId hi

theorem lookup_append (hn : w.devsize.toNat < devSize) (id : UInt16) (type idx : UInt8) :
    (w.append id type idx).lookup id.toNat ≠ none := by
  apply lookup_ne_none (i := w.devsize.toNat)
  · rw [devsize_append_of_lt hn]
    exact Nat.lt_succ_self _
  · rw [mxjDevice_append, if_pos ⟨rfl, hn⟩]
    rfl

variable [Tokener]

/-- A request appends a device that is not in the table, and is answered. -/
theorem step_request {x : Input} {id : UInt16} (hx : x.Requests id) :
    Acknowledged (server.step w x).2 id ∧ ∃ type idx, (server.step w x).1 =
      if w.lookup id.toNat = none then (w.append id type idx).publish else w := by
  obtain ⟨event, outside⟩ := x
  obtain ⟨rx, behind, len, rfl, hcmd, hid⟩ := hx
  have hstep : server.step w ⟨.frame rx behind len, outside⟩ =
      (((registerRequest rx id).run outside w).state,
        ((registerRequest rx id).run outside w).out) := by
    change (((recieveUsart rx behind len).run outside w).state,
      ((recieveUsart rx behind len).run outside w).out) = _
    rw [recieveUsart, hcmd, hid, if_neg (by decide), if_pos rfl]
  rw [hstep]
  constructor
  · refine ⟨_, List.mem_cons_self, ?_⟩
    rw [registerRequest, run_bind_out, run_bind_out, run_emit]
    exact List.mem_append_right _ (List.mem_append_right _ List.mem_cons_self)
  · refine ⟨rx 4, rx 5, ?_⟩
    rw [registerRequest, run_bind_state, run_findDev, run_bind_state, run_emit, run_when]
    split_ifs
    · rw [run_appendDevice]
    · rfl

/-- After the request the device is found, if there was room for it. -/
theorem lookup_step_request {x : Input} {id : UInt16} (hx : x.Requests id)
    (hw : w.devsize.toNat ≤ devSize) :
    (server.step w x).1.lookup id.toNat ≠ none ↔ ¬ w.NoRoomFor id := by
  obtain ⟨-, type, idx, hstep⟩ := step_request hx (w := w)
  rw [hstep]
  by_cases hfound : w.lookup id.toNat = none
  · rw [if_pos hfound]
    by_cases hn : w.devsize.toNat < devSize
    · have hroom : ¬ w.NoRoomFor id := fun h => absurd h.2 (ne_of_lt hn)
      exact iff_of_true (lookup_append hn id type idx) hroom
    · rw [append_of_full hn]
      exact iff_of_false (fun h => h hfound) (fun h => h ⟨hfound, by omega⟩)
  · rw [if_neg hfound]
    exact iff_of_true hfound fun h => hfound h.1

/-- In the run, every device is found from its REGISTER_OK on. -/
def RegistrationsKept (xs : List Input) : Prop :=
  ∀ pre x post rest id, xs = pre ++ x :: (post ++ rest) → x.Requests id →
    Acknowledged (server.step (server.after .started pre) x).2 id →
    (server.after .started (pre ++ x :: post)).lookup id.toNat ≠ none

theorem storesInside_of_request {x : Input} {id : UInt16} (hx : x.Requests id) :
    x.event.StoresInside w ↔ ¬ w.NoRoomFor id := by
  obtain ⟨rx, behind, len, hevent, hcmd, rfl⟩ := hx
  have h18 : rx 0 ≠ mxjXiaomi18 := by rw [hcmd]; decide
  rw [hevent]
  constructor
  · intro h
    exact h.1 hcmd
  · intro h
    exact ⟨fun _ => h, fun h => absurd h h18⟩

/-- In a run in which no other step stores outside the arrays, registrations are kept exactly if
the requests do not either: if none of an unknown device meets a full table. -/
theorem registrations_kept_iff (xs : List Input)
    (hother : server.Along (fun w x => (∀ id, ¬ x.Requests id) → x.event.StoresInside w)
      .started xs) :
    RegistrationsKept xs ↔ StoresInside xs := by
  unfold StoresInside
  rw [Transducer.along_iff] at hother ⊢
  constructor
  · intro h pre x post hxs
    by_cases hrequest : ∃ id, x.Requests id
    · obtain ⟨id, hx⟩ := hrequest
      have hfound := h pre x [] post id hxs hx (step_request hx).1
      rw [Transducer.after_append_singleton] at hfound
      rw [storesInside_of_request hx]
      exact (lookup_step_request hx (valid_after pre).devsize_le).mp hfound
    · exact hother pre x post hxs (not_exists.mp hrequest)
  · intro h pre x post rest id hxs hx _
    have hroom := (storesInside_of_request hx).mp (h pre x (post ++ rest) hxs)
    have hfound := (lookup_step_request hx (valid_after pre).devsize_le).mpr hroom
    have hvalid : (server.step (server.after .started pre) x).1.Valid := by
      rw [← Transducer.after_append_singleton]
      exact valid_after (pre ++ [x])
    rw [Transducer.after_append]
    exact (good_after hvalid post).2.lookup_ne_none hfound

end

/-- A light registers, reports its states, and is configured for all channels. -/
def keptText : String :=
  "\x7b\"devices\":[\x7b\"id\":1,\"control\":\x7b\"devid\":2,\"lights\":[0,1,2]\x7d," ++
  "\"status\":[0,1,1]\x7d]\x7d"

def keptDocument : Json :=
  .object [("devices", .array [.object [("id", .int 1),
    ("control", .object [("devid", .int 2), ("lights", .array [.int 0, .int 1, .int 2])]),
    ("status", .array [.int 0, .int 1, .int 1])]])]

def keptRun : List Input :=
  [received [2, 5, 0, 1, 5, 2], received [6, 6, 0, 1, 1, 0, 1], posted keptText]

theorem registrations_kept_run :
    letI := tabled keptText keptDocument
    RegistrationsKept keptRun := by
  let _ := tabled keptText keptDocument
  have hinside : StoresInside keptRun := by decide +kernel
  refine (registrations_kept_iff keptRun ?_).mpr hinside
  refine server.along_mono ?_ hinside
  intro w x h _
  exact h

def registerFrame (n : ℕ) : Input :=
  received [2, 5, hiByte (UInt16.ofNat n), loByte (UInt16.ofNat n), 5, 2]

theorem registerFrame_requests (n : ℕ) : (registerFrame n).Requests (UInt16.ofNat n) :=
  ⟨_, _, _, rfl, rfl, word_bytes _⟩

theorem hasId_ofNat {d : MxjDevice} {m n : ℕ} (hd : d.id = UInt16.ofNat m) (hm : m ≤ 200)
    (hn : n ≤ 200) : d.HasId (UInt16.ofNat n).toNat ↔ m = n := by
  have hsize : UInt16.size = 65536 := rfl
  rw [MxjDevice.HasId, hd, UInt16.toNat_ofNat_of_lt' (by omega),
    UInt16.toNat_ofNat_of_lt' (by omega)]
  omega

section

variable [Tokener]

theorem after_registers (n : ℕ) (hn : n ≤ 200) :
    let w := server.after .started ((List.range n).map registerFrame)
    w.devsize.toNat = n ∧ ∀ i < n, (w.mxjDevice i).id = UInt16.ofNat i := by
  induction n with
  | zero => exact ⟨rfl, fun i hi => absurd hi (Nat.not_lt_zero i)⟩
  | succ n ih =>
    obtain ⟨hsize, hids⟩ := ih (by omega)
    rw [List.range_succ, List.map_append, List.map_singleton, Transducer.after_append_singleton]
    generalize server.after .started ((List.range n).map registerFrame) = w at hsize hids
    obtain ⟨-, type, idx, hstep⟩ := step_request (registerFrame_requests n) (w := w)
    have hnew : w.lookup (UInt16.ofNat n).toNat = none := by
      apply lookup_eq_none.mpr
      intro i hi hid
      rw [hsize] at hi
      rw [hasId_ofNat (hids i hi) (by omega) (by omega)] at hid
      omega
    have hroom : w.devsize.toNat < devSize := by
      rw [hsize]
      exact hn
    rw [hstep, if_pos hnew]
    refine ⟨by rw [← hsize]; exact devsize_append_of_lt hroom _ type idx, ?_⟩
    intro i hi
    change ((w.append _ type idx).mxjDevice i).id = _
    rw [mxjDevice_append, hsize]
    by_cases hin : i = n
    · rw [if_pos ⟨hin, hn⟩, hin]
    · rw [if_neg (fun h => hin h.1)]
      exact hids i (by omega)

theorem last_not_kept :
    ¬ RegistrationsKept ((List.range 201).map registerFrame) := by
  intro h
  obtain ⟨hsize, hids⟩ := after_registers 200 (le_refl _)
  have hsplit : (List.range 201).map registerFrame =
      (List.range 200).map registerFrame ++ registerFrame 200 :: ([] ++ []) := by
    rw [List.range_succ, List.map_append]
    rfl
  have hfound := h _ _ [] [] _ hsplit (registerFrame_requests 200)
    (step_request (registerFrame_requests 200)).1
  rw [Transducer.after_append_singleton] at hfound
  apply (lookup_step_request (registerFrame_requests 200) (le_of_eq hsize)).mp hfound
  refine ⟨?_, hsize⟩
  apply lookup_eq_none.mpr
  intro i hi hid
  rw [hsize] at hi
  rw [hasId_ofNat (hids i hi) (by omega) (by omega)] at hid
  omega

end

/-- The last of two hundred and one devices is answered, and not found. -/
theorem registration_lost :
    letI := tabled "" .null
    ¬ RegistrationsKept ((List.range 201).map registerFrame) :=
  letI := tabled "" .null
  last_not_kept

end IdolGateway.Brower
