import IdolGateway.Library.Buffer
import IdolGateway.Library.Transducer
import IdolGateway.ZbClient.Wire

/-!
# The link of the first generation

The older server frames a command as ten bytes `AA C0`, id, three states, a spare
byte, the sum of the six and `AB`.  Its `thread()` waits for the two header bytes,
stores seven bytes in `rebuf` and looks at the eighth.  The index `i` is a local that
survives from frame to frame.
-/

namespace IdolGateway.Zigbee

open ZbClient (hiByte loByte)

/-- The ten bytes of `txbuf`, in order. -/
def sendUsart (id : UInt16) (state1 state2 state3 : UInt8) : List UInt8 :=
  [0xaa, 0xc0, hiByte id, loByte id, state1, state2, state3, 0,
    hiByte id + loByte id + state1 + state2 + state3, 0xab]

structure SendCall where
  id : UInt16
  state1 : UInt8
  state2 : UInt8
  state3 : UInt8
  deriving DecidableEq, Repr

namespace SendCall

def line (c : SendCall) : List UInt8 := sendUsart c.id c.state1 c.state2 c.state3

def received (c : SendCall) : List UInt8 :=
  [hiByte c.id, loByte c.id, c.state1, c.state2, c.state3, 0,
    hiByte c.id + loByte c.id + c.state1 + c.state2 + c.state3 + 0]

end SendCall

/-- The values of `rx_step`; no other is ever assigned. -/
inductive RxStep
  | startState | aaState | c0State
  deriving DecidableEq, Repr

structure Receiver where
  rxStep : RxStep
  i : UInt8
  rebuf : ℕ → UInt8

namespace Receiver

/-- `temp2`, an 8-bit sum. -/
def temp2 (t : Receiver) : UInt8 :=
  t.rebuf 0 + t.rebuf 1 + t.rebuf 2 + t.rebuf 3 + t.rebuf 4 + t.rebuf 5

/-- One byte; a frame whose checksum is right is printed from `rebuf[0..6]`. -/
def step (t : Receiver) (ch : UInt8) : Receiver × List (List UInt8) :=
  match t.rxStep with
  | .startState => (if ch = 0xaa then { t with rxStep := .aaState } else t, [])
  -- a byte that is not the second header byte is passed over
  | .aaState => (if ch = 0xc0 then { t with rxStep := .c0State } else t, [])
  | .c0State =>
    if t.i < 7 then
      ({ t with rebuf := Function.update t.rebuf t.i.toNat ch, i := t.i + 1 }, [])
    else
      ({ t with rxStep := .startState, i := 0 },
        if ch = 0xab ∧ t.rebuf 6 = t.temp2 then [firstCells t.rebuf 7] else [])

def idle (rebuf : ℕ → UInt8) : Receiver := ⟨.startState, 0, rebuf⟩

end Receiver

/-- `thread()`; its outputs are the frames accepted. -/
def thread : Transducer Receiver UInt8 (List UInt8) := ⟨Receiver.step⟩

@[simp] theorem thread_step (t : Receiver) (ch : UInt8) : thread.step t ch = t.step ch := rfl

structure Frame where
  body : List UInt8
  length_body : body.length = 6

namespace Frame

def payload (f : Frame) : List UInt8 := f.body ++ [f.body.sum]

def bytes (f : Frame) : List UInt8 := 0xaa :: 0xc0 :: (f.payload ++ [0xab])

theorem length_payload (f : Frame) : f.payload.length = 7 := by
  simp [payload, f.length_body]

theorem length_bytes (f : Frame) : f.bytes.length = 10 := by
  simp [bytes, f.length_payload]

end Frame

def SendCall.frame (c : SendCall) : Frame :=
  ⟨[hiByte c.id, loByte c.id, c.state1, c.state2, c.state3, 0], rfl⟩

theorem SendCall.payload_frame (c : SendCall) : c.frame.payload = c.received := by
  simp [frame, Frame.payload, received, UInt8.add_assoc]

theorem SendCall.bytes_frame (c : SendCall) : c.frame.bytes = c.line := by
  simp [Frame.bytes, c.payload_frame, received, line, sendUsart]

namespace Receiver

variable (t : Receiver) (ch : UInt8)

theorem step_start (h : t.rxStep = .startState) :
    t.step ch = (if ch = 0xaa then { t with rxStep := .aaState } else t, []) := by
  rw [step, h]

theorem step_aa (h : t.rxStep = .aaState) :
    t.step ch = (if ch = 0xc0 then { t with rxStep := .c0State } else t, []) := by
  rw [step, h]

theorem step_body (h : t.rxStep = .c0State) (hi : t.i < 7) :
    t.step ch =
      ({ t with rebuf := Function.update t.rebuf t.i.toNat ch, i := t.i + 1 }, []) := by
  rw [step, h]
  exact if_pos hi

theorem step_last (h : t.rxStep = .c0State) (hi : t.i = 7) :
    t.step ch = ({ t with rxStep := .startState, i := 0 },
      if ch = 0xab ∧ t.rebuf 6 = t.temp2 then [firstCells t.rebuf 7] else []) := by
  rw [step, h]
  exact if_neg (by simp [hi])

theorem temp2_eq : t.temp2 = (firstCells t.rebuf 6).sum := by
  simp [temp2, firstCells, List.range_succ, UInt8.add_assoc]

end Receiver

section Feed

variable {t : Receiver}

theorem feed_body (bs : List UInt8) (h : t.rxStep = .c0State) (hlen : t.i.toNat + bs.length ≤ 7) :
    thread.after t bs =
        { t with rebuf := writeAt t.rebuf t.i.toNat bs, i := t.i + UInt8.ofNat bs.length } ∧
      thread.outputs t bs = [] := by
  induction bs generalizing t with
  | nil => simp
  | cons b bs ih =>
    rw [List.length_cons] at hlen
    have hi : t.i < 7 := UInt8.lt_iff_toNat_lt.mpr (by simp only [UInt8.reduceToNat]; omega)
    have hnext : (t.i + 1).toNat = t.i.toNat + 1 := by
      rw [UInt8.toNat_add]
      exact Nat.mod_eq_of_lt (by simp only [UInt8.reduceToNat]; omega)
    obtain ⟨hafter, hout⟩ := ih
      (t := { t with rebuf := Function.update t.rebuf t.i.toNat b, i := t.i + 1 }) h
      (by dsimp only; omega)
    rw [Transducer.after_cons, Transducer.outputs_cons, thread_step, t.step_body b h hi]
    dsimp only
    rw [hafter, hout, hnext]
    simp [UInt8.ofNat_add, UInt8.add_assoc, UInt8.add_comm 1]

/-- The byte behind the seven decides, and resets the index. -/
theorem step_full (rebuf : ℕ → UInt8) {body : List UInt8} (hbody : body.length = 6)
    (crc ch : UInt8) :
    (⟨.c0State, 7, writeAt rebuf 0 (body ++ [crc])⟩ : Receiver).step ch =
      (.idle (writeAt rebuf 0 (body ++ [crc])),
        if ch = 0xab ∧ crc = body.sum then [body ++ [crc]] else []) := by
  have hlen : (body ++ [crc]).length = 7 := by simp [hbody]
  have hall : firstCells (writeAt rebuf 0 (body ++ [crc])) 7 = body ++ [crc] := by
    rw [← hlen]
    exact firstCells_writeAt rebuf _
  have hsplit : firstCells (writeAt rebuf 0 (body ++ [crc])) 6 ++
      [writeAt rebuf 0 (body ++ [crc]) 6] = body ++ [crc] := by
    rw [← firstCells_succ, hall]
  obtain ⟨hsix, hcrc⟩ := List.append_inj hsplit (by simp [hbody])
  rw [Receiver.step_last _ ch rfl rfl, Receiver.temp2_eq]
  simp only [hsix, hall, (List.cons.inj hcrc).1]
  rfl

/-- A header, seven bytes and a trailer. -/
theorem feed_frame (rebuf : ℕ → UInt8) {body : List UInt8} (hbody : body.length = 6)
    (crc ch : UInt8) :
    thread.after (.idle rebuf) (0xaa :: 0xc0 :: (body ++ [crc] ++ [ch])) =
        .idle (writeAt rebuf 0 (body ++ [crc])) ∧
      thread.outputs (.idle rebuf) (0xaa :: 0xc0 :: (body ++ [crc] ++ [ch])) =
        if ch = 0xab ∧ crc = body.sum then [body ++ [crc]] else [] := by
  have hlen : (body ++ [crc]).length = 7 := by simp [hbody]
  obtain ⟨hafter, hout⟩ :=
    feed_body (t := ⟨.c0State, 0, rebuf⟩) (body ++ [crc]) rfl (by simp [hbody])
  have hseven : thread.after ⟨.c0State, 0, rebuf⟩ (body ++ [crc]) =
      ⟨.c0State, 7, writeAt rebuf 0 (body ++ [crc])⟩ := by
    rw [hafter, hlen]
    rfl
  have hhead : thread.after (.idle rebuf) [0xaa, 0xc0] = ⟨.c0State, 0, rebuf⟩ := rfl
  have hquiet : thread.outputs (.idle rebuf) [0xaa, 0xc0] = [] := rfl
  have hbytes : 0xaa :: 0xc0 :: (body ++ [crc] ++ [ch]) =
      [0xaa, 0xc0] ++ ((body ++ [crc]) ++ [ch]) := rfl
  rw [hbytes, Transducer.after_append, Transducer.outputs_append, hhead, hquiet,
    Transducer.after_append, Transducer.outputs_append, hseven, hout, Transducer.after_cons,
    Transducer.outputs_cons, thread_step, step_full rebuf hbody]
  simp

end Feed

/-- Bytes that cannot start a frame. -/
abbrev Noise := {g : List UInt8 // 0xaa ∉ g}

theorem feed_noise (rebuf : ℕ → UInt8) (g : Noise) :
    thread.after (.idle rebuf) g.val = .idle rebuf ∧ thread.outputs (.idle rebuf) g.val = [] := by
  obtain ⟨g, hg⟩ := g
  dsimp only
  induction g with
  | nil => exact ⟨rfl, rfl⟩
  | cons b g ih =>
    rw [List.mem_cons, not_or] at hg
    obtain ⟨hb, hg⟩ := hg
    have hstep : (Receiver.idle rebuf).step b = (.idle rebuf, []) := by
      rw [Receiver.step_start _ b rfl, if_neg (Ne.symm hb)]
    rw [Transducer.after_cons, Transducer.outputs_cons, thread_step, hstep]
    exact ih hg

def lineOf (sent : List (Noise × SendCall)) (rest : Noise) : List UInt8 :=
  sent.flatMap (fun p => p.1.val ++ p.2.line) ++ rest.val

theorem feed_call (rebuf : ℕ → UInt8) (c : SendCall) :
    ∃ rebuf', thread.after (.idle rebuf) c.line = .idle rebuf' ∧
      thread.outputs (.idle rebuf) c.line = [c.received] := by
  obtain ⟨hafter, hout⟩ := feed_frame rebuf c.frame.length_body c.frame.body.sum 0xab
  rw [← c.bytes_frame, ← c.payload_frame]
  refine ⟨_, hafter, ?_⟩
  rw [if_pos ⟨rfl, rfl⟩] at hout
  exact hout

/-- Every call is accepted as one frame, in order, and the receiver ends as it began. -/
theorem link_round_trip (rebuf : ℕ → UInt8) (sent : List (Noise × SendCall)) (rest : Noise) :
    thread.outputs (.idle rebuf) (lineOf sent rest) = sent.map (fun p => p.2.received) ∧
      (thread.after (.idle rebuf) (lineOf sent rest)).rxStep = .startState ∧
      (thread.after (.idle rebuf) (lineOf sent rest)).i = 0 := by
  -- what is left in `rebuf` differs from call to call
  induction sent generalizing rebuf with
  | nil =>
    obtain ⟨hafter, hout⟩ := feed_noise rebuf rest
    have hline : lineOf [] rest = rest.val := rfl
    rw [hline, hafter, hout]
    exact ⟨rfl, rfl, rfl⟩
  | cons p sent ih =>
    obtain ⟨gap, c⟩ := p
    obtain ⟨hgap, hgapOut⟩ := feed_noise rebuf gap
    obtain ⟨rebuf', hcall, hcallOut⟩ := feed_call rebuf c
    have hline : lineOf ((gap, c) :: sent) rest = gap.val ++ (c.line ++ lineOf sent rest) := by
      simp [lineOf]
    rw [hline, Transducer.after_append, Transducer.outputs_append, hgap, hgapOut,
      Transducer.after_append, Transducer.outputs_append, hcall, hcallOut, (ih rebuf').1]
    exact ⟨rfl, (ih rebuf').2⟩

example : thread.outputs (.idle fun _ => 0) (lineOf [(⟨[0xc0, 1], by decide⟩, ⟨0xaac0, 0xab, 2, 0⟩)]
    ⟨[0xab], by decide⟩) = [[0xaa, 0xc0, 0xab, 2, 0, 0, 0x17]] := by decide

end IdolGateway.Zigbee
