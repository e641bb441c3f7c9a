import Mathlib.Data.UInt

/-!
# What the gateway writes on the serial line

`send_usart(data,len)` frames the first `len` bytes of `data` as `55 AA`, the
bytes, and their sum modulo 256.  The message constructors fill in the command
byte, the length byte (one less than the number of payload bytes) and the id.
-/

namespace IdolGateway.ZbClient

def xmkgClKeting1Id : UInt16 := 0xea86
def xmkgClKeting2Id : UInt16 := 0xe855
def chuanglianKeting1Id : UInt16 := 0xd692
def xmkgZhuId : UInt16 := 0xba9d
def xmkgCiId : UInt16 := 0x55f6
def xmmenciId : UInt16 := 0x535e
def ketingId : UInt16 := 0x4c35
def cantingId : UInt16 := 0x028c
def chufangId : UInt16 := 0x8dc0
def mentingId : UInt16 := 0x242d
def guodaoId : UInt16 := 0x3865
def ciwoId : UInt16 := 0xe6a4
def zhuwoId : UInt16 := 0x0c55
def xiaomirentiId : UInt16 := 0x3b6b
def xmkgWaiId : UInt16 := 0x0000
def powerCiwoId : UInt16 := 0x0c41
def chuanglianZhuwoId : UInt16 := 0x631f
def xmkgClZhuwoId : UInt16 := 0x2349
def xmloushuiCiwoId : UInt16 := 0xe320
def xmloushuiChufangId : UInt16 := 0xab13

def mxjCtrlUp : UInt8 := 0x01
def mxjRegisterRequest : UInt8 := 0x02
def mxjRegisterOk : UInt8 := 0x03
def mxjRegisterFailed : UInt8 := 0x04
def mxjGetState : UInt8 := 0x05
def mxjSendState : UInt8 := 0x06
def mxjXiaomi18 : UInt8 := 0x18
def mxjXiaomi1c : UInt8 := 0x1c

/-- The bytes one call of `send_usart` puts on the line, in order. -/
def sendUsart (data : List UInt8) (len : UInt8) : List UInt8 :=
  let sent := data.take len.toNat
  0x55 :: 0xaa :: (sent ++ [sent.sum])

structure UsartCall where
  data : List UInt8
  len : UInt8
  deriving DecidableEq, Repr

def UsartCall.payload (c : UsartCall) : List UInt8 := c.data.take c.len.toNat

def UsartCall.line (c : UsartCall) : List UInt8 := sendUsart c.data c.len

def hiByte (id : UInt16) : UInt8 := (id >>> 8).toUInt8

def loByte (id : UInt16) : UInt8 := id.toUInt8

def mxjSendCtrlMessage (id : UInt16) (len msg1 msg2 msg3 : UInt8) : UsartCall :=
  ⟨[0, len + 3, hiByte id, loByte id, msg1, msg2, msg3], 4 + len⟩

/-- Nothing is sent for a state other than the two register replies. -/
def mxjSendRegisterMessage (id : UInt16) (state : UInt8) : List UsartCall :=
  if state = mxjRegisterOk then [⟨[3, 4, hiByte id, loByte id, 1], 5⟩]
  else if state = mxjRegisterFailed then [⟨[4, 4, hiByte id, loByte id, 0], 5⟩]
  else []

def mxjSendPingMessage (id : UInt16) : UsartCall := ⟨[0x0f, 3, hiByte id, loByte id], 4⟩

def mxjGetIdxMessage (id : UInt16) : UsartCall := ⟨[0x0b, 3, hiByte id, loByte id], 4⟩

def mxjGetStateMessage (id : UInt16) : UsartCall := ⟨[5, 3, hiByte id, loByte id], 4⟩

/-- The raw payload of the living room curtains: two relay pairs of one controller. -/
def curtainData (open1 close1 open2 close2 : UInt8) : UsartCall :=
  ⟨[0, 4 + 3, hiByte chuanglianKeting1Id, loByte chuanglianKeting1Id,
    open1, close1, open2, close2], 4 + 4⟩

inductive Message
  | ctrl (id : UInt16) (len : {n : UInt8 // 1 ≤ n ∧ n ≤ 3}) (msg1 msg2 msg3 : UInt8)
  | registerOk (id : UInt16)
  | registerFailed (id : UInt16)
  | ping (id : UInt16)
  | getIdx (id : UInt16)
  | getState (id : UInt16)
  | curtain (open1 close1 open2 close2 : UInt8)

def Message.calls : Message → List UsartCall
  | ctrl id len msg1 msg2 msg3 => [mxjSendCtrlMessage id len.val msg1 msg2 msg3]
  | registerOk id => mxjSendRegisterMessage id mxjRegisterOk
  | registerFailed id => mxjSendRegisterMessage id mxjRegisterFailed
  | ping id => [mxjSendPingMessage id]
  | getIdx id => [mxjGetIdxMessage id]
  | getState id => [mxjGetStateMessage id]
  | curtain open1 close1 open2 close2 => [curtainData open1 close1 open2 close2]

/-- A frame `55 AA c L d_1 … d_(L-1) f` with `2 ≤ L ≤ 198`: the length byte counts
itself and the data bytes, and `f` is the sum of the bytes from `c` on. -/
structure Frame where
  cmd : UInt8
  data : List UInt8
  data_pos : 1 ≤ data.length
  data_le : data.length ≤ 197

namespace Frame

def lenByte (f : Frame) : UInt8 := UInt8.ofNat (f.data.length + 1)

def payload (f : Frame) : List UInt8 := f.cmd :: f.lenByte :: f.data

def bytes (f : Frame) : List UInt8 := 0x55 :: 0xaa :: (f.payload ++ [f.payload.sum])

theorem lenByte_toNat (f : Frame) : f.lenByte.toNat = f.data.length + 1 := by
  have := f.data_le
  simp only [lenByte, UInt8.toNat_ofNat']
  omega

theorem payload_length (f : Frame) : f.payload.length = f.data.length + 2 := rfl

theorem bytes_length (f : Frame) : f.bytes.length = f.data.length + 5 := by
  simp [bytes, payload_length]

end Frame

namespace Message

def frame : Message → Frame
  | ctrl id len msg1 msg2 msg3 =>
    { cmd := 0
      data := [hiByte id, loByte id, msg1, msg2, msg3].take (len.val.toNat + 2)
      data_pos := by simp
      data_le := le_trans (List.length_take_le' _ _) (by simp) }
  | registerOk id => ⟨3, [hiByte id, loByte id, 1], by simp, by simp⟩
  | registerFailed id => ⟨4, [hiByte id, loByte id, 0], by simp, by simp⟩
  | ping id => ⟨0x0f, [hiByte id, loByte id], by simp, by simp⟩
  | getIdx id => ⟨0x0b, [hiByte id, loByte id], by simp, by simp⟩
  | getState id => ⟨5, [hiByte id, loByte id], by simp, by simp⟩
  | curtain open1 close1 open2 close2 =>
    ⟨0, [hiByte chuanglianKeting1Id, loByte chuanglianKeting1Id, open1, close1, open2, close2],
      by simp, by simp⟩

theorem ctrl_len_cases (len : {n : UInt8 // 1 ≤ n ∧ n ≤ 3}) :
    len.val = 1 ∨ len.val = 2 ∨ len.val = 3 := by
  obtain ⟨n, h1, h3⟩ := len
  have h1' : 1 ≤ n.toNat := UInt8.le_iff_toNat_le.mp h1
  have h3' : n.toNat ≤ 3 := UInt8.le_iff_toNat_le.mp h3
  have hn : n.toNat = 1 ∨ n.toNat = 2 ∨ n.toNat = 3 := by omega
  rcases hn with h | h | h
  · exact Or.inl (UInt8.toNat_inj.mp h)
  · exact Or.inr (Or.inl (UInt8.toNat_inj.mp h))
  · exact Or.inr (Or.inr (UInt8.toNat_inj.mp h))

/-- Every message is one call of `send_usart`, and the length byte its
constructor fills in counts its payload. -/
theorem calls_eq (msg : Message) : ∃ c, msg.calls = [c] ∧ c.payload = msg.frame.payload := by
  cases msg with
  | ctrl id len msg1 msg2 msg3 =>
    refine ⟨_, rfl, ?_⟩
    rcases ctrl_len_cases len with h | h | h <;>
      simp [mxjSendCtrlMessage, UsartCall.payload, frame, Frame.payload, Frame.lenByte, h]
  | registerOk id => exact ⟨_, rfl, rfl⟩
  | registerFailed id => exact ⟨_, rfl, rfl⟩
  | ping id => exact ⟨_, rfl, rfl⟩
  | getIdx id => exact ⟨_, rfl, rfl⟩
  | getState id => exact ⟨_, rfl, rfl⟩
  | curtain open1 close1 open2 close2 => exact ⟨_, rfl, rfl⟩

theorem flatMap_line (msg : Message) : msg.calls.flatMap UsartCall.line = msg.frame.bytes := by
  obtain ⟨c, hc, hp⟩ := msg.calls_eq
  have htake : c.data.take c.len.toNat = msg.frame.payload := hp
  simp [hc, UsartCall.line, sendUsart, htake, Frame.bytes]

end Message

end IdolGateway.ZbClient
