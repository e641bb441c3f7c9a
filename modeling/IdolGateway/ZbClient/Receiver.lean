import IdolGateway.Library.Buffer
import IdolGateway.Library.Transducer
import IdolGateway.Library.WhileLoop
import IdolGateway.ZbClient.Wire

/-!
# The serial receiver

`thread()` reads one byte at a time and runs the switch over `state`.  The model
keeps its variables in `Receiver`; one byte gives the next variables, or `none`
when a loop of the switch does not end, and the list of accesses to `rxbuf` and
of calls of `recieve_usart` it makes.

`rxbuf i` is the byte at the address `rxbuf + i`.  The array ends at 200.  What lies behind
it depends on the build (it may be `FSC_Token` and `LEN_Token`) and is not modelled: with
length bytes in `2..198` nothing behind it is stored or read.
-/

namespace IdolGateway.ZbClient

/-- The values of `state`.  No other value is ever assigned, so the `default`
branch of the switch is never taken. -/
inductive RxState
  | wwState | aaState | cmdState1 | lenState | dataState | fcsState
  deriving DecidableEq, Repr

structure Receiver where
  state : RxState
  lenToken : UInt8
  fscToken : UInt8
  tempDataLen : UInt8
  rxbuf : ℕ → UInt8
  len : UInt8
  id : UInt16

def rxbufSize : ℕ := 200

inductive RxEvent
  | write (i : ℕ)
  | read (i : ℕ)
  | recieveUsart (rx : ℕ → UInt8) (len : UInt8)

def Receiver.initial : Receiver := ⟨.wwState, 0, 0, 0, fun _ => 0, 0, 0⟩

/-- An 8-bit counter is below a bound in every one of 256 tests or never leaves it. -/
def loopFuel : ℕ := 257

/-- The checksum loop: `ii`, `crcout`, and the indices of `rxbuf` read so far. -/
structure CrcVars where
  ii : UInt8
  crcout : UInt8
  reads : List ℕ

def crcGuard (lenToken : UInt8) (v : CrcVars) : Bool := v.ii.toNat < 1 + lenToken.toNat

def crcBody (rxbuf : ℕ → UInt8) (v : CrcVars) : CrcVars :=
  ⟨v.ii + 1, v.crcout + rxbuf v.ii.toNat, v.reads ++ [v.ii.toNat]⟩

/-- The second loop, whose body is the assignment `id=rxbuf[2]` that follows the
commented-out `printf`. -/
structure IdVars where
  ii : UInt8
  id : UInt16
  reads : List ℕ

def idGuard (lenToken : UInt8) (v : IdVars) : Bool := v.ii.toNat < lenToken.toNat + 1

def idBody (rxbuf : ℕ → UInt8) (v : IdVars) : IdVars :=
  ⟨v.ii + 1, (rxbuf 2).toUInt16, v.reads ++ [2]⟩

def crcLoop (rxbuf : ℕ → UInt8) (lenToken : UInt8) (fuel : ℕ) : Option CrcVars :=
  whileLoop (crcGuard lenToken) (crcBody rxbuf) fuel ⟨0, 0, []⟩

def idLoop (rxbuf : ℕ → UInt8) (lenToken : UInt8) (id : UInt16) (fuel : ℕ) : Option IdVars :=
  whileLoop (idGuard lenToken) (idBody rxbuf) fuel ⟨0, id, []⟩

namespace Receiver

def dataStep (t : Receiver) (ch : UInt8) : Option Receiver × List RxEvent :=
  let i := 2 + t.tempDataLen.toNat
  let t := { t with
    rxbuf := Function.update t.rxbuf i ch
    tempDataLen := t.tempDataLen + 1 }
  -- `LEN_Token - 1` is an int: -1 when the length byte is 0
  if (t.tempDataLen.toNat : ℤ) = (t.lenToken.toNat : ℤ) - 1 then
    (some { t with state := .fcsState }, [.write i])
  else (some t, [.write i])

def fcsStep (t : Receiver) (ch : UInt8) : Option Receiver × List RxEvent :=
  let t := { t with fscToken := ch }
  match crcLoop t.rxbuf t.lenToken loopFuel with
  | none => (none, [])
  | some c =>
    let t := { t with rxbuf := Function.update t.rxbuf (t.lenToken.toNat + 1) c.crcout }
    let crcEvents := c.reads.map RxEvent.read ++ [RxEvent.write (t.lenToken.toNat + 1)]
    if c.crcout = t.fscToken then
      let t := { t with len := t.lenToken + 1 }
      match idLoop t.rxbuf t.lenToken t.id loopFuel with
      | none => (none, crcEvents)
      | some v =>
        let t := { t with id := (v.id <<< 8) ||| (t.rxbuf 3).toUInt16 }
        (some { t with state := .wwState },
          crcEvents ++ (v.reads ++ [3]).map RxEvent.read ++
            [.recieveUsart t.rxbuf (t.lenToken + 1)])
    else (some { t with state := .wwState }, crcEvents)

def step (t : Receiver) (ch : UInt8) : Option Receiver × List RxEvent :=
  match t.state with
  | .wwState => (some (if ch = 0x55 then { t with state := .aaState } else t), [])
  | .aaState => (some { t with state := if ch = 0xaa then .cmdState1 else .wwState }, [])
  | .cmdState1 =>
    (some { t with rxbuf := Function.update t.rxbuf 0 ch, state := .lenState }, [.write 0])
  | .lenState =>
    (some { t with
      lenToken := ch
      tempDataLen := 0
      rxbuf := Function.update t.rxbuf 1 ch
      state := .dataState }, [.write 1])
  | .dataState => t.dataStep ch
  | .fcsState => t.fcsStep ch

end Receiver

/-- `thread()`; a loop that does not end swallows every later byte. -/
def thread : Transducer (Option Receiver) UInt8 RxEvent where
  step
    | none, _ => (none, [])
    | some t, ch => t.step ch

structure RxCall where
  rx : ℕ → UInt8
  len : UInt8

def RxCall.contents (c : RxCall) : List UInt8 := firstCells c.rx c.len.toNat

def RxEvent.call? : RxEvent → Option RxCall
  | .recieveUsart rx len => some ⟨rx, len⟩
  | _ => none

def calls (events : List RxEvent) : List RxCall := events.filterMap RxEvent.call?

/-- The calls `thread()` makes while it reads `bytes`. -/
def threadCalls (t : Receiver) (bytes : List UInt8) : List RxCall :=
  calls (thread.outputs (some t) bytes)

@[simp] theorem thread_step_some (t : Receiver) (ch : UInt8) :
    thread.step (some t) ch = t.step ch := rfl

@[simp] theorem thread_outputs_none (xs : List UInt8) : thread.outputs none xs = [] := by
  induction xs with
  | nil => rfl
  | cons x xs ih => exact ih

@[simp] theorem calls_nil : calls [] = [] := rfl

@[simp] theorem calls_append (xs ys : List RxEvent) : calls (xs ++ ys) = calls xs ++ calls ys :=
  List.filterMap_append

@[simp] theorem calls_reads (is : List ℕ) : calls (is.map RxEvent.read) = [] := by
  simp [calls, RxEvent.call?, List.filterMap_eq_nil_iff]

@[simp] theorem calls_cons_write (i : ℕ) (es : List RxEvent) :
    calls (.write i :: es) = calls es := rfl

@[simp] theorem calls_recieveUsart (rx : ℕ → UInt8) (len : UInt8) :
    calls [.recieveUsart rx len] = [⟨rx, len⟩] := rfl

/-- The loop over `LEN_Token + 1` bytes ends for every length byte but 255. -/
theorem crcLoop_eq (rxbuf : ℕ → UInt8) {lenToken : UInt8} (h : lenToken.toNat < 255) {fuel : ℕ}
    (hf : lenToken.toNat + 1 < fuel) :
    crcLoop rxbuf lenToken fuel =
      some ⟨lenToken + 1, (firstCells rxbuf (lenToken.toNat + 1)).sum,
        List.range (lenToken.toNat + 1)⟩ := by
  let s : ℕ → CrcVars := fun k => ⟨UInt8.ofNat k, (firstCells rxbuf k).sum, List.range k⟩
  have hchain := whileLoop_of_chain (crcGuard lenToken) (crcBody rxbuf) s
    (lenToken.toNat + 1) fuel (fun k hk => ?_) (fun k hk => ?_) ?_ hf
  · simpa [s, crcLoop, firstCells, UInt8.ofNat_add] using hchain
  · simp only [crcGuard, s, UInt8.toNat_ofNat_of_lt' (show k < 256 by omega), decide_eq_true_eq]
    omega
  · simp [crcBody, s, UInt8.toNat_ofNat_of_lt' (show k < 256 by omega), firstCells_succ,
      List.range_succ, UInt8.ofNat_add]
  · simp only [crcGuard, s, UInt8.toNat_ofNat_of_lt' (show lenToken.toNat + 1 < 256 by omega),
      decide_eq_false_iff_not]
    omega

/-- With the length byte 255 the 8-bit counter never reaches the bound 256. -/
theorem crcLoop_of_255 (rxbuf : ℕ → UInt8) (fuel : ℕ) : crcLoop rxbuf 255 fuel = none := by
  refine whileLoop_eq_none_of_invariant (fun _ => True) (fun v _ => ?_) (by simp) fuel trivial
  have := v.ii.toNat_lt
  simp [crcGuard]
  omega

theorem idLoop_eq (rxbuf : ℕ → UInt8) (id : UInt16) {lenToken : UInt8} (h : lenToken.toNat < 255)
    {fuel : ℕ} (hf : lenToken.toNat + 1 < fuel) :
    idLoop rxbuf lenToken id fuel =
      some ⟨lenToken + 1, (rxbuf 2).toUInt16, List.replicate (lenToken.toNat + 1) 2⟩ := by
  let s : ℕ → IdVars := fun k =>
    ⟨UInt8.ofNat k, if k = 0 then id else (rxbuf 2).toUInt16, List.replicate k 2⟩
  have hchain := whileLoop_of_chain (idGuard lenToken) (idBody rxbuf) s
    (lenToken.toNat + 1) fuel (fun k hk => ?_) (fun k hk => ?_) ?_ hf
  · simpa [s, idLoop, UInt8.ofNat_add] using hchain
  · simp only [idGuard, s, UInt8.toNat_ofNat_of_lt' (show k < 256 by omega), decide_eq_true_eq]
    omega
  · simp [idBody, s, List.replicate_succ', UInt8.ofNat_add]
  · simp only [idGuard, s, UInt8.toNat_ofNat_of_lt' (show lenToken.toNat + 1 < 256 by omega),
      decide_eq_false_iff_not]
    omega

end IdolGateway.ZbClient
