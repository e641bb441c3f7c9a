import IdolGateway.Library.UrlForm

/-!
# The post processor

`MHD_post_process` parses an url-encoded body as it arrives, segment by segment, and hands
the values to an iterator in pieces of at most `XBUF_SIZE` bytes.  A key is collected in the
buffer behind the `MHD_PostProcessor`; an escape that a segment or a piece cuts is kept in
`pp->xbuf`.  The servers that come with the library as an iterator are models of their own.
-/

namespace IdolGateway.Microhttpd

open UrlForm (amper equals percent EndsValue)

inductive MhdResult
  | no | yes
  deriving DecidableEq

/-- The states of the url-encoded branch. -/
inductive PPState
  | ppError | ppDone | ppInit | ppProcessValue | ppExpectNewLine
  deriving DecidableEq

/-- `buf[0..buffer_pos-1]` while a key is collected, the key as a text when it is complete, and
`pp->xbuf[0..xbuf_pos-1]`. -/
structure PostProcessor where
  state : PPState
  buf : List UInt8
  key : List UInt8
  xbuf : List UInt8
  valueOffset : ℕ
  deriving DecidableEq

/-- A call of the iterator: key, data, offset; the size is the length of the data. -/
structure Call where
  key : List UInt8
  data : List UInt8
  off : ℕ
  deriving DecidableEq

def xbufSize : ℕ := 512

/-- `POSTBUFFERSIZE`, and the four bytes `MHD_create_post_processor` adds to it. -/
def bufferSize : ℕ := 512 + 4

def cstr (bytes : List UInt8) : List UInt8 := bytes.takeWhile (· ≠ 0)

/-- A key, as `strcmp` sees it. -/
def keyText (key : List UInt8) : String :=
  String.ofList ((cstr key).map fun b => Char.ofNat b.toNat)

def plusByte (b : UInt8) : UInt8 := if b = 0x2b then 0x20 else b

/-- `MHD_unescape_plus` -/
def unescapePlus (val : List UInt8) : List UInt8 := val.map plusByte

def hexValue (c : UInt8) : Option UInt8 :=
  if 0x30 ≤ c ∧ c ≤ 0x39 then some (c - 0x30)
  else if 0x41 ≤ c ∧ c ≤ 0x46 then some (c - 0x37)
  else if 0x61 ≤ c ∧ c ≤ 0x66 then some (c - 0x57)
  else none

/-- White space and a plus sign before a number mean nothing to `strtoul`. -/
def Skipped (c : UInt8) : Prop := c = 0x20 ∨ (0x09 ≤ c ∧ c ≤ 0x0d) ∨ c = 0x2b

instance (c : UInt8) : Decidable (Skipped c) := inferInstanceAs (Decidable (_ ∨ _ ∨ _))

/-- The lowest byte of `strtoul` of two characters in base 16, if it reads both. -/
def strtoul16 (c d : UInt8) : Option UInt8 :=
  match hexValue d with
  | none => none
  | some lo =>
    match hexValue c with
    | some hi => some (hi * 16 + lo)
    | none => if Skipped c then some lo else if c = 0x2d then some (0 - lo) else none

/-- `MHD_http_unescape`: an escape that is cut off by the end ends the text. -/
def httpUnescape : List UInt8 → List UInt8
  | [] => []
  | b :: rest =>
    if b = percent then
      match rest with
      | c :: d :: rest' =>
        match strtoul16 c d with
        | some num => num :: httpUnescape rest'
        | none => b :: httpUnescape (c :: d :: rest')
      | _ => []
    else b :: httpUnescape rest

def unescaped (xbuf : List UInt8) : List UInt8 := httpUnescape (unescapePlus (cstr xbuf))

/-- `MHD_create_post_processor` for an url-encoded body. -/
def PostProcessor.create : PostProcessor := ⟨.ppInit, [], [], [], 0⟩

/-- What one round of the loop does: it returns, goes on with the rest of the data, or calls
the iterator first; `refused` is what is left behind when the iterator says no. -/
inductive Round
  | ret (result : MhdResult) (pp : PostProcessor)
  | goOn (pp : PostProcessor) (rest : List UInt8)
  | call (c : Call) (refused : PostProcessor) (pp : PostProcessor) (rest : List UInt8)

/-- `case PP_Init`; `equals` counts the bytes before the sign. -/
def PostProcessor.initRound (pp : PostProcessor) (data : List UInt8) : Round :=
  let key := data.takeWhile (· ≠ equals)
  if bufferSize < key.length + pp.buf.length then .ret .no { pp with state := .ppError }
  else
    let buf := pp.buf ++ key
    if key.length = data.length then .ret .yes { pp with buf := buf }
    else
      .goOn { pp with
        buf := []
        key := unescaped buf
        state := .ppProcessValue
        valueOffset := 0 } (data.drop (key.length + 1))

/-- The bytes at the end of the piece that begin an escape. -/
def kept (xbuf : List UInt8) : ℕ :=
  if xbuf.getLast? = some percent then 1
  else if xbuf.dropLast.getLast? = some percent then 2
  else 0

/-- "Are we done with the value?" -/
def PostProcessor.endValue (pp : PostProcessor) (endOfValueFound : Bool) (rest : List UInt8) :
    PostProcessor × List UInt8 :=
  match endOfValueFound, rest with
  | true, b :: rest' =>
    if b = amper then ({ pp with state := .ppInit }, rest')
    else if EndsValue b then ({ pp with state := .ppExpectNewLine }, rest)
    else (pp, rest)
  | _, _ => (pp, rest)

/-- `case PP_ProcessValue` -/
def PostProcessor.valueRound (pp : PostProcessor) (data : List UInt8) : Round :=
  let amper' := ((data.take xbufSize).takeWhile fun b => ¬ EndsValue b).length
  let endOfValueFound := (data[amper']?).any fun b => EndsValue b
  let delta := min amper' (xbufSize - pp.xbuf.length)
  let xbuf := pp.xbuf ++ data.take delta
  let rest := data.drop delta
  let pp := { pp with xbuf := xbuf.drop (xbuf.length - kept xbuf) }
  let xbuf := xbuf.take (xbuf.length - kept xbuf)
  if xbuf = [] ∧ rest = [] then .goOn pp rest
  else
    let text := unescaped xbuf
    let called := { pp with valueOffset := pp.valueOffset + text.length }
    let next := called.endValue endOfValueFound rest
    .call ⟨pp.key, text, pp.valueOffset⟩ { pp with state := .ppError } next.1 next.2

def PostProcessor.round (pp : PostProcessor) (data : List UInt8) : Round :=
  match pp.state with
  | .ppError => .ret .no pp
  | .ppDone => .ret .no { pp with state := .ppError }
  | .ppInit => pp.initRound data
  | .ppProcessValue => pp.valueRound data
  | .ppExpectNewLine =>
    match data with
    | b :: _ =>
      if b = 0x0a ∨ b = 0x0d then .ret .yes { pp with state := .ppDone } else .ret .no pp
    | [] => .ret .no pp

abbrev Iterator (σ ω : Type) := σ → Call → MhdResult × σ × List ω

structure Processed (σ ω : Type) where
  result : MhdResult
  pp : PostProcessor
  user : σ
  out : List ω

variable {σ ω : Type}

def processLoop (ikvi : Iterator σ ω) : ℕ → PostProcessor → List UInt8 → σ → Processed σ ω
  | 0, pp, _, s => ⟨.no, pp, s, []⟩
  | fuel + 1, pp, data, s =>
    if data = [] then ⟨.yes, pp, s, []⟩
    else
      match pp.round data with
      | .ret result pp => ⟨result, pp, s, []⟩
      | .goOn pp rest => processLoop ikvi fuel pp rest s
      | .call c refused pp rest =>
        let answer := ikvi s c
        match answer.1 with
        | .no => ⟨.no, refused, answer.2.1, answer.2.2⟩
        | .yes =>
          let r := processLoop ikvi fuel pp rest answer.2.1
          { r with out := answer.2.2 ++ r.out }

/-- A byte is taken in at most two rounds. -/
def loopBudget (data : List UInt8) : ℕ := 2 * data.length + 2

def postProcessUrlencoded (ikvi : Iterator σ ω) (pp : PostProcessor) (data : List UInt8) (s : σ) :
    Processed σ ω :=
  processLoop ikvi (loopBudget data) pp data s

/-- `MHD_post_process` -/
def postProcess (ikvi : Iterator σ ω) (pp : PostProcessor) (data : List UInt8) (s : σ) :
    Processed σ ω :=
  if data = [] then ⟨.yes, pp, s, []⟩ else postProcessUrlencoded ikvi pp data s

/-- `MHD_destroy_post_processor` feeds a newline to a value that is still open. -/
def destroyPostProcessor (ikvi : Iterator σ ω) (pp : PostProcessor) (s : σ) : σ × List ω :=
  if pp.state = .ppProcessValue then
    let r := postProcessUrlencoded ikvi pp [0x0a] s
    (r.user, r.out)
  else (s, [])

def listen (verdict : Call → MhdResult) : Iterator Unit Call := fun _ c => (verdict c, (), [c])

def segments (ikvi : Iterator σ ω) : Transducer (PostProcessor × σ) (List UInt8) ω where
  step s data :=
    let r := postProcess ikvi s.1 data s.2
    ((r.pp, r.user), r.out)

/-- Everything an iterator is called for that answers by `verdict`, from the creation of the
processor to its end. -/
def callsUnder (verdict : Call → MhdResult) (segs : List (List UInt8)) : List Call :=
  let pp := ((segments (listen verdict)).after (.create, ()) segs).1
  (segments (listen verdict)).outputs (.create, ()) segs ++
    (destroyPostProcessor (listen verdict) pp ()).2

abbrev takeAll : Iterator Unit Call := listen fun _ => .yes

abbrev callsOf (segs : List (List UInt8)) : List Call := callsUnder (fun _ => .yes) segs

end IdolGateway.Microhttpd
