import IdolGateway.ZbClient.HttpSegments
import IdolGateway.ZbClient.Joins

namespace IdolGateway.ZbClient

@[ext] structure Setting where
  devid : ℤ
  state1 : ℤ
  state2 : ℤ
  state3 : ℤ
  deriving DecidableEq

def decodeCtrl : List UInt8 → Option Setting
  | [0x55, 0xaa, 0, 6, hi, lo, s1, s2, s3, f] =>
    if f = [0, 6, hi, lo, s1, s2, s3].sum then
      some ⟨(word hi lo).toNat, s1.toNat, s2.toNat, s3.toNat⟩
    else none
  | _ => none

structure Setting.Fits (s : Setting) : Prop where
  devid : 0 ≤ s.devid ∧ s.devid < 65536
  state1 : 0 ≤ s.state1 ∧ s.state1 < 256
  state2 : 0 ≤ s.state2 ∧ s.state2 < 256
  state3 : 0 ≤ s.state3 ∧ s.state3 < 256

/-- Nothing is sent, or one frame that says just this. -/
def Setting.ForwardedBy (s : Setting) (frames : List UsartCall) : Prop :=
  frames = [] ∨ ∃ c, frames = [c] ∧ decodeCtrl c.line = some s

theorem decodeCtrl_line (id : UInt16) (msg1 msg2 msg3 : UInt8) :
    decodeCtrl (mxjSendCtrlMessage id 3 msg1 msg2 msg3).line =
      some ⟨id.toNat, msg1.toNat, msg2.toNat, msg3.toNat⟩ := by
  have hdecode : decodeCtrl (mxjSendCtrlMessage id 3 msg1 msg2 msg3).line =
      some ⟨(word (hiByte id) (loByte id)).toNat, msg1.toNat, msg2.toNat, msg3.toNat⟩ := if_pos rfl
  rw [hdecode, word_bytes]

theorem toNat_ofInt (x : ℤ) : ((UInt16.ofInt x).toNat : ℤ) = x % 65536 := by
  rw [UInt16.ofInt, UInt16.toNat_ofNat']
  omega

theorem ofInt_eq_iff (x : ℤ) : ((UInt16.ofInt x).toNat : ℤ) = x ↔ 0 ≤ x ∧ x < 65536 := by
  rw [toNat_ofInt]
  omega

/-- A state goes through two bytes into one. -/
theorem ofInt_byte_eq_iff (x : ℤ) :
    ((UInt16.ofInt x).toUInt8.toNat : ℤ) = x ↔ 0 ≤ x ∧ x < 256 := by
  have h := toNat_ofInt x
  rw [UInt16.toNat_toUInt8]
  omega

section

variable [Parsers]

def Json.setting (myObject : Json) : Setting :=
  ⟨Parsers.jsonObjectGetInt (myObject.member "devid"),
    Parsers.jsonObjectGetInt (myObject.member "state1"),
    Parsers.jsonObjectGetInt (myObject.member "state2"),
    Parsers.jsonObjectGetInt (myObject.member "state3")⟩

/-- A command for the device its number says; only `control_down` looks at the name. -/
def Json.SetsByNumber (myObject : Json) : Prop :=
  (myObject.member "type").prints "any_data" ∨
    (myObject.member "type").prints "control_down" ∧
      ∀ r ∈ roomNames, ¬ (myObject.member "name").prints r.2

theorem roomId_of_no_room {name : Json} (h : ∀ r ∈ roomNames, ¬ name.prints r.2) (id : UInt16) :
    roomId name id = id := by
  unfold roomId
  generalize roomNames = rooms at h
  induction rooms with
  | nil => rfl
  | cons r rs ih =>
    rw [List.foldl_cons, if_neg (h r List.mem_cons_self)]
    exact ih fun r' hr' => h r' (List.mem_cons_of_mem r hr')

theorem prints_unique {x : Json} {literal : String} (h : x.prints literal) (literal' : String)
    (hne : "\"" ++ literal ++ "\"" ≠ "\"" ++ literal' ++ "\"") : ¬ x.prints literal' := by
  intro h'
  unfold Json.prints at h h'
  exact hne ((of_decide_eq_true h).symm.trans (of_decide_eq_true h'))

theorem jsonCommand_setsByNumber {myObject : Json} (h : myObject.SetsByNumber) :
    jsonCommand myObject =
      [mxjSendCtrlMessage (getUInt16 (myObject.member "devid")) 3
        (getUInt16 (myObject.member "state1")).toUInt8
        (getUInt16 (myObject.member "state2")).toUInt8
        (getUInt16 (myObject.member "state3")).toUInt8] := by
  rcases h with hany | ⟨hdown, hname⟩
  · have h1 := prints_unique hany "control_down" (by decide)
    have h2 := prints_unique hany "register_ok" (by decide)
    have h3 := prints_unique hany "register_failed" (by decide)
    have h4 := prints_unique hany "ask_state" (by decide)
    simp [jsonCommand, hany, h1, h2, h3, h4]
  · have h1 := prints_unique hdown "register_ok" (by decide)
    have h2 := prints_unique hdown "register_failed" (by decide)
    have h3 := prints_unique hdown "ask_state" (by decide)
    have h4 := prints_unique hdown "any_data" (by decide)
    simp [jsonCommand, hdown, h1, h2, h3, h4, roomId_of_no_room hname]

theorem forwardedBy_iff {myObject : Json} (h : myObject.SetsByNumber) :
    myObject.setting.ForwardedBy (jsonCommand myObject) ↔ myObject.setting.Fits := by
  have hdecode : myObject.setting.ForwardedBy (jsonCommand myObject) ↔
      (⟨(getUInt16 (myObject.member "devid")).toNat,
        (getUInt16 (myObject.member "state1")).toUInt8.toNat,
        (getUInt16 (myObject.member "state2")).toUInt8.toNat,
        (getUInt16 (myObject.member "state3")).toUInt8.toNat⟩ : Setting) = myObject.setting := by
    rw [jsonCommand_setsByNumber h, Setting.ForwardedBy]
    constructor
    · rintro (hnil | ⟨c, hc, hline⟩)
      · exact absurd hnil (List.cons_ne_nil _ _)
      · rw [← List.singleton_inj.mp hc, decodeCtrl_line] at hline
        exact Option.some.inj hline
    · intro heq
      exact Or.inr ⟨_, rfl, (decodeCtrl_line _ _ _ _).trans (congrArg some heq)⟩
  rw [hdecode, Setting.ext_iff]
  simp only [getUInt16, Json.setting, ofInt_eq_iff, ofInt_byte_eq_iff]
  exact ⟨fun h => ⟨h.1, h.2.1, h.2.2.1, h.2.2.2⟩, fun h => ⟨h.1, h.2, h.3, h.4⟩⟩

/-- A JSON command that gives its device by number is forwarded faithfully exactly when
the four numbers fit. -/
theorem json_forwarded_iff (d : Daemon) (u : Upload) (n : ℕ) (myObject : Json)
    (hlen : u.contentLength = some n) (hn : 0 < n)
    (hparse : Parsers.jsonTokenerParse (cString (strncpyBlock u.body n) u.behind) = myObject)
    (hprint : JsonC.jsonObjectToJsonString myObject ≠ "null") (hsets : myObject.SetsByNumber) :
    myObject.setting.ForwardedBy ((answerUpload d u).2.1.filterMap HttpEvent.usart?) ↔
      myObject.setting.Fits := by
  have hjson : u.isJson n := by rwa [Upload.isJson, hparse]
  have hframes : u.frames = jsonCommand myObject := by
    simp only [Upload.frames, hlen, Nat.ne_of_gt hn, hjson, if_true, if_false, hparse]
  rw [frames_answerUpload, hframes]
  exact forwardedBy_iff hsets

end

def anyDataText (devid : ℕ) : List UInt8 :=
  asciiBytes ("\x7b\"type\": \"any_data\", \"devid\": " ++ toString devid ++
    ", \"state1\": 1, \"state2\": 0, \"state3\": 0\x7d")

def anyDataJson (devid : ℕ) : Json :=
  .object [("type", .string (some "any_data")), ("devid", .int devid), ("state1", .int 1),
    ("state2", .int 0), ("state3", .int 0)]

@[reducible] def anyDataParsers (devid : ℕ) : Parsers where
  jsonObjectToJsonString := Json.spaced
  jsonTokenerParse text := if text = anyDataText devid then anyDataJson devid else .null
  jsonObjectGetInt
    | .int n => n
    | _ => 0
  xmlParseMemory _ := none

def anyDataUpload (devid : ℕ) : Upload :=
  zeros.upload (anyDataText devid).length (anyDataText devid)

theorem parse_anyData (devid : ℕ)
    (hcopy : cString (strncpyBlock (anyDataUpload devid).body (anyDataText devid).length) [] =
      anyDataText devid) :
    (anyDataParsers devid).jsonTokenerParse
      (cString (strncpyBlock (anyDataUpload devid).body (anyDataText devid).length) []) =
        anyDataJson devid := if_pos hcopy

theorem json_forwarded_five :
    letI := anyDataParsers 5
    (anyDataJson 5).setting.ForwardedBy
      ((answerUpload .initial (anyDataUpload 5)).2.1.filterMap HttpEvent.usart?) :=
  (@json_forwarded_iff (anyDataParsers 5) .initial (anyDataUpload 5) _ (anyDataJson 5) rfl
    (by decide +kernel) (parse_anyData 5 (by decide +kernel)) (by decide +kernel)
    (Or.inl (by decide +kernel))).mpr ⟨by decide, by decide, by decide, by decide⟩

/-- The number 65541 commands the device 5. -/
theorem number_65541_sent_to_5 :
    letI := anyDataParsers 65541
    (anyDataJson 65541).setting.devid = 65541 ∧
      (answerUpload .initial (anyDataUpload 65541)).2.1.filterMap HttpEvent.usart? =
        [mxjSendCtrlMessage 5 3 1 0 0] ∧
      ¬ (anyDataJson 65541).setting.ForwardedBy
        ((answerUpload .initial (anyDataUpload 65541)).2.1.filterMap HttpEvent.usart?) := by
  have hsent : (@answerUpload (anyDataParsers 65541) .initial (anyDataUpload 65541)).2.1.filterMap
      HttpEvent.usart? = [mxjSendCtrlMessage 5 3 1 0 0] := by decide +kernel
  refine ⟨by decide, hsent, ?_⟩
  rw [hsent]
  rintro (hnil | ⟨c, hc, hline⟩)
  · exact absurd hnil (List.cons_ne_nil _ _)
  · rw [← List.singleton_inj.mp hc, decodeCtrl_line] at hline
    exact absurd (congrArg Setting.devid (Option.some.inj hline)) (by decide)

end IdolGateway.ZbClient
