import IdolGateway.Library.Buffer
import IdolGateway.Library.Transducer
import IdolGateway.ZbClient.Device

/-!
# The HTTP interface

`answer_to_connection` is called several times for one request: a first call, calls
that bring upload data, and a final call that queues the page.  JSON bodies and XML
bodies are commands.  The parsers are those of json-c and libxml2.
-/

namespace IdolGateway.ZbClient

structure XmlNode where
  name : String
  content : String
  deriving DecidableEq

/-- The parsers.  `NULL` is `Json.null` for json-c; for libxml2 the outer `none` is a
document that does not parse and the inner one a document without a root. -/
class Parsers extends JsonC where
  jsonTokenerParse : List UInt8 → Json
  jsonObjectGetInt : Json → ℤ
  xmlParseMemory : List UInt8 → Option (Option (List XmlNode))

abbrev ConnId := ℕ

/-- One call with upload data, and what the call finds around it: the number in the
`Content-Length` header, the memory at the pointer to the body, the bytes between the
end of the copy and the next NUL, what `time(NULL)` gives, and what an uninitialised
pointer shows when it is printed. -/
structure Upload where
  contentLength : Option ℕ
  body : ℕ → UInt8
  behind : List UInt8
  time : ℤ
  unset : String

structure Request where
  method : String
  url : String
  upload : Option Upload

/-- The page `send_page` queues: the constant, or one of the two global buffers with
its present text. -/
inductive Page
  | errorpage
  | jsonStr (text : String)
  | strxml (text : String)
  deriving DecidableEq

inductive Unset
  | uri | fromUserName | toUserName | connectiontype | postprocessor
  deriving DecidableEq

inductive HttpEvent
  | out (o : Out)
  | page (c : ConnId) (p : Page)
  | readUnset (x : Unset)
  deriving DecidableEq

def HttpEvent.usart? : HttpEvent → Option UsartCall
  | .out o => o.usart?
  | _ => none

/-- What a call returns: `MHD_YES` with `*upload_data_size` set to 0, `MHD_NO`, the value of
`send_page`, or what a bare `return` of a function with a value leaves. -/
inductive Return
  | yes | no | queued | unspecified
  deriving DecidableEq

def Json.member (key : String) : Json → Json
  | .object members => ((members.find? fun m => m.1 = key).map Prod.snd).getD .null
  | _ => .null

section

variable [Parsers]

/-- `0 == strcmp(json_object_to_json_string(x), "\"literal\"")` -/
def Json.prints (x : Json) (literal : String) : Bool :=
  JsonC.jsonObjectToJsonString x = "\"" ++ literal ++ "\""

/-- The last room whose name is given, or the id given by number. -/
def roomId (name : Json) (id : UInt16) : UInt16 :=
  roomNames.foldl (fun id r => if name.prints r.2 then r.1 else id) id

def getUInt16 (x : Json) : UInt16 := UInt16.ofInt (Parsers.jsonObjectGetInt x)

/-- The five types of command are tested one after the other, and all of them again for
`any_data`; only `control_down` looks at the room name. -/
def jsonCommand (myObject : Json) : List UsartCall :=
  let type := myObject.member "type"
  let given := getUInt16 (myObject.member "devid")
  let state11 := (getUInt16 (myObject.member "state1")).toUInt8
  let state22 := (getUInt16 (myObject.member "state2")).toUInt8
  let state33 := (getUInt16 (myObject.member "state3")).toUInt8
  let down := type.prints "control_down"
  let id := if down then roomId (myObject.member "name") given else given
  (if down then [mxjSendCtrlMessage id 3 state11 state22 state33] else []) ++
  (if type.prints "register_ok" then mxjSendRegisterMessage id mxjRegisterOk else []) ++
  (if type.prints "register_failed" then mxjSendRegisterMessage id mxjRegisterFailed else []) ++
  (if type.prints "ask_state" then [mxjGetStateMessage id] else []) ++
  (if type.prints "any_data" then [mxjSendCtrlMessage id 3 state11 state22 state33] else [])

end

def whitelist : List String :=
  ["ogvN0w4jG360_wHow3gKLxG7wURY", "ogvN0w6AZVrJ7zbIjD58N6eEjJVY"]

/-- The twenty-four texts that are commands, and what is sent for them. -/
def contentTable : List (String × List Out) :=
  [("开客厅", [ctrl ketingId 3 1 1 1]), ("关客厅", [ctrl ketingId 3 0 0 0]),
   ("开餐厅", [ctrl cantingId 3 1 0 0]), ("关餐厅", [ctrl cantingId 3 0 0 0]),
   ("开厨房", [ctrl chufangId 3 1 0 0]), ("关厨房", [ctrl chufangId 3 0 0 0]),
   ("开门厅", [ctrl mentingId 3 1 0 0]), ("关门厅", [ctrl mentingId 3 0 0 0]),
   ("开主卧", [ctrl zhuwoId 3 1 0 0]), ("关主卧", [ctrl zhuwoId 3 0 0 0]),
   ("开次卧", [ctrl ciwoId 3 1 0 0]), ("关次卧", [ctrl ciwoId 3 0 0 0]),
   ("开过道", [ctrl guodaoId 3 2 2 1]), ("关过道", [ctrl guodaoId 3 2 2 0]),
   ("开厕所", [ctrl guodaoId 3 1 2 2]), ("关厕所", [ctrl guodaoId 3 0 2 2]),
   ("开次卧插座", [ctrl powerCiwoId 1 1 2 2]), ("关次卧插座", [ctrl powerCiwoId 1 0 2 2]),
   ("关主卧窗帘",
    [ctrl chuanglianZhuwoId 3 0 0 1, .pause, ctrl chuanglianZhuwoId 3 0 0 0]),
   ("开主卧窗帘",
    [ctrl chuanglianZhuwoId 3 1 0 0, .pause, ctrl chuanglianZhuwoId 3 0 0 0]),
   ("关客厅纱帘", [.usart (curtainData 0 1 2 2), .pause, .usart (curtainData 0 0 2 2)]),
   ("开客厅纱帘", [.usart (curtainData 1 0 2 2), .pause, .usart (curtainData 0 0 2 2)]),
   ("关客厅布帘", [.usart (curtainData 2 2 0 1), .pause, .usart (curtainData 2 2 0 0)]),
   ("开客厅布帘", [.usart (curtainData 2 2 1 0), .pause, .usart (curtainData 2 2 0 0)])]

def contentHelp : String :=
  "eg：开客厅、关客厅、开次卧、开过道、开门厅、开厨房、开餐厅、开厕所、开次卧插座、关次卧插座、" ++
  "开主卧窗帘、关主卧窗帘、开客厅纱帘、关客厅纱帘、开客厅布帘、关客厅布帘"

def contentCommand (content : String) : Option (List Out) :=
  (contentTable.find? fun e => e.1 = content).map Prod.snd

structure XmlVars where
  uri : Option String
  fromUserName : Option String
  toUserName : Option String

def XmlVars.start : XmlVars := ⟨none, none, none⟩

/-- The text of the reply: sender and receiver change places, and `%d` prints the time as
an int. -/
def replyText (u : Upload) (v : XmlVars) (strData : String) : String :=
  "<xml><ToUserName><![CDATA[" ++ v.fromUserName.getD u.unset ++
  "]]></ToUserName><FromUserName><![CDATA[" ++ v.toUserName.getD u.unset ++
  "]]></FromUserName><CreateTime>" ++ toString (Int32.ofInt u.time) ++
  "</CreateTime><MsgType><![CDATA[text]]></MsgType><Content><![CDATA[" ++ strData ++
  "]]></Content></xml>"

def readIfUnset (p : Option String) (x : Unset) : List HttpEvent :=
  if p = none then [.readUnset x] else []

structure XmlRun where
  strxml : String
  events : List HttpEvent
  rejected : Bool

/-- The loop `while (cur != NULL)`; a sender outside the whitelist ends the call. -/
def xmlLoop (u : Upload) (v : XmlVars) (strxml : String) : List XmlNode → XmlRun
  | [] => ⟨strxml, readIfUnset v.uri .uri, false⟩
  | cur :: next =>
    if cur.name = "CreateTime" then
      xmlLoop u { v with uri := some cur.content } strxml next
    else if cur.name = "FromUserName" then
      if cur.content ∈ whitelist then
        xmlLoop u { v with uri := some cur.content, fromUserName := some cur.content } strxml next
      else ⟨strxml, [], true⟩
    else if cur.name = "ToUserName" then
      xmlLoop u { v with uri := some cur.content, toUserName := some cur.content } strxml next
    else if cur.name = "MsgType" then
      xmlLoop u { v with uri := some cur.content } strxml next
    else if cur.name = "Content" then
      let command := contentCommand cur.content
      let strData := if command = none then contentHelp else cur.content
      let r := xmlLoop u { v with uri := some cur.content } (replyText u v strData) next
      { r with events := (command.getD []).map .out ++
          (readIfUnset v.fromUserName .fromUserName ++ readIfUnset v.toUserName .toUserName) ++
          r.events }
    else xmlLoop u v strxml next

def xmlBranch (u : Upload) (strxml : String) : Option (Option (List XmlNode)) → XmlRun
  | some (some children) => xmlLoop u .start strxml children
  | _ => ⟨strxml, [], false⟩

/-- The globals of the HTTP thread.  A connection is open when its `*con_cls` is set. -/
structure Daemon where
  openConn : ConnId → Bool
  postType : ℕ
  strxml : String
  jsonStr : Option String
  permitjoin : Bool

def strncpyBlock (src : ℕ → UInt8) (n : ℕ) : List UInt8 :=
  let s := (firstCells src n).takeWhile (· ≠ 0)
  s ++ List.replicate (n - s.length) 0

/-- The C string that starts with a block: it runs on behind a block without a NUL. -/
def cString (block behind : List UInt8) : List UInt8 :=
  (block ++ behind).takeWhile (· ≠ 0)

section

variable [Parsers]

def answerUpload (d : Daemon) (u : Upload) : Daemon × List HttpEvent × Return :=
  match u.contentLength with
  | none => ({ d with postType := 0 }, [], .yes)
  | some len2 =>
    if len2 ≠ 0 then
      let reBody := strncpyBlock u.body len2
      let myObject := Parsers.jsonTokenerParse (cString reBody u.behind)
      if JsonC.jsonObjectToJsonString myObject ≠ "null" then
        ({ d with postType := 1 }, (jsonCommand myObject).map fun c => .out (.usart c), .yes)
      else
        let r := xmlBranch u d.strxml (Parsers.xmlParseMemory reBody)
        ({ d with postType := 2, strxml := r.strxml }, r.events,
          if r.rejected then .unspecified else .yes)
    else (d, [], .yes)

end

def Daemon.postPage (d : Daemon) : Page :=
  if d.postType = 2 then .strxml d.strxml
  else if d.postType = 1 then
    match d.jsonStr with
    | some text => .jsonStr text
    | none => .errorpage
  else .errorpage

def Daemon.getPage (d : Daemon) : Page :=
  match d.jsonStr with
  | some text => .jsonStr text
  | none => .errorpage

def answerToConnection [Parsers] (d : Daemon) (c : ConnId) (r : Request) :
    Daemon × List HttpEvent × Return :=
  if d.openConn c = false then
    ({ d with openConn := Function.update d.openConn c true }, [], .yes)
  else if r.method = "GET" then (d, [.page c d.getPage], .queued)
  else if r.method = "POST" then
    let d := if r.url = "/zbClient/API/permit" then { d with permitjoin := true } else d
    match r.upload with
    | some u => answerUpload d u
    | none => (d, [.page c d.postPage], .queued)
  else (d, [.page c .errorpage], .queued)

/-- `con_info` comes from `malloc`; `connectiontype` is whatever it holds. -/
def requestCompleted (d : Daemon) (c : ConnId) (connectiontype : ℤ) : Daemon × List HttpEvent :=
  if d.openConn c = false then (d, [])
  else
    ({ d with openConn := Function.update d.openConn c false },
      .readUnset .connectiontype :: if connectiontype = 1 then [.readUnset .postprocessor] else [])

/-- One call into the HTTP thread, or a rebuilt `json_str`. -/
inductive HttpCall
  | answer (c : ConnId) (r : Request)
  | completed (c : ConnId) (connectiontype : ℤ)
  | buildJson (text : String)

def daemon [Parsers] : Transducer Daemon HttpCall HttpEvent where
  step d
    | .answer c r => ((answerToConnection d c r).1, (answerToConnection d c r).2.1)
    | .completed c connectiontype => requestCompleted d c connectiontype
    | .buildJson text => ({ d with jsonStr := some text }, [])

/-- `main` has allocated `json_str` when it starts the daemon. -/
def Daemon.initial : Daemon := ⟨fun _ => false, 0, "", some "", false⟩

end IdolGateway.ZbClient
