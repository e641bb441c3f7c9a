import IdolGateway.ZbClient.HttpIsolation

/-!
# A body that arrives in pieces

`answer_to_connection` is called once for each segment of a body.  It takes what the read
buffer holds from the segment on, as many bytes as the `Content-Length` says, for the whole
body, and keeps nothing for the next segment.  So the segments are bodies of their own:
what they do together is what they do one after another.
-/

namespace IdolGateway.ZbClient

/-- What a call with upload data does: the frames it sends, and what it sets `post_type`
and `strxml` to. -/
@[ext] structure Effect where
  frames : List UsartCall
  kind : Option ℕ
  reply : Option String
  deriving DecidableEq

def Effect.idle : Effect := ⟨[], none, none⟩

def Effect.andThen (e e' : Effect) : Effect :=
  ⟨e.frames ++ e'.frames, e'.kind.or e.kind, e'.reply.or e.reply⟩

/-- The effect shows on the frames sent between two states of the daemon. -/
structure Effect.Shows (e : Effect) (d : Daemon) (frames : List UsartCall) (d' : Daemon) : Prop where
  frames : frames = e.frames
  postType : d'.postType = e.kind.getD d.postType
  strxml : d'.strxml = e.reply.getD d.strxml

theorem Effect.Shows.andThen {e e' : Effect} {d d' d'' : Daemon} {fs fs' : List UsartCall}
    (h : e.Shows d fs d') (h' : e'.Shows d' fs' d'') : (e.andThen e').Shows d (fs ++ fs') d'' where
  frames := by
    rw [h.frames, h'.frames]
    rfl
  postType := by
    rw [h'.postType, h.postType]
    cases hk : e'.kind <;> simp [Effect.andThen, hk]
  strxml := by
    rw [h'.strxml, h.strxml]
    cases hr : e'.reply <;> simp [Effect.andThen, hr]

theorem option_eq_of_getD {α : Type} {a b : Option α} {x y : α} (hxy : x ≠ y)
    (hx : a.getD x = b.getD x) (hy : a.getD y = b.getD y) : a = b := by
  cases a with
  | none =>
    cases b with
    | none => rfl
    | some w => exact absurd (hx.trans hy.symm) hxy
  | some v =>
    cases b with
    | none => exact absurd (hx.symm.trans hy) hxy
    | some w => exact congrArg some hx

section

variable [Parsers]

def Upload.frames (u : Upload) : List UsartCall :=
  match u.contentLength with
  | none => []
  | some len2 =>
    if len2 = 0 then []
    else if u.isJson len2 then
      jsonCommand (Parsers.jsonTokenerParse (cString (strncpyBlock u.body len2) u.behind))
    else match Parsers.xmlParseMemory (strncpyBlock u.body len2) with
      | some (some children) => (reached children).flatMap XmlNode.frames
      | _ => []

def Upload.effect (u : Upload) : Effect := ⟨u.frames, u.kind, u.reply⟩

theorem frames_answerUpload (d : Daemon) (u : Upload) :
    (answerUpload d u).2.1.filterMap HttpEvent.usart? = u.frames := by
  unfold Upload.frames
  cases hlen : u.contentLength with
  | none => rw [answerUpload_none d hlen]; rfl
  | some len2 =>
    by_cases h0 : len2 = 0
    · subst h0
      rw [answerUpload_zero d hlen]
      rfl
    · by_cases hj : u.isJson len2
      · rw [answerUpload_json d hlen h0 hj]
        simp only [h0, hj, if_true, if_false, List.filterMap_map]
        exact List.filterMap_some
      · rw [answerUpload_xml d hlen h0 hj]
        simp only [h0, hj, if_false]
        cases Parsers.xmlParseMemory (strncpyBlock u.body len2) with
        | none => rfl
        | some root =>
          cases root with
          | none => rfl
          | some children => exact frames_xmlLoop u .start d.strxml children

theorem Upload.effect_shows (d : Daemon) (u : Upload) :
    u.effect.Shows d ((answerUpload d u).2.1.filterMap HttpEvent.usart?) (answerUpload d u).1 where
  frames := frames_answerUpload d u
  postType := by rw [answerUpload_daemon]; rfl
  strxml := by rw [answerUpload_daemon]; rfl

def postCalls (c : ConnId) (url : String) (us : List Upload) : List HttpCall :=
  us.map fun u => .answer c ⟨"POST", url, some u⟩

def Daemon.sent (d : Daemon) (calls : List HttpCall) : List UsartCall :=
  (daemon.outputs d calls).filterMap HttpEvent.usart?

def effectOf (us : List Upload) : Effect := us.foldr (fun u e => u.effect.andThen e) .idle

theorem answer_shows {d : Daemon} {c : ConnId} (hopen : d.openConn c = true) (url : String)
    (u : Upload) :
    let r := daemon.step d (.answer c ⟨"POST", url, some u⟩)
    u.effect.Shows d (r.2.filterMap HttpEvent.usart?) r.1 ∧ r.1.openConn c = true := by
  have hstep : ∀ d' : Daemon, d'.openConn = d.openConn → d'.postType = d.postType →
      d'.strxml = d.strxml →
      u.effect.Shows d ((answerUpload d' u).2.1.filterMap HttpEvent.usart?) (answerUpload d' u).1 ∧
        (answerUpload d' u).1.openConn c = true := by
    intro d' h1 h2 h3
    have h := u.effect_shows d'
    refine ⟨⟨h.frames, by rw [← h2]; exact h.postType, by rw [← h3]; exact h.strxml⟩, ?_⟩
    rw [answerUpload_daemon]
    exact (congrFun h1 c).trans hopen
  simp only [daemon, answerToConnection, hopen, Bool.true_eq_false, if_false, String.reduceEq, if_true]
  by_cases hurl : url = "/zbClient/API/permit"
  · rw [if_pos hurl]
    exact hstep _ rfl rfl rfl
  · rw [if_neg hurl]
    exact hstep d rfl rfl rfl

theorem posts_show {d : Daemon} {c : ConnId} (hopen : d.openConn c = true) (url : String)
    (us : List Upload) :
    (effectOf us).Shows d (d.sent (postCalls c url us)) (daemon.after d (postCalls c url us)) := by
  induction us generalizing d with
  | nil => exact ⟨rfl, rfl, rfl⟩
  | cons u us ih =>
    obtain ⟨hshows, hopen'⟩ := answer_shows hopen url u
    unfold Daemon.sent
    rw [postCalls, List.map_cons, Transducer.outputs_cons, List.filterMap_append]
    exact hshows.andThen (ih hopen')

/-- The two sequences of calls send the same frames and set the same page. -/
structure Daemon.SameAfter (d : Daemon) (calls calls' : List HttpCall) : Prop where
  sent : d.sent calls = d.sent calls'
  postType : (daemon.after d calls).postType = (daemon.after d calls').postType
  strxml : (daemon.after d calls).strxml = (daemon.after d calls').strxml

theorem sameAfter_iff {d : Daemon} {c : ConnId} (hopen : d.openConn c = true) (url : String)
    (us us' : List Upload) :
    d.SameAfter (postCalls c url us) (postCalls c url us') ↔
      (effectOf us).frames = (effectOf us').frames ∧
        (effectOf us).kind.getD d.postType = (effectOf us').kind.getD d.postType ∧
        (effectOf us).reply.getD d.strxml = (effectOf us').reply.getD d.strxml := by
  have h := posts_show hopen url us
  have h' := posts_show hopen url us'
  rw [← h.frames, ← h'.frames, ← h.postType, ← h'.postType, ← h.strxml, ← h'.strxml]
  exact ⟨fun hs => ⟨hs.sent, hs.postType, hs.strxml⟩, fun hs => ⟨hs.1, hs.2.1, hs.2.2⟩⟩

/-- Uploads do the same from every state if and only if their effects are the same. -/
theorem effectOf_eq_iff (c : ConnId) (url : String) (us us' : List Upload) :
    (∀ d : Daemon, d.openConn c = true →
        d.SameAfter (postCalls c url us) (postCalls c url us')) ↔ effectOf us = effectOf us' := by
  constructor
  · intro h
    have hd : ∀ k text, _ := fun k text =>
      (sameAfter_iff (d := ⟨fun _ => true, k, text, none, false⟩) rfl url us us').mp (h _ rfl)
    apply Effect.ext
    · exact (hd 0 "").1
    · exact option_eq_of_getD Nat.zero_ne_one (hd 0 "").2.1 (hd 1 "").2.1
    · exact option_eq_of_getD (show "" ≠ "<xml>" by decide) (hd 0 "").2.2 (hd 0 "<xml>").2.2
  · intro h d hopen
    rw [sameAfter_iff hopen, h]
    exact ⟨rfl, rfl, rfl⟩

theorem effectOf_singleton (u : Upload) : effectOf [u] = u.effect := by
  unfold effectOf Effect.andThen Effect.idle
  apply Effect.ext
  · exact List.append_nil _
  · exact Option.none_or
  · exact Option.none_or

end

/-- What a call finds besides the bytes it is called for: the read buffer behind them, the
heap behind the copy, the time, and what an unset pointer shows. -/
structure Around where
  buffer : ℕ → UInt8
  behind : List UInt8
  time : ℤ
  unset : String

def Around.upload (a : Around) (n : ℕ) (bytes : List UInt8) : Upload :=
  ⟨some n, fun i => bytes.getD i (a.buffer (i - bytes.length)), a.behind, a.time, a.unset⟩

structure Segment where
  bytes : List UInt8
  around : Around
  bytes_ne_nil : bytes ≠ []

def bodyOf (segs : List Segment) : List UInt8 := segs.flatMap Segment.bytes

/-- The calls for the segments; the `Content-Length` is that of the body. -/
def uploadsOf (segs : List Segment) : List Upload :=
  segs.map fun s => s.around.upload (bodyOf segs).length s.bytes

theorem takeWhile_terminated {bytes : List UInt8} (h0 : ∀ b ∈ bytes, b ≠ 0) (rest : List UInt8) :
    (bytes ++ 0 :: rest).takeWhile (· ≠ 0) = bytes := by
  rw [List.takeWhile_append_of_pos fun b hb => by simpa using h0 b hb]
  simp

theorem firstCells_terminated {buf : ℕ → UInt8} {bytes : List UInt8} {n : ℕ}
    (hbytes : firstCells buf bytes.length = bytes) (hnul : buf bytes.length = 0)
    (hlt : bytes.length < n) : ∃ rest, firstCells buf n = bytes ++ 0 :: rest := by
  obtain ⟨k, rfl⟩ := Nat.exists_eq_add_of_lt hlt
  refine ⟨firstCells (fun i => buf (bytes.length + 1 + i)) k, ?_⟩
  rw [Nat.add_right_comm, firstCells_add, firstCells_succ, hbytes, hnul, List.append_assoc,
    List.singleton_append]

/-- Where the read buffer has a NUL behind the segment, the copy is the segment, filled up. -/
theorem strncpyBlock_upload (a : Around) {n : ℕ} {bytes : List UInt8} (hnul : a.buffer 0 = 0)
    (h0 : ∀ b ∈ bytes, b ≠ 0) (hlt : bytes.length < n) :
    strncpyBlock (a.upload n bytes).body n = bytes ++ List.replicate (n - bytes.length) 0 := by
  have hbytes : firstCells (a.upload n bytes).body bytes.length = bytes := by
    apply List.ext_getElem (firstCells_length _ _)
    intro i _ hi
    simp [firstCells, Around.upload, hi]
  have hbehind : (a.upload n bytes).body bytes.length = 0 := by simp [Around.upload, hnul]
  obtain ⟨rest, hcells⟩ := firstCells_terminated hbytes hbehind hlt
  unfold strncpyBlock
  rw [hcells, takeWhile_terminated h0]

section

variable [Parsers]

/-- The segments act one after another, each on its own; they do what the body does in
one call, from every state, if and only if their effects add up to the effect of the body. -/
theorem segments_act_alone (segs : List Segment) (whole : Around) (c : ConnId) (url : String) :
    let pieces := postCalls c url (uploadsOf segs)
    let once := postCalls c url [whole.upload (bodyOf segs).length (bodyOf segs)]
    (∀ d : Daemon, d.openConn c = true →
        (effectOf (uploadsOf segs)).Shows d (d.sent pieces) (daemon.after d pieces)) ∧
      ((∀ d : Daemon, d.openConn c = true → d.SameAfter pieces once) ↔
        effectOf (uploadsOf segs) = (whole.upload (bodyOf segs).length (bodyOf segs)).effect) := by
  intro pieces once
  constructor
  · exact fun d hopen => posts_show hopen url (uploadsOf segs)
  · have h := effectOf_eq_iff c url (uploadsOf segs)
      [whole.upload (bodyOf segs).length (bodyOf segs)]
    rwa [effectOf_singleton] at h

/-- A segment that is neither a JSON text nor a document has only the kind of an XML page. -/
theorem effect_of_torn (a : Around) {n : ℕ} {bytes : List UInt8} (hnul : a.buffer 0 = 0)
    (h0 : ∀ b ∈ bytes, b ≠ 0) (hlt : bytes.length < n)
    (hjson : JsonC.jsonObjectToJsonString (Parsers.jsonTokenerParse bytes) = "null")
    (hxml : Parsers.xmlParseMemory (bytes ++ List.replicate (n - bytes.length) 0) = none) :
    (a.upload n bytes).effect = ⟨[], some 2, none⟩ := by
  have hblock := strncpyBlock_upload a hnul h0 hlt
  have hpad : List.replicate (n - bytes.length) (0 : UInt8) =
      0 :: List.replicate (n - bytes.length - 1) 0 := by
    rw [← List.replicate_succ]
    congr 1
    omega
  have hn : n ≠ 0 := by omega
  have hnot : ¬ (a.upload n bytes).isJson n := by
    unfold Upload.isJson cString
    rw [hblock, hpad, List.append_assoc, List.cons_append, takeWhile_terminated h0, not_ne_iff]
    exact hjson
  have hlen : (a.upload n bytes).contentLength = some n := rfl
  apply Effect.ext
  · simp [Upload.effect, Upload.frames, hlen, hn, hnot, hblock, hxml]
  · simp [Upload.effect, Upload.kind, hlen, hn, hnot]
  · simp [Upload.effect, Upload.reply, hlen, hn, hnot, hblock, hxml]

/-- A body torn so that no segment makes sense by itself is lost, whatever it says. -/
theorem effectOf_torn {us : List Upload} (hne : us ≠ [])
    (h : ∀ u ∈ us, u.effect = ⟨[], some 2, none⟩) : effectOf us = ⟨[], some 2, none⟩ := by
  induction us with
  | nil => exact absurd rfl hne
  | cons u us ih =>
    have hu := h u List.mem_cons_self
    by_cases hus : us = []
    · rw [hus, effectOf_singleton, hu]
    · have hrest := ih hus fun u' hu' => h u' (List.mem_cons_of_mem u hu')
      unfold effectOf at hrest ⊢
      rw [List.foldr_cons, hrest, hu]
      rfl

end

def askText : List UInt8 := asciiBytes "\x7b\"type\": \"ask_state\", \"devid\": 7\x7d"

/-- json-c on the command above and on its two pieces: the first is incomplete, and of the
second the parser takes the string it begins with.  Nothing is XML. -/
@[reducible] def askParsers : Parsers where
  jsonObjectToJsonString := Json.spaced
  jsonTokenerParse text :=
    if text = askText then .object [("type", .string (some "ask_state")), ("devid", .int 7)]
    else if text = askText.drop 8 then .string (some "ask_state")
    else .null
  jsonObjectGetInt
    | .int n => n
    | _ => 0
  xmlParseMemory _ := none

def zeros : Around := ⟨fun _ => 0, [], 1488328200, ""⟩

def cutAsk : List Segment :=
  [⟨askText.take 8, zeros, by decide +kernel⟩, ⟨askText.drop 8, zeros, by decide +kernel⟩]

/-- In one call the command is carried out; in two it is lost: the first piece sets an XML
page, and the second is a JSON text without a type. -/
theorem cut_command_lost :
    letI := askParsers
    let d : Daemon := { Daemon.initial with openConn := fun _ => true }
    let pieces := postCalls 1 "/" (uploadsOf cutAsk)
    let once := postCalls 1 "/" [zeros.upload askText.length askText]
    bodyOf cutAsk = askText ∧
      d.sent once = [mxjGetStateMessage 7] ∧ (daemon.after d once).postType = 1 ∧
      d.sent pieces = [] ∧ (daemon.after d pieces).postType = 1 := by
  decide +kernel

end IdolGateway.ZbClient
