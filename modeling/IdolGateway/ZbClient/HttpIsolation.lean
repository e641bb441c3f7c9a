import IdolGateway.ZbClient.HttpSenders

namespace IdolGateway.ZbClient

def named (name : String) (children : List XmlNode) : Option String :=
  (children.find? fun n => n.name = name).map XmlNode.content

def strDataFor (n : XmlNode) : String :=
  if contentCommand n.content = none then contentHelp else n.content

/-- The reply to the last `Content` child, made with the last names before it; `v` holds
names that were set earlier still. -/
def xmlReply (u : Upload) (v : XmlVars) (children : List XmlNode) : Option String :=
  match children.reverse.dropWhile fun n => n.name ≠ "Content" with
  | [] => none
  | n :: earlier =>
    some (replyText u
      ⟨none, (named "FromUserName" earlier).or v.fromUserName,
        (named "ToUserName" earlier).or v.toUserName⟩ (strDataFor n))

theorem replyText_congr (u : Upload) {v v' : XmlVars} (strData : String)
    (hfrom : v.fromUserName = v'.fromUserName) (hto : v.toUserName = v'.toUserName) :
    replyText u v strData = replyText u v' strData := by
  unfold replyText
  rw [hfrom, hto]

theorem xmlReply_congr (u : Upload) {v v' : XmlVars} (children : List XmlNode)
    (hfrom : v.fromUserName = v'.fromUserName) (hto : v.toUserName = v'.toUserName) :
    xmlReply u v children = xmlReply u v' children := by
  unfold xmlReply
  rw [hfrom, hto]

theorem named_append (name : String) (xs ys : List XmlNode) :
    named name (xs ++ ys) = (named name xs).or (named name ys) := by
  unfold named
  rw [List.find?_append]
  cases xs.find? fun n => n.name = name <;> rfl

/-- One more child in front, by what stands behind it. -/
theorem xmlReply_cons (u : Upload) (v : XmlVars) (n : XmlNode) (ns : List XmlNode) :
    xmlReply u v (n :: ns) =
      if n.name = "Content" then some ((xmlReply u v ns).getD (replyText u v (strDataFor n)))
      else xmlReply u
        { v with
          fromUserName := (named "FromUserName" [n]).or v.fromUserName
          toUserName := (named "ToUserName" [n]).or v.toUserName } ns := by
  unfold xmlReply
  rw [List.reverse_cons, List.dropWhile_append]
  cases hdrop : ns.reverse.dropWhile fun n => n.name ≠ "Content" with
  | nil =>
    by_cases hc : n.name = "Content"
    · have hsame : replyText u ⟨none, v.fromUserName, v.toUserName⟩ (strDataFor n) =
          replyText u v (strDataFor n) := replyText_congr u _ rfl rfl
      simpa [hc, named] using hsame
    · simp [hc]
  | cons c earlier =>
    by_cases hc : n.name = "Content"
    · have hfrom : named "FromUserName" [n] = none := by simp [named, hc]
      have hto : named "ToUserName" [n] = none := by simp [named, hc]
      simp [hc, named_append, hfrom, hto]
    · simp [hc, named_append, Option.or_assoc]

theorem xmlLoop_strxml (u : Upload) (v : XmlVars) (strxml : String) (children : List XmlNode) :
    (xmlLoop u v strxml children).strxml = (xmlReply u v (reached children)).getD strxml := by
  induction children generalizing v strxml with
  | nil => rfl
  | cons n ns ih =>
    by_cases hs : n.Stranger
    · rw [xmlLoop_stranger u v strxml hs]
      simp [reached, hs, xmlReply]
    · have hreach : reached (n :: ns) = n :: reached ns := by simp [reached, hs]
      rw [hreach, xmlReply_cons]
      by_cases hc : n.name = "Content"
      · obtain ⟨reads, -, hloop⟩ := xmlLoop_content u v strxml hc ns
        rw [hloop, if_pos hc, Option.getD_some]
        exact ih _ _
      · have hfrom : (v.after n).fromUserName = (named "FromUserName" [n]).or v.fromUserName := by
          by_cases h : n.name = "FromUserName" <;> simp [XmlVars.after, named, h]
        have hto : (v.after n).toUserName = (named "ToUserName" [n]).or v.toUserName := by
          by_cases h : n.name = "ToUserName" <;> simp [XmlVars.after, named, h]
        have hsame : xmlReply u (v.after n) (reached ns) = xmlReply u
            { v with
              fromUserName := (named "FromUserName" [n]).or v.fromUserName
              toUserName := (named "ToUserName" [n]).or v.toUserName } (reached ns) :=
          xmlReply_congr u (reached ns) hfrom hto
        rw [xmlLoop_sets u v strxml hs hc, if_neg hc, ih (v.after n) strxml, hsame]

theorem getLast?_filterMap_append {α β : Type} (f : α → Option β) (xs : List α) (x : α) (b : β) :
    ((xs ++ [x]).filterMap f).getLast?.getD b = (f x).getD ((xs.filterMap f).getLast?.getD b) := by
  rw [List.filterMap_append]
  cases hf : f x with
  | none => simp [hf]
  | some y => simp [hf]

theorem update_isSome {α : Type} {f : ConnId → Bool} {g : ConnId → Option α}
    (h : ∀ c, f c = (g c).isSome) (c : ConnId) (a : Option α) :
    ∀ c', Function.update f c a.isSome c' = (Function.update g c a c').isSome := by
  intro c'
  by_cases hc : c' = c
  · subst hc
    simp
  · rw [Function.update_of_ne hc, Function.update_of_ne hc, h c']

def pageFor (kind : ℕ) (reply json : String) : Page :=
  if kind = 2 then .strxml reply else if kind = 1 then .jsonStr json else .errorpage

theorem pageFor_inj {k k' : ℕ} (hk : k ≤ 2) (hk' : k' ≤ 2) (r r' json : String) :
    pageFor k r json = pageFor k' r' json ↔ k = k' ∧ (k' = 2 → r = r') := by
  have hcases : k = 0 ∨ k = 1 ∨ k = 2 := by omega
  have hcases' : k' = 0 ∨ k' = 1 ∨ k' = 2 := by omega
  rcases hcases with rfl | rfl | rfl <;> rcases hcases' with rfl | rfl | rfl <;> simp [pageFor]

section

variable [Parsers]

def Upload.isJson (u : Upload) (len2 : ℕ) : Prop :=
  JsonC.jsonObjectToJsonString
    (Parsers.jsonTokenerParse (cString (strncpyBlock u.body len2) u.behind)) ≠ "null"

instance (u : Upload) (len2 : ℕ) : Decidable (u.isJson len2) := inferInstanceAs (Decidable (¬ _))

/-- The kind of page: 1 for JSON, 2 for XML, 0 for none; an empty upload says nothing. -/
def Upload.kind (u : Upload) : Option ℕ :=
  match u.contentLength with
  | none => some 0
  | some len2 => if len2 = 0 then none else some (if u.isJson len2 then 1 else 2)

/-- The reply of the document in the upload, if it has one that is answered. -/
def Upload.reply (u : Upload) : Option String :=
  match u.contentLength with
  | none => none
  | some len2 =>
    if len2 = 0 ∨ u.isJson len2 then none
    else match Parsers.xmlParseMemory (strncpyBlock u.body len2) with
      | some (some children) => xmlReply u .start (reached children)
      | _ => none

theorem Upload.kind_le {u : Upload} {k : ℕ} (h : u.kind = some k) : k ≤ 2 := by
  unfold kind at h
  cases hlen : u.contentLength with
  | none =>
    simp only [hlen, Option.some.injEq] at h
    omega
  | some len2 =>
    simp only [hlen] at h
    split_ifs at h <;> simp only [Option.some.injEq] at h <;> omega

/-! What a call with upload data does, by what it finds. -/

section

variable (d : Daemon) {u : Upload}

theorem answerUpload_none (h : u.contentLength = none) :
    answerUpload d u = ({ d with postType := 0 }, [], .yes) := by
  unfold answerUpload
  rw [h]

theorem answerUpload_zero (h : u.contentLength = some 0) : answerUpload d u = (d, [], .yes) := by
  unfold answerUpload
  rw [h]
  rfl

variable {len2 : ℕ}

theorem answerUpload_json (h : u.contentLength = some len2) (h0 : len2 ≠ 0) (hj : u.isJson len2) :
    answerUpload d u = ({ d with postType := 1 },
      (jsonCommand (Parsers.jsonTokenerParse (cString (strncpyBlock u.body len2) u.behind))).map
        fun c => .out (.usart c), .yes) := by
  unfold answerUpload
  rw [h]
  exact (if_pos h0).trans (if_pos hj)

theorem answerUpload_xml (h : u.contentLength = some len2) (h0 : len2 ≠ 0)
    (hj : ¬ u.isJson len2) :
    answerUpload d u =
      let r := xmlBranch u d.strxml (Parsers.xmlParseMemory (strncpyBlock u.body len2))
      ({ d with postType := 2, strxml := r.strxml }, r.events,
        if r.rejected then .unspecified else .yes) := by
  unfold answerUpload
  rw [h]
  exact (if_pos h0).trans (if_neg hj)

end

theorem answerUpload_daemon (d : Daemon) (u : Upload) :
    (answerUpload d u).1 =
      { d with postType := u.kind.getD d.postType, strxml := u.reply.getD d.strxml } := by
  unfold Upload.kind Upload.reply
  cases hlen : u.contentLength with
  | none => rw [answerUpload_none d hlen]; rfl
  | some len2 =>
    by_cases h0 : len2 = 0
    · subst h0
      rw [answerUpload_zero d hlen]
      rfl
    · by_cases hj : u.isJson len2
      · rw [answerUpload_json d hlen h0 hj]
        simp [h0, hj]
      · rw [answerUpload_xml d hlen h0 hj]
        simp only [h0, hj, or_self, if_false]
        cases Parsers.xmlParseMemory (strncpyBlock u.body len2) with
        | none => rfl
        | some root =>
          cases root with
          | none => rfl
          | some children =>
            simp only [xmlBranch, xmlLoop_strxml]
            rfl

def lastKind (us : List Upload) : ℕ := (us.filterMap Upload.kind).getLast?.getD 0

def lastReply (us : List Upload) : String := (us.filterMap Upload.reply).getLast?.getD ""

theorem lastKind_le (us : List Upload) : lastKind us ≤ 2 := by
  unfold lastKind
  cases h : (us.filterMap Upload.kind).getLast? with
  | none => simp
  | some k =>
    obtain ⟨u, -, hu⟩ := List.mem_filterMap.mp (List.mem_of_getLast? h)
    exact Upload.kind_le hu

/-- The uploads of the request each open connection is in, and all uploads so far. -/
structure Ledger where
  own : ConnId → Option (List Upload)
  all : List Upload

def posted (r : Request) : List Upload := if r.method = "POST" then r.upload.toList else []

def Ledger.step (l : Ledger) : HttpCall → Ledger
  | .answer c r =>
    match l.own c with
    | none => { l with own := Function.update l.own c (some []) }
    | some us => ⟨Function.update l.own c (some (us ++ posted r)), l.all ++ posted r⟩
  | .completed c _ => { l with own := Function.update l.own c none }
  | .buildJson _ => l

def ledger (calls : List HttpCall) : Ledger := calls.foldl Ledger.step ⟨fun _ => none, []⟩

/-- The daemon's globals are those the ledger's uploads ask for. -/
structure Tracks (d : Daemon) (l : Ledger) : Prop where
  openConn : ∀ c, d.openConn c = (l.own c).isSome
  postType : d.postType = lastKind l.all
  strxml : d.strxml = lastReply l.all
  jsonStr : d.jsonStr ≠ none

theorem tracks_initial : Tracks Daemon.initial ⟨fun _ => none, []⟩ :=
  ⟨fun _ => rfl, rfl, rfl, by simp [Daemon.initial]⟩

section

variable {d d' : Daemon} {l : Ledger} {c : ConnId} {us : List Upload}

theorem Tracks.more (h : Tracks d l) (hopen : l.own c = some us) (vs : List Upload)
    (hconn : d'.openConn = d.openConn) (hkind : d'.postType = lastKind (l.all ++ vs))
    (hreply : d'.strxml = lastReply (l.all ++ vs)) (hjson : d'.jsonStr = d.jsonStr) :
    Tracks d' ⟨Function.update l.own c (some (us ++ vs)), l.all ++ vs⟩ where
  openConn c' := by
    have hc : d.openConn c = true := by
      rw [h.openConn c, hopen]
      rfl
    have hupdate := update_isSome h.openConn c (some (us ++ vs)) c'
    rw [Option.isSome_some, ← hc, Function.update_eq_self] at hupdate
    rw [hconn]
    exact hupdate
  postType := hkind
  strxml := hreply
  jsonStr := by
    rw [hjson]
    exact h.jsonStr

theorem Tracks.idle (h : Tracks d l) (hopen : l.own c = some us) :
    Tracks d ⟨Function.update l.own c (some (us ++ [])), l.all ++ []⟩ := by
  apply h.more hopen [] rfl
  · rw [List.append_nil]
    exact h.postType
  · rw [List.append_nil]
    exact h.strxml
  · rfl

theorem Tracks.upload (h : Tracks d l) (hopen : l.own c = some us) (u : Upload) :
    Tracks (answerUpload d u).1 ⟨Function.update l.own c (some (us ++ [u])), l.all ++ [u]⟩ := by
  rw [answerUpload_daemon]
  refine h.more hopen [u] rfl ?_ ?_ rfl
  · simp only [h.postType]
    exact (getLast?_filterMap_append _ _ _ _).symm
  · simp only [h.strxml]
    exact (getLast?_filterMap_append _ _ _ _).symm

/-- A call on an open connection adds its upload to the ledger, if it has one. -/
theorem tracks_answer (h : Tracks d l) (c : ConnId) (r : Request) (hopen : l.own c = some us) :
    Tracks (answerToConnection d c r).1
      ⟨Function.update l.own c (some (us ++ posted r)), l.all ++ posted r⟩ := by
  have hc : d.openConn c = true := by
    rw [h.openConn c, hopen]
    rfl
  unfold answerToConnection
  rw [if_neg (by simp [hc])]
  by_cases hget : r.method = "GET"
  · have hp : posted r = [] := by simp [posted, hget]
    rw [if_pos hget, hp]
    exact h.idle hopen
  · rw [if_neg hget]
    by_cases hpost : r.method = "POST"
    · rw [if_pos hpost]
      set d₁ : Daemon := if r.url = "/zbClient/API/permit" then { d with permitjoin := true } else d
        with hd₁
      have h₁ : Tracks d₁ l := by
        rw [hd₁]
        split_ifs
        · exact ⟨h.openConn, h.postType, h.strxml, h.jsonStr⟩
        · exact h
      cases hup : r.upload with
      | none =>
        have hp : posted r = [] := by simp [posted, hup]
        rw [hp]
        exact h₁.idle hopen
      | some u =>
        have hp : posted r = [u] := by simp [posted, hpost, hup]
        rw [hp]
        exact h₁.upload hopen u
    · have hp : posted r = [] := by simp [posted, hpost]
      rw [if_neg hpost, hp]
      exact h.idle hopen

end

theorem tracks_step {d : Daemon} {l : Ledger} (h : Tracks d l) (x : HttpCall) :
    Tracks (daemon.step d x).1 (l.step x) := by
  cases x with
  | answer c r =>
    cases hopen : l.own c with
    | some us =>
      simp only [Ledger.step, hopen]
      exact tracks_answer h c r hopen
    | none =>
      have hc : d.openConn c = false := by rw [h.openConn c, hopen]; rfl
      simp only [daemon, answerToConnection, hc, if_true, Ledger.step, hopen]
      exact ⟨update_isSome h.openConn c (some []), h.postType, h.strxml, h.jsonStr⟩
  | completed c connectiontype =>
    simp only [daemon, requestCompleted, Ledger.step]
    by_cases hc : d.openConn c = false
    · rw [if_pos hc]
      have hnone : l.own c = none := by
        have := h.openConn c
        rw [hc] at this
        simpa using this.symm
      rw [← hnone, Function.update_eq_self]
      exact h
    · rw [if_neg hc]
      exact ⟨update_isSome h.openConn c none, h.postType, h.strxml, h.jsonStr⟩
  | buildJson text => exact ⟨h.openConn, h.postType, h.strxml, by simp [daemon]⟩

theorem tracks_run (calls : List HttpCall) :
    Tracks (daemon.after Daemon.initial calls) (ledger calls) := by
  have hrun : ∀ (d : Daemon) (l : Ledger), Tracks d l →
      Tracks (daemon.after d calls) (calls.foldl Ledger.step l) := by
    induction calls with
    | nil => exact fun _ _ h => h
    | cons x xs ih => exact fun d l h => ih _ _ (tracks_step h x)
  exact hrun _ _ tracks_initial

/-- The page the uploads of one request ask for. -/
def ownPage (us : List Upload) (json : String) : Page := pageFor (lastKind us) (lastReply us) json

/-- All uploads together ask for the page that the request's own uploads ask for. -/
def SameAnswer (us all : List Upload) : Prop :=
  lastKind all = lastKind us ∧ (lastKind us = 2 → lastReply all = lastReply us)

/-- After any calls of any connections, the final call of a POST gets the page its own
uploads ask for exactly when all uploads so far, taken together, ask for it too. -/
theorem post_page_own_iff (calls : List HttpCall) (c : ConnId) (url : String) (us : List Upload)
    (hopen : (ledger calls).own c = some us) :
    (answerToConnection (daemon.after Daemon.initial calls) c ⟨"POST", url, none⟩).2.1 =
        [.page c (ownPage us ((daemon.after Daemon.initial calls).jsonStr.getD ""))] ↔
      SameAnswer us (ledger calls).all := by
  have h := tracks_run calls
  set d := daemon.after Daemon.initial calls
  set all := (ledger calls).all with hall
  obtain ⟨json, hjson⟩ := Option.ne_none_iff_exists'.mp h.jsonStr
  have hc : d.openConn c = true := by rw [h.openConn c, hopen]; rfl
  have hevents : (answerToConnection d c ⟨"POST", url, none⟩).2.1 =
      [.page c (pageFor (lastKind all) (lastReply all) json)] := by
    have hpage : ∀ d' : Daemon, d'.postType = d.postType → d'.strxml = d.strxml →
        d'.jsonStr = d.jsonStr → d'.postPage = pageFor (lastKind all) (lastReply all) json := by
      intro d' h1 h2 h3
      unfold Daemon.postPage pageFor
      rw [h1, h2, h3, h.postType, h.strxml, hjson]
    unfold answerToConnection
    simp only [hc, Bool.true_eq_false, if_false, String.reduceEq, if_true]
    by_cases hurl : url = "/zbClient/API/permit"
    · rw [if_pos hurl]
      exact congrArg (fun p => [HttpEvent.page c p]) (hpage _ rfl rfl rfl)
    · rw [if_neg hurl]
      exact congrArg (fun p => [HttpEvent.page c p]) (hpage _ rfl rfl rfl)
  rw [hevents, hjson, Option.getD_some, ownPage, List.cons.injEq, HttpEvent.page.injEq]
  simp only [true_and, and_true]
  exact pageFor_inj (lastKind_le all) (lastKind_le us) _ _ json

end

def messageText : String :=
  "<xml><ToUserName>gh</ToUserName><FromUserName>ogvN0w4jG360_wHow3gKLxG7wURY" ++
  "</FromUserName><Content>a</Content></xml>"

def messageUpload : Upload :=
  ⟨some (asciiBytes messageText).length, fun i => (asciiBytes messageText).getD i 0, [], 1488328200,
    ""⟩

@[reducible] def messageParsers : Parsers where
  jsonObjectToJsonString := Json.spaced
  jsonTokenerParse _ := .null
  jsonObjectGetInt _ := 0
  xmlParseMemory text :=
    if text = asciiBytes messageText then
      some (some [⟨"ToUserName", "gh"⟩, ⟨"FromUserName", "ogvN0w4jG360_wHow3gKLxG7wURY"⟩,
        ⟨"Content", "a"⟩])
    else none

def post (upload : Option Upload) : Request := ⟨"POST", "/", upload⟩

/-- Connection 1 posts the message; connection 2 opens a request. -/
def messageCalls : List HttpCall :=
  [.answer 1 (post none), .answer 1 (post (some messageUpload)), .answer 2 (post none)]

/-- The sender of the message gets its own page. -/
theorem post_page_own_message :
    letI := messageParsers
    (answerToConnection (daemon.after Daemon.initial messageCalls) 1 ⟨"POST", "/", none⟩).2.1 =
      [.page 1 (ownPage [messageUpload]
        ((daemon.after Daemon.initial messageCalls).jsonStr.getD ""))] := by
  have hown : (ledger messageCalls).own 1 = some [messageUpload] := rfl
  have hall : (ledger messageCalls).all = [messageUpload] := rfl
  refine (@post_page_own_iff messageParsers messageCalls 1 "/" _ hown).mpr ?_
  rw [hall]
  exact ⟨rfl, fun _ => rfl⟩

/-- An empty POST of another connection gets the reply to the message as well. -/
theorem empty_post_gets_message_reply :
    letI := messageParsers
    (ledger messageCalls).own 2 = some [] ∧
      (answerToConnection (daemon.after Daemon.initial messageCalls) 2 ⟨"POST", "/", none⟩).2.1 =
        [.page 2 (.strxml (replyText messageUpload
          ⟨none, some "ogvN0w4jG360_wHow3gKLxG7wURY", some "gh"⟩ contentHelp))] ∧
      ownPage [] "" = .errorpage := by
  refine ⟨rfl, ?_, rfl⟩
  decide +kernel

end IdolGateway.ZbClient
