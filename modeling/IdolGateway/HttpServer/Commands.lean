import IdolGateway.HttpServer.Forms
import IdolGateway.ZbClient.BodyBlock
import IdolGateway.ZbClient.JsonForwarding
import IdolGateway.ZbClient.JsonSpaced

/-!
# The commands of the rule server at the gateway

The page of a POST is a command of the gateway's JSON interface: posted to `answer_to_connection`
of `zbclient.c` it is parsed, and the frame it asks for goes to the line.
-/

namespace IdolGateway.HttpServer

open Microhttpd (ConnId Request Whole)
open UrlForm (Field formText)
open ZbClient (Json JsonC Parsers Upload UsartCall asciiBytes parseJson mxjSendCtrlMessage
  mxjSendRegisterMessage mxjRegisterOk mxjRegisterFailed jsonCommand getUInt16)
open ZbClient.JsonText (Plain SpellsMembers blank_nil exists_fuel readMembers_skipBlanks readValue
  skipBlanks_cons spellsChars_of_plain spells_int spells_string)

def Command.members : Command → List (String × String)
  | .controlDown devid state1 state2 state3 =>
    [("devid", toString devid.toNat), ("state1", toString state1.toNat),
     ("state2", toString state2.toNat), ("state3", toString state3.toNat),
     ("type", "control_down")]
  | .registerOk devid => [("devid", toString devid.toNat), ("type", "register_ok")]
  | .registerFailed devid => [("devid", toString devid.toNat), ("type", "register_failed")]

def Command.json (c : Command) : Json :=
  .object (c.members.map fun m => (m.1, .string (some m.2)))

def tightMembers : List (String × String) → List Char
  | [] => ['\x7d']
  | [m] => '"' :: (m.1.toList ++ ['"']) ++ ':' :: ('"' :: (m.2.toList ++ ['"'])) ++ [] ++ ['\x7d']
  | m :: ms => '"' :: (m.1.toList ++ ['"']) ++ ':' :: ('"' :: (m.2.toList ++ ['"'])) ++ [] ++
      ',' :: tightMembers ms

theorem spells_tight {ms : List (String × String)} (hne : ms ≠ [])
    (hplain : ∀ m ∈ ms, (∀ c ∈ m.1.toList, Plain c) ∧ ∀ c ∈ m.2.toList, Plain c) :
    SpellsMembers (tightMembers ms) (ms.map fun m => (m.1, .string (some m.2))) := by
  induction ms with
  | nil => exact absurd rfl hne
  | cons m ms ih =>
    rw [List.forall_mem_cons] at hplain
    obtain ⟨⟨hkey, hvalue⟩, hplain⟩ := hplain
    have hvalue' := spells_string (spellsChars_of_plain hvalue)
    rw [String.ofList_toList] at hvalue'
    cases ms with
    | nil =>
      have hlast := SpellsMembers.last (spellsChars_of_plain hkey) hvalue' blank_nil
      rwa [String.ofList_toList] at hlast
    | cons m' ms =>
      have hcons := SpellsMembers.cons (spellsChars_of_plain hkey) hvalue' blank_nil
        (ih (List.cons_ne_nil _ _) hplain)
      rwa [String.ofList_toList] at hcons

theorem digit_number (n : ℕ) : ∀ c ∈ (toString n).toList, 48 ≤ c.toNat ∧ c.toNat ≤ 57 := by
  intro c hc
  have hdigits : (toString n).toList = Nat.toDigits 10 n := String.toList_ofList
  rw [hdigits] at hc
  have hdigit := Nat.isDigit_of_mem_toDigits (by decide) (by decide) hc
  simp only [Char.isDigit, Bool.and_eq_true, decide_eq_true_eq] at hdigit
  exact ⟨UInt32.le_iff_toNat_le.mp hdigit.1, UInt32.le_iff_toNat_le.mp hdigit.2⟩

theorem plain_number (n : ℕ) : ∀ c ∈ (toString n).toList, Plain c := by
  intro c hc
  obtain ⟨hlo, hhi⟩ := digit_number n c hc
  refine ⟨?_, ?_, by omega⟩
  · rintro rfl
    exact absurd hlo (by decide)
  · rintro rfl
    exact absurd hhi (by decide)

theorem members_ne_nil (c : Command) : c.members ≠ [] := by
  cases c <;> exact List.cons_ne_nil _ _

theorem forall_of_all {P : Char → Prop} [DecidablePred P] {cs : List Char}
    (h : cs.all fun ch => P ch) : ∀ ch ∈ cs, P ch :=
  fun ch hch => of_decide_eq_true (List.all_eq_true.mp h ch hch)

theorem plain_members (c : Command) :
    ∀ m ∈ c.members, (∀ ch ∈ m.1.toList, Plain ch) ∧ ∀ ch ∈ m.2.toList, Plain ch := by
  have hall : ∀ s ∈ ["devid", "state1", "state2", "state3", "type", "control_down",
      "register_ok", "register_failed"], s.toList.all fun ch => Plain ch := by decide
  have hliteral := fun s hs => forall_of_all (hall s hs)
  intro m hm
  cases c with
  | controlDown devid state1 state2 state3 =>
    simp only [Command.members, List.mem_cons, List.not_mem_nil, or_false] at hm
    rcases hm with rfl | rfl | rfl | rfl | rfl
    · exact ⟨hliteral _ (by simp), plain_number _⟩
    · exact ⟨hliteral _ (by simp), plain_number _⟩
    · exact ⟨hliteral _ (by simp), plain_number _⟩
    · exact ⟨hliteral _ (by simp), plain_number _⟩
    · exact ⟨hliteral _ (by decide), hliteral _ (by decide)⟩
  | registerOk devid =>
    simp only [Command.members, List.mem_cons, List.not_mem_nil, or_false] at hm
    rcases hm with rfl | rfl
    · exact ⟨hliteral _ (by simp), plain_number _⟩
    · exact ⟨hliteral _ (by decide), hliteral _ (by decide)⟩
  | registerFailed devid =>
    simp only [Command.members, List.mem_cons, List.not_mem_nil, or_false] at hm
    rcases hm with rfl | rfl
    · exact ⟨hliteral _ (by simp), plain_number _⟩
    · exact ⟨hliteral _ (by decide), hliteral _ (by decide)⟩

theorem printable_text (c : Command) : ∀ ch ∈ c.text.toList, 32 ≤ ch.toNat ∧ ch.toNat < 127 := by
  have hnumber : ∀ n : ℕ, ∀ ch ∈ (toString n).toList, 32 ≤ ch.toNat ∧ ch.toNat < 127 := by
    intro n ch hch
    have := digit_number n ch hch
    omega
  cases c with
  | controlDown devid state1 state2 state3 =>
    simp only [text_controlDown, String.toList_append, List.forall_mem_append]
    exact ⟨⟨⟨⟨⟨⟨⟨⟨forall_of_all (by decide), hnumber _⟩, forall_of_all (by decide)⟩, hnumber _⟩,
      forall_of_all (by decide)⟩, hnumber _⟩, forall_of_all (by decide)⟩, hnumber _⟩,
      forall_of_all (by decide)⟩
  | registerOk devid =>
    simp only [text_registerOk, String.toList_append, List.forall_mem_append]
    exact ⟨⟨forall_of_all (by decide), hnumber _⟩, forall_of_all (by decide)⟩
  | registerFailed devid =>
    simp only [text_registerFailed, String.toList_append, List.forall_mem_append]
    exact ⟨⟨forall_of_all (by decide), hnumber _⟩, forall_of_all (by decide)⟩

theorem toList_text (c : Command) : c.text.toList = '\x7b' :: tightMembers c.members := by
  cases c <;> simp only [text_controlDown, text_registerOk, text_registerFailed,
    Command.members, tightMembers, String.toList_append, List.append_assoc, List.cons_append,
    List.nil_append] <;> rfl

/-- Every command that is printed is a JSON text. -/
theorem parse_text (c : Command) : parseJson c.text = some c.json := by
  have hmembers := members_ne_nil c
  refine ZbClient.parseJson_of_spells ?_
  rw [toList_text]
  exact (spells_tight hmembers (plain_members c)).object

theorem bytes_text (c : Command) : asciiBytes c.text ≠ [] ∧ ∀ b ∈ asciiBytes c.text, b ≠ 0 := by
  constructor
  · have hlen : c.text.toList ≠ [] := by
      cases c <;> simp [text_controlDown, text_registerOk, text_registerFailed]
    simpa [asciiBytes] using hlen
  · unfold asciiBytes
    rw [List.forall_mem_map]
    intro ch hch h0
    have hrange := printable_text c ch hch
    have hnat := congrArg UInt8.toNat h0
    rw [Nat.toUInt8, UInt8.toNat_ofNat', UInt8.toNat_zero] at hnat
    omega

theorem spaced_object_ne (members : List (String × Json)) :
    (Json.object members).spaced ≠ "null" := by
  intro heq
  have hhead := congrArg (fun s => s.toList.head?) heq
  simp [Json.spaced] at hhead

/-- What the gateway is to send for a command. -/
def Command.frames : Command → List UsartCall
  | .controlDown devid state1 state2 state3 =>
    [mxjSendCtrlMessage devid 3 state1 state2 state3]
  | .registerOk devid => mxjSendRegisterMessage devid mxjRegisterOk
  | .registerFailed devid => mxjSendRegisterMessage devid mxjRegisterFailed

/-- The bytes of a text are the body of an upload; what lies behind them is left open. -/
structure Carries (u : Upload) (text : String) : Prop where
  contentLength : u.contentLength = some (asciiBytes text).length
  body : firstCells u.body (asciiBytes text).length = asciiBytes text

section

variable [Parsers]

/-- json-c on the texts of commands: `json_tokener_parse` takes a JSON text and leaves what comes
behind it, `json_object_get_int` of a string is the number it spells, and the printer is the
spaced one. -/
structure ReadsCommands : Prop where
  parse : ∀ (c : Command) (x : Json), parseJson c.text = some x →
    ∀ behind, Parsers.jsonTokenerParse (asciiBytes c.text ++ behind) = x
  getInt : ∀ n : ℕ, n < 65536 → Parsers.jsonObjectGetInt (.string (some (toString n))) = n
  print : ∀ x : Json, JsonC.jsonObjectToJsonString x = x.spaced

variable (h : ReadsCommands)
include h

theorem getUInt16_word (n : UInt16) :
    getUInt16 (.string (some (toString n.toNat))) = n := by
  have hn := n.toNat_lt
  rw [getUInt16, h.getInt _ hn]
  apply UInt16.toNat_inj.mp
  have hof := ZbClient.toNat_ofInt (n.toNat : ℤ)
  omega

theorem getUInt16_byte (n : UInt8) :
    (getUInt16 (.string (some (toString n.toNat)))).toUInt8 = n := by
  have hn := n.toNat_lt
  rw [getUInt16, h.getInt _ (by omega)]
  apply UInt8.toNat_inj.mp
  have hof := ZbClient.toNat_ofInt (n.toNat : ℤ)
  rw [UInt16.toNat_toUInt8]
  omega

theorem prints_iff (x : Json) (literal : String) :
    x.prints literal = decide (x.spaced = "\"" ++ literal ++ "\"") := by
  rw [Json.prints, h.print]

/-- The gateway does what the command says. -/
theorem jsonCommand_json (c : Command) : jsonCommand c.json = c.frames := by
  have hnull : ∀ r ∈ ZbClient.roomNames, ¬ Json.null.prints r.2 := by
    simp only [prints_iff h]
    decide
  cases c with
  | controlDown devid state1 state2 state3 =>
    have hdown : (Json.string (some "control_down")).prints "control_down" := by
      rw [prints_iff h]
      decide
    have hsets : (Command.controlDown devid state1 state2 state3).json.SetsByNumber :=
      Or.inr ⟨hdown, hnull⟩
    refine (ZbClient.jsonCommand_setsByNumber hsets).trans ?_
    change [mxjSendCtrlMessage (getUInt16 (.string (some (toString devid.toNat)))) 3
      (getUInt16 (.string (some (toString state1.toNat)))).toUInt8
      (getUInt16 (.string (some (toString state2.toNat)))).toUInt8
      (getUInt16 (.string (some (toString state3.toNat)))).toUInt8] = _
    rw [getUInt16_word h, getUInt16_byte h, getUInt16_byte h, getUInt16_byte h]
    rfl
  | registerOk devid =>
    have hid : (Command.registerOk devid).json.member "devid" =
      .string (some (toString devid.toNat)) := rfl
    have htype : (Command.registerOk devid).json.member "type" =
      .string (some "register_ok") := rfl
    unfold jsonCommand
    simp only [htype, hid, prints_iff h, getUInt16_word h]
    rfl
  | registerFailed devid =>
    have hid : (Command.registerFailed devid).json.member "devid" =
      .string (some (toString devid.toNat)) := rfl
    have htype : (Command.registerFailed devid).json.member "type" =
      .string (some "register_failed") := rfl
    unfold jsonCommand
    simp only [htype, hid, prints_iff h, getUInt16_word h]
    rfl

theorem frames_carries {u : Upload} {c : Command} (hu : Carries u c.text) :
    u.frames = c.frames := by
  obtain ⟨hne, hnul⟩ := bytes_text c
  have hsource : ∀ i < (asciiBytes c.text).length, u.body i ≠ 0 := by
    intro i hi
    refine hnul _ ?_
    rw [← hu.body]
    exact List.mem_map.mpr ⟨i, List.mem_range.mpr hi, rfl⟩
  have hcopy : ZbClient.cString (ZbClient.strncpyBlock u.body (asciiBytes c.text).length)
      u.behind = asciiBytes c.text ++ u.behind.takeWhile (· ≠ 0) := by
    rw [ZbClient.cString_of_no_nul hsource, ZbClient.textOf_of_no_nul hsource, hu.body]
  have hparse := h.parse c _ (parse_text c) (u.behind.takeWhile (· ≠ 0))
  have hjson : u.isJson (asciiBytes c.text).length := by
    unfold Upload.isJson
    rw [hcopy, hparse, h.print]
    exact spaced_object_ne _
  unfold Upload.frames
  rw [hu.contentLength]
  dsimp only
  rw [if_neg (by simpa using hne), if_pos hjson, hcopy, hparse, jsonCommand_json h]

theorem frames_carries_page {u : Upload} {command : Option Command}
    (hu : Carries u (Page.str22 command).text) :
    u.frames = command.toList.flatMap Command.frames := by
  cases command with
  | some c => exact (frames_carries h hu).trans (List.append_nil _).symm
  | none =>
    have hlen : u.contentLength = some 0 := hu.contentLength
    simp [Upload.frames, hlen]

end

section

variable [Parsers] {request : ConnId → Request} {c : ConnId}

/-- Whatever has happened before at the rule server and at the gateway: a complete form that
comes in one segment gets a page that, posted to the gateway, sends just the frames of the rule
for the posted fields, as long as nothing is stored and no rule is asked in between. -/
theorem report_reaches_line (hreads : ReadsCommands) (hpost : request c = ⟨.post, true⟩)
    {d : Daemon} (hopen : d.conCls c = some ⟨.post, (), .create⟩) {fs : List Field}
    (hwhole : ∀ f ∈ fs, Whole f) (hcomplete : Complete fs) {xs : List Event}
    (hothers : ∀ x ∈ xs, ¬ x.On c)
    (hidle : ∀ a ∈ site.trace request
      ((site.daemon request).step d (.answer () c (formText fs))).1 xs, Idle a) :
    ∃ page, ((site.daemon request).step
        ((site.daemon request).after d (.answer () c (formText fs) :: xs))
        (.answer () c [])).2.head? = some (.page c page) ∧
      ∀ (gateway : ZbClient.Daemon) (u : Upload), Carries u page.text →
        (ZbClient.answerUpload gateway u).2.1.filterMap ZbClient.HttpEvent.usart? =
          (d.globals.rule (readForm fs)).command.toList.flatMap Command.frames := by
  refine ⟨_, form_answered hpost hopen hwhole hcomplete hothers hidle, fun gateway u hu => ?_⟩
  rw [ZbClient.frames_answerUpload]
  exact frames_carries_page hreads hu

end

/-- json-c: the value at the beginning of a text, and the number a string is the text of. -/
@[reducible] def lenientParsers : Parsers where
  jsonObjectToJsonString := Json.spaced
  jsonTokenerParse text :=
    match readValue text.length (text.map fun b => Char.ofNat b.toNat) with
    | some (x, _) => x
    | none => .null
  jsonObjectGetInt
    | .string (some s) =>
      match parseJson s with
      | some (.int n) => n
      | _ => 0
    | .int n => n
    | _ => 0
  xmlParseMemory _ := none

/-- An object is read without a look at what comes behind it. -/
theorem readValue_members {text : List Char} {members : List (String × Json)}
    (h : SpellsMembers text members) (rest : List Char) {fuel : ℕ} (hfuel : text.length < fuel) :
    readValue fuel ('\x7b' :: (text ++ rest)) = some (.object members, rest) := by
  obtain ⟨fuel, rfl, hle⟩ := exists_fuel hfuel
  have hread := h rest fuel hle
  have hopen := h.not_closed rest
  rw [readValue, skipBlanks_cons (by decide)]
  simp only [if_true]
  rw [readMembers_skipBlanks, hread]
  rfl

theorem reads_lenient : @ReadsCommands lenientParsers :=
  letI := lenientParsers
  { parse := by
      intro c x hx behind
      rw [parse_text, Option.some_inj] at hx
      have hchars : (asciiBytes c.text).map (fun b => Char.ofNat b.toNat) =
          '\x7b' :: tightMembers c.members := by
        rw [← toList_text, asciiBytes, List.map_map]
        refine (List.map_congr_left fun ch hch => ?_).trans (List.map_id _)
        have hrange := printable_text c ch hch
        rw [Function.comp_apply, Nat.toUInt8,
          UInt8.toNat_ofNat_of_lt' (show ch.toNat < 256 by omega), Char.ofNat_toNat]
        rfl
      have hlen := congrArg List.length hchars
      rw [List.length_map, List.length_cons] at hlen
      have hfuel : (tightMembers c.members).length < (asciiBytes c.text ++ behind).length := by
        rw [List.length_append]
        omega
      have hread := readValue_members (spells_tight (members_ne_nil c) (plain_members c))
        (behind.map fun b => Char.ofNat b.toNat) hfuel
      change (match readValue (asciiBytes c.text ++ behind).length
        ((asciiBytes c.text ++ behind).map fun b => Char.ofNat b.toNat) with
        | some (x, _) => x
        | none => .null) = x
      rw [List.map_append, hchars, List.cons_append, hread]
      exact hx
    getInt := by
      intro n hn
      have hparse : parseJson (toString n) = some (.int n) :=
        ZbClient.parseJson_of_spells (spells_int n)
      change (match parseJson (toString n) with
        | some (.int n) => n
        | _ => 0) = _
      rw [hparse]
    print := fun _ => rfl }

def askForm : List Field :=
  [⟨asciiBytes "type", asciiBytes "ask_state"⟩, ⟨asciiBytes "dev_id", asciiBytes "7"⟩]

/-- Connection 1 posts the form; connection 2 gets the error page in between. -/
def askRequest : ConnId → Request := fun c => if c = 1 then ⟨.post, true⟩ else ⟨.get, false⟩

def askOpened : Daemon :=
  ((site.daemon askRequest).step (.idle Unit World.initial) (.answer () 1 [])).1

theorem ask_reaches_line :
    letI := lenientParsers
    ∃ page, ((site.daemon askRequest).step
        ((site.daemon askRequest).after askOpened
          (.answer () 1 (formText askForm) :: [.answer () 2 [], .answer () 2 []]))
        (.answer () 1 [])).2.head? = some (.page 1 page) ∧
      ∀ (gateway : ZbClient.Daemon) (u : Upload), Carries u page.text →
        (ZbClient.answerUpload gateway u).2.1.filterMap ZbClient.HttpEvent.usart? =
          [⟨[4, 4, 0, 7, 0], 5⟩] := by
  have hframes : (askOpened.globals.rule (readForm askForm)).command.toList.flatMap
      Command.frames = [⟨[4, 4, 0, 7, 0], 5⟩] := by
    decide +kernel
  rw [← hframes]
  exact @report_reaches_line lenientParsers askRequest 1 reads_lenient rfl askOpened rfl askForm
    (by decide +kernel) ⟨by decide +kernel, by decide +kernel⟩ _ (by decide) (by decide +kernel)

end IdolGateway.HttpServer
