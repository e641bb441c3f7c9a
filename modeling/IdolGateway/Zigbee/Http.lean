import IdolGateway.Microhttpd.FirstPiece
import IdolGateway.Microhttpd.Sessions
import IdolGateway.Zigbee.Link

/-!
# The door server of the first generation

A field `open` or `close` of a posted form sends one frame to the door and is shown as the state
of the door from then on.  The copies of the server differ in the page alone.
-/

namespace IdolGateway.Zigbee

open Microhttpd (Action Call ConnId Delivers Iterator Method Obeys Request Site Chain callsOf
  keyText reader untilRefused uploads)
open UrlForm (Field encode)

structure AskPage where
  front : String
  back : String

/-- What `snprintf` makes of `askpage`. -/
def AskPage.print (page : AskPage) (s : String) : String := page.front ++ s ++ page.back

/-- `askpage` of `zbserver.c`; the lines are continued, with the blanks before them. -/
def formPage : AskPage :=
  ⟨"<html><body>                       door satate:",
   "! <br>                       <form action=\"\" method=\"post\">" ++
   "                       <input name=\"open\" type=\"submit\" value=\" open \"></form>" ++
   "                       <form action=\"\" method=\"post\">" ++
   "                       <input name=\"close\" type=\"submit\" value=\" close \"></form>" ++
   "                       </body></html>"⟩

def maxNameSize : ℕ := 20

def maxAnswerSize : ℕ := 512

inductive Page
  | text (t : String)
  | errorpage
  deriving DecidableEq

def openDoor : SendCall := ⟨0xb6d6, 1, 1, 1⟩

def closeDoor : SendCall := ⟨0xb6d6, 0, 0, 0⟩

/-- `answerstring` after a command; the text is cut at `MAXANSWERSIZE`. -/
def commandAnswer (page : AskPage) (key : String) (size : ℕ) : Option String :=
  if 0 < size ∧ size ≤ maxNameSize then
    some (String.ofList ((page.print key).toList.take (maxAnswerSize - 1)))
  else none

/-- `iterate_post`; the state is `str` and `answerstring`. -/
def iteratePost (page : AskPage) : Iterator (String × Option String) SendCall := fun s call =>
  if keyText call.key = "open" then
    (.no, ("open ", commandAnswer page "open" call.data.length), [openDoor])
  else if keyText call.key = "close" then
    (.no, ("close", commandAnswer page "close" call.data.length), [closeDoor])
  else (.yes, s, [])

/-- The page `answer_to_connection` ends with. -/
def pageFor (page : AskPage) (str : String) : Method → Option String → Page
  | .get, _ => .text (page.print str)
  | .post, some answerstring => .text answerstring
  | _, _ => .errorpage

def commandOf (key : List UInt8) : Option SendCall :=
  if keyText key = "open" then some openDoor
  else if keyText key = "close" then some closeDoor
  else none

def verdict (call : Call) : Microhttpd.MhdResult := if commandOf call.key = none then .yes else .no

def answerAfter (page : AskPage) (call : Call) (answerstring : Option String) : Option String :=
  if keyText call.key = "open" then commandAnswer page "open" call.data.length
  else if keyText call.key = "close" then commandAnswer page "close" call.data.length
  else answerstring

def shownAfter (str : String) (command : Option SendCall) : String :=
  match command with
  | some c => if c = openDoor then "open " else "close"
  | none => str

theorem iteratePost_eq (page : AskPage) (s : String × Option String) (call : Call) :
    iteratePost page s call = (verdict call, (shownAfter s.1 (commandOf call.key),
      answerAfter page call s.2), (commandOf call.key).toList) := by
  unfold iteratePost verdict shownAfter answerAfter commandOf
  split_ifs <;> simp_all [openDoor, closeDoor]

def site (page : AskPage) : Site Unit String (Option String) Page Empty SendCall where
  iteratePost _ := iteratePost page
  noAnswer := none
  reply str method answerstring := (str, pageFor page str method answerstring, [])
  elsewhere i _ := i.elim
  verdict := verdict
  obeys _ s call := congrArg Prod.fst (iteratePost_eq page s call)
  answerAfter := answerAfter page
  answers _ s call := congrArg (fun r => r.2.1.2) (iteratePost_eq page s call)
  apart _ g a a' call := by
    rw [iteratePost_eq, iteratePost_eq]
    exact ⟨rfl, rfl⟩

def framesOf : Action Unit (Option String) Empty → List SendCall
  | .call _ _ call => (commandOf call.key).toList
  | .reply _ _ _ => []
  | .elsewhere i => i.elim

theorem flat_run (page : AskPage) (str : String)
    (as : List (Action Unit (Option String) Empty)) :
    (site page).flat.after str as = shownAfter str (as.flatMap framesOf).getLast? ∧
      (site page).flat.outputs str as = as.flatMap framesOf := by
  induction as using List.reverseRecOn with
  | nil => exact ⟨rfl, rfl⟩
  | append_singleton as a ih =>
    rw [Transducer.after_append_singleton, Transducer.outputs_append, Transducer.outputs_cons,
      Transducer.outputs_nil, List.append_nil, ih.1, ih.2, List.flatMap_append,
      List.flatMap_singleton]
    cases a with
    | elsewhere i => exact i.elim
    | reply c method answerstring => exact ⟨by simp [Site.flat, site, framesOf], rfl⟩
    | call e c call =>
      have hstep : ∀ g, (site page).flat.step g (.call e c call) =
          (shownAfter g (commandOf call.key), (commandOf call.key).toList) := by
        intro g
        simp only [Site.flat, site, iteratePost_eq]
      rw [hstep, framesOf]
      refine ⟨?_, rfl⟩
      cases commandOf call.key with
      | none => simp [shownAfter]
      | some s => simp [shownAfter]

theorem framesOf_command {a : Action Unit (Option String) Empty} :
    ∀ s ∈ framesOf a, s = openDoor ∨ s = closeDoor := by
  intro s hs
  cases a with
  | elsewhere i => exact i.elim
  | reply c method answerstring => exact absurd hs List.not_mem_nil
  | call e c call =>
    rw [framesOf, commandOf] at hs
    split_ifs at hs
    · exact Or.inl (by simpa using hs)
    · exact Or.inr (by simpa using hs)
    · simp at hs

/-- However the requests interleave, only the two commands are sent, and a GET shows the last one
that was. -/
theorem shows_last_command (page : AskPage) (request : ConnId → Request)
    (xs : List (Microhttpd.Event Unit Empty)) :
    let httpd := (site page).daemon request
    let d := httpd.after (.idle (Option String) "undefine") xs
    let sent := (httpd.outputs (.idle (Option String) "undefine") xs).filterMap
      Microhttpd.Output.out?
    (∀ s ∈ sent, s = openDoor ∨ s = closeDoor) ∧
      ∀ c upload, d.conCls c ≠ none → (request c).method = .get →
        httpd.step d (.answer () c upload) =
          (d, [.page c (.text (page.print (shownAfter "undefine" sent.getLast?)))]) := by
  intro httpd d sent
  obtain ⟨hglobals, hout⟩ := @Microhttpd.run_flat _ _ _ _ _ _ (site page) request
    (.idle (Option String) "undefine") xs
  obtain ⟨hafter, hframes⟩ := flat_run page "undefine"
    ((site page).trace request (.idle (Option String) "undefine") xs)
  have hsent : sent = _ := hout.trans hframes
  have hstr : d.globals = shownAfter "undefine" sent.getLast? := by
    rw [hsent]
    exact hglobals.trans hafter
  constructor
  · intro s hs
    rw [hsent] at hs
    obtain ⟨a, -, ha⟩ := List.mem_flatMap.mp hs
    exact framesOf_command s ha
  · intro c upload hopen hget
    obtain ⟨con, hcon⟩ := Option.ne_none_iff_exists'.mp hopen
    have hstep := @Microhttpd.step_page _ _ _ _ _ _ (site page) request d c con hcon () upload
      (by simp [hget])
    rw [hget] at hstep
    rw [← hstr]
    exact hstep

theorem command_untilRefused (cs : List Call) :
    (untilRefused verdict cs).flatMap (fun call => (commandOf call.key).toList) =
      (cs.filterMap fun call => commandOf call.key).head?.toList := by
  induction cs with
  | nil => rfl
  | cons call cs ih =>
    rw [untilRefused, List.flatMap_cons]
    cases hcommand : commandOf call.key with
    | none =>
      have hyes : verdict call = .yes := by simp [verdict, hcommand]
      rw [if_pos hyes, ih]
      simp [hcommand]
    | some s =>
      have hno : verdict call ≠ .yes := by simp [verdict, hcommand]
      rw [if_neg hno]
      simp [hcommand]

theorem command_block {key : List UInt8} {cs : List Call} (hkey : ∀ call ∈ cs, call.key = key)
    (hne : cs ≠ []) : (cs.filterMap fun call => commandOf call.key).head? = commandOf key := by
  obtain ⟨call, cs, rfl⟩ := List.exists_cons_of_ne_nil hne
  rw [List.forall_mem_cons] at hkey
  cases hcommand : commandOf key with
  | some s =>
    simp [hkey.1, hcommand]
  | none =>
    have hall : (call :: cs).filterMap (fun call => commandOf call.key) = [] := by
      rw [List.filterMap_eq_nil_iff, List.forall_mem_cons, hkey.1]
      exact ⟨hcommand, fun call' hcall => by rw [hkey.2 call' hcall, hcommand]⟩
    rw [hall]
    rfl

/-- The first command among the calls is that of the first field that is one. -/
theorem command_delivers {cs : List Call} {fs : List Field} (h : Delivers cs fs) :
    (cs.filterMap fun call => commandOf call.key).head? =
      (fs.filterMap fun f => commandOf f.key).head? := by
  induction h with
  | nil => rfl
  | @snoc cs block fs f _ hne hblock ih =>
    have hfirst := command_block (Microhttpd.chain_key hblock) hne
    rw [List.filterMap_append, List.head?_append, ih, hfirst, List.filterMap_append,
      List.head?_append]
    cases hcommand : commandOf f.key with
    | none => simp [hcommand]
    | some s => simp [hcommand]

theorem frames_callOn (c : ConnId) (as : List (Action Unit (Option String) Empty)) :
    (as.filter fun a => (a.callOn c).isSome).flatMap framesOf =
      (as.filterMap (Action.callOn c)).flatMap fun call => (commandOf call.key).toList := by
  induction as with
  | nil => rfl
  | cons a as ih =>
    cases a with
    | elsewhere i => exact i.elim
    | reply c' method answerstring => exact ih
    | call e c' call =>
      by_cases hc : c' = c
      · have hcall :
            Action.callOn c (.call e c' call : Action Unit (Option String) Empty) = some call :=
          if_pos hc
        rw [List.filter_cons_of_pos (by simp [hcall]), List.filterMap_cons_some hcall,
          List.flatMap_cons, List.flatMap_cons, ih]
        rfl
      · have hcall : Action.callOn c (.call e c' call : Action Unit (Option String) Empty) = none :=
          if_neg hc
        rw [List.filter_cons_of_neg (by simp [hcall]), List.filterMap_cons_none hcall]
        exact ih

/-- Whatever comes in between and however a form is cut, its POST sends the command of the first
field that is one, once. -/
theorem post_sends_first_command (page : AskPage) {request : ConnId → Request} {c : ConnId}
    (hpost : request c = ⟨.post, true⟩) {d : Microhttpd.Daemon String (Option String)}
    (hclosed : d.conCls c = none) (first : List UInt8) {xs : List (Microhttpd.Event Unit Empty)}
    (hopen : ∀ x ∈ xs, ¬ x.Completes c) (hclean : reader.CleanText (uploads c xs).flatten) :
    let ys := .answer () c first :: xs ++ [.completed () c]
    let as := (site page).trace request d ys
    (((site page).daemon request).outputs d ys).filterMap Microhttpd.Output.out? =
        as.flatMap framesOf ∧
      (as.filter fun a => (a.callOn c).isSome).flatMap framesOf =
        ((reader.fieldsOf (uploads c xs).flatten).filterMap fun f =>
          commandOf f.key).head?.toList := by
  intro ys as
  constructor
  · rw [(@Microhttpd.run_flat _ _ _ _ _ _ (site page) request d ys).2]
    exact (flat_run page d.globals as).2
  · obtain ⟨hcalls, -⟩ :=
      Microhttpd.completed_calls (site page) hpost hclosed () () first hopen
    rw [frames_callOn, hcalls, Microhttpd.callsUnder_eq]
    refine (command_untilRefused _).trans (congrArg Option.toList ?_)
    exact command_delivers (Microhttpd.calls_deliver_fields _ hclean)

/-- The button `open` of the page, pressed on connection 1 while a GET is answered; its form
comes in two segments. -/
def pressed : List (Microhttpd.Event Unit Empty) :=
  [.answer () 1 [0x6f, 0x70], .answer () 2 [], .answer () 1 [0x65, 0x6e, 0x3d, 0x2b], .answer () 2 [],
    .answer () 1 [0x6f, 0x70, 0x65, 0x6e, 0x2b]]

theorem pressed_opens :
    let request : ConnId → Request := fun c => if c = 1 then ⟨.post, true⟩ else ⟨.get, false⟩
    let as := (site formPage).trace request (.idle (Option String) "undefine")
      (.answer () 1 [] :: pressed ++ [.completed () 1])
    (as.filter fun a => (a.callOn 1).isSome).flatMap framesOf = [openDoor] :=
  (post_sends_first_command formPage rfl rfl [] (by decide) (by decide)).2.trans (by decide +kernel)

end IdolGateway.Zigbee
