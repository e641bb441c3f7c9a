import IdolGateway.Brower.PostBack
import IdolGateway.Microhttpd.Sessions

/-!
# The configurable server behind its HTTP daemon

`iterate_post` is not given whole bodies: the post processor calls it with pieces of at most
`XBUF_SIZE` bytes.  Frames and the calls for all connections come in any order; for the table
they are inputs of the `server`, one after another.
-/

namespace IdolGateway.Brower

open Procedure
open Microhttpd (Action Call ConnId Iterator Method Obeys Request Site cstr keyText)

variable [Tokener]

/-- What `con_info->answerstring` points to. -/
inductive AnswerString
  | null | jsonStr
  deriving DecidableEq

/-- A queued page: `json_str` as it is then, or the error page. -/
inductive Page
  | jsonStr (text : String)
  | errorpage
  deriving DecidableEq

def Post.ofCall (call : Call) : Post := ⟨keyText call.key, cstr call.data, call.data.length⟩

/-- What a call leaves in `answerstring`; a text that does not parse leaves it as it is. -/
def answerAfter (call : Call) (answerstring : AnswerString) : AnswerString :=
  let p := Post.ofCall call
  if 0 < p.size then
    let myObject2 := Tokener.jsonTokenerParse p.data
    if isNull myObject2 then answerstring
    else if isNull (myObject2.member "devices") then answerstring
    else if p.size ≤ maxNameSize then .jsonStr
    else .null
  else if p.key = "open" then .null
  else if p.key = "close" then .null
  else answerstring

def MhdResult.code : MhdResult → Microhttpd.MhdResult
  | .no => .no
  | .yes => .yes

/-- `iterate_post` as the processor calls it; the globals are those of the `server`. -/
def iterate (outside : Stray → UInt8) : Iterator (World × AnswerString) Out := fun s call =>
  let r := (iteratePost (.ofCall call)).run outside s.1
  (r.value.code, (r.state, answerAfter call s.2), r.out)

/-- Only a call without data goes on, for another key than the two commands. -/
def Post.answer (p : Post) : MhdResult :=
  if 0 < p.size then .no
  else if p.key = "open" then .no
  else if p.key = "close" then .no
  else .yes

def verdict (call : Call) : Microhttpd.MhdResult := (Post.ofCall call).answer.code

/-- The page `answer_to_connection` ends with. -/
def pageFor (w : World) : Method → AnswerString → Page
  | .get, _ => .jsonStr w.jsonStr
  | .post, .jsonStr => .jsonStr w.jsonStr
  | _, _ => .errorpage

structure Received where
  rx : ℕ → UInt8
  behind : ℕ → UInt8
  len : UInt8
  outside : Stray → UInt8

def Received.input (i : Received) : Input := ⟨.frame i.rx i.behind i.len, i.outside⟩

theorem value_iteratePost (mem : Stray → UInt8) (w : World) (p : Post) :
    ((iteratePost p).run mem w).value = p.answer := by
  unfold iteratePost Post.answer
  dsimp only
  by_cases hsize : 0 < p.size
  · rw [if_pos hsize, if_pos hsize]
    split_ifs
    · rfl
    · rfl
    · rw [postDevices, run_bind]
      dsimp only
      rw [run_bind]
      rfl
  · rw [if_neg hsize, if_neg hsize]
    split_ifs <;> rfl

theorem obeys_iterate (outside : Stray → UInt8) : Obeys (iterate outside) verdict :=
  fun s call => congrArg MhdResult.code (value_iteratePost outside s.1 (.ofCall call))

def site : Site (Stray → UInt8) World AnswerString Page Received Out where
  iteratePost := iterate
  noAnswer := .null
  reply w method answerstring := (w, pageFor w method answerstring, [])
  elsewhere i w := server.step w i.input
  verdict := verdict
  obeys := obeys_iterate
  answerAfter := answerAfter
  answers _ _ _ := rfl
  apart _ _ _ _ _ := ⟨rfl, rfl⟩

def inputs : Action (Stray → UInt8) AnswerString Received → List Input
  | .call outside _ call => [⟨.post (.ofCall call), outside⟩]
  | .reply _ _ _ => []
  | .elsewhere i => [i.input]

theorem flat_server (w : World) (as : List (Action (Stray → UInt8) AnswerString Received)) :
    site.flat.after w as = server.after w (as.flatMap inputs) ∧
      site.flat.outputs w as = server.outputs w (as.flatMap inputs) := by
  induction as generalizing w with
  | nil => exact ⟨rfl, rfl⟩
  | cons a as ih =>
    rw [Transducer.after_cons, Transducer.outputs_cons, List.flatMap_cons,
      Transducer.after_append, Transducer.outputs_append, ← (ih _).1, ← (ih _).2]
    cases a with
    | reply c method answerstring => exact ⟨rfl, rfl⟩
    | elsewhere i =>
      rw [inputs, Transducer.outputs_cons, Transducer.outputs_nil, List.append_nil]
      exact ⟨rfl, rfl⟩
    | call outside c call =>
      rw [inputs, Transducer.outputs_cons, Transducer.outputs_nil, List.append_nil]
      have hstep : server.step w ⟨.post (.ofCall call), outside⟩ =
          (((iteratePost (.ofCall call)).run outside w).state,
            ((iteratePost (.ofCall call)).run outside w).out) := by
        simp [server, Input.run, Event.handler]
      rw [Transducer.after_cons, hstep]
      exact ⟨rfl, rfl⟩

variable (request : ConnId → Request)

abbrev HttpEvent := Microhttpd.Event (Stray → UInt8) Received

abbrev httpd : Transducer (Microhttpd.Daemon World AnswerString) HttpEvent
    (Microhttpd.Output Page Out) :=
  site.daemon request

/-- What the table sees of a run: whole frames, and the pieces the processors hand on. -/
def handed (d : Microhttpd.Daemon World AnswerString) (xs : List HttpEvent) : List Input :=
  (site.trace request d xs).flatMap inputs

/-- Table, text and frames of the daemon are those of the server. -/
theorem httpd_server (d : Microhttpd.Daemon World AnswerString) (xs : List HttpEvent) :
    ((httpd request).after d xs).globals = server.after d.globals (handed request d xs) ∧
      ((httpd request).outputs d xs).filterMap Microhttpd.Output.out? =
        server.outputs d.globals (handed request d xs) := by
  obtain ⟨hafter, hout⟩ := @Microhttpd.run_flat _ _ _ _ _ _ site request d xs
  obtain ⟨hafter', hout'⟩ := flat_server d.globals (site.trace request d xs)
  exact ⟨hafter.trans hafter', hout.trans hout'⟩

def formPosts (_ : ConnId) : Request := ⟨.post, true⟩

def heard (payload : List UInt8) : HttpEvent :=
  .elsewhere ⟨fun i => payload.getD i 0, fun _ => 0, UInt8.ofNat payload.length, fun _ => 0⟩

end IdolGateway.Brower
