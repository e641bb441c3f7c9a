import IdolGateway.ZbClient.HttpSegments

/-!
# The copy of a body

`re_body` gets as many bytes as the `Content-Length` says, and `strncpy` puts a NUL behind
the body only if there is one among them.  Otherwise the text that is printed and parsed
runs on into the heap.
-/

namespace IdolGateway.ZbClient

section

variable (src : ℕ → UInt8) (n : ℕ)

def textOf : List UInt8 := (firstCells src n).takeWhile (· ≠ 0)

theorem strncpyBlock_eq :
    strncpyBlock src n = textOf src n ++ List.replicate (n - (textOf src n).length) 0 := rfl

theorem textOf_length_le : (textOf src n).length ≤ n := by
  have h := (List.takeWhile_prefix (l := firstCells src n) (· ≠ 0)).length_le
  rwa [firstCells_length] at h

theorem textOf_ne_zero : ∀ b ∈ textOf src n, b ≠ 0 := by
  intro b hb
  simpa using List.mem_takeWhile_imp hb

variable {src n}

theorem textOf_of_no_nul (h : ∀ i < n, src i ≠ 0) : textOf src n = firstCells src n := by
  refine List.takeWhile_eq_self_iff.mpr fun b hb => ?_
  obtain ⟨i, hi, rfl⟩ := List.mem_map.mp hb
  simpa using h i (List.mem_range.mp hi)

theorem textOf_length_lt_iff : (textOf src n).length < n ↔ ∃ i < n, src i = 0 := by
  constructor
  · intro h
    by_contra! hno
    rw [textOf_of_no_nul hno, firstCells_length] at h
    exact lt_irrefl n h
  · rintro ⟨i, hi, h0⟩
    refine lt_of_le_of_ne (textOf_length_le src n) fun heq => ?_
    have hall : textOf src n = firstCells src n := by
      refine (List.takeWhile_prefix _).eq_of_length ?_
      rw [firstCells_length]
      exact heq
    refine textOf_ne_zero src n (src i) ?_ h0
    rw [hall]
    exact List.mem_map.mpr ⟨i, List.mem_range.mpr hi, rfl⟩

theorem cString_of_nul (h : ∃ i < n, src i = 0) (behind : List UInt8) :
    cString (strncpyBlock src n) behind = textOf src n := by
  have hlt := textOf_length_lt_iff.mpr h
  obtain ⟨k, hk⟩ := Nat.exists_eq_add_of_lt hlt
  have hpad : List.replicate (n - (textOf src n).length) (0 : UInt8) =
      0 :: List.replicate k 0 := by
    rw [← List.replicate_succ]
    congr 1
    omega
  rw [cString, strncpyBlock_eq, hpad, List.append_assoc, List.cons_append]
  exact takeWhile_terminated (textOf_ne_zero src n) _

/-- Without one it goes on with the bytes behind the block. -/
theorem cString_of_no_nul (h : ∀ i < n, src i ≠ 0) (behind : List UInt8) :
    cString (strncpyBlock src n) behind = textOf src n ++ behind.takeWhile (· ≠ 0) := by
  have hlen : (textOf src n).length = n := by rw [textOf_of_no_nul h, firstCells_length]
  rw [cString, strncpyBlock_eq, hlen, Nat.sub_self, List.replicate_zero, List.append_nil]
  exact List.takeWhile_append_of_pos fun b hb => by simpa using textOf_ne_zero src n b hb

end

theorem xmlLoop_behind (u : Upload) (behind : List UInt8) (v : XmlVars) (strxml : String)
    (children : List XmlNode) :
    xmlLoop { u with behind := behind } v strxml children = xmlLoop u v strxml children := by
  have hreply : ∀ v strData,
      replyText { u with behind := behind } v strData = replyText u v strData := fun _ _ => rfl
  induction children generalizing v strxml with
  | nil => rfl
  | cons n ns ih => simp only [xmlLoop, ih, hreply]

section

variable [Parsers]

/-- The printed and parsed text is that of the first `n` bytes of the body, it is read
inside the block with the NUL behind it, and the call does the same whatever follows the
block. -/
structure Upload.ParsesBodyOnly (u : Upload) (n : ℕ) : Prop where
  text : ∀ behind, cString (strncpyBlock u.body n) behind = (firstCells u.body n).takeWhile (· ≠ 0)
  inside : ∀ behind, (cString (strncpyBlock u.body n) behind).length + 1 ≤ n
  same : ∀ (d : Daemon) (behind behind' : List UInt8),
    answerUpload d { u with behind := behind } = answerUpload d { u with behind := behind' }

theorem answerUpload_behind (d : Daemon) (u : Upload) {n : ℕ} (hlen : u.contentLength = some n)
    {behind behind' : List UInt8}
    (h : cString (strncpyBlock u.body n) behind = cString (strncpyBlock u.body n) behind') :
    answerUpload d { u with behind := behind } = answerUpload d { u with behind := behind' } := by
  obtain ⟨contentLength, body, _, time, unset⟩ := u
  subst hlen
  have hbranch : ∀ root, xmlBranch ⟨some n, body, behind, time, unset⟩ d.strxml root =
      xmlBranch ⟨some n, body, behind', time, unset⟩ d.strxml root := by
    intro root
    match root with
    | none => rfl
    | some none => rfl
    | some (some children) =>
      exact xmlLoop_behind ⟨some n, body, behind', time, unset⟩ behind _ _ _
  simp only at h
  simp only [answerUpload, h, hbranch]

/-- Only the body is parsed exactly when one of its first `n` bytes is a NUL. -/
theorem parses_body_only_iff (u : Upload) (n : ℕ) (hlen : u.contentLength = some n) :
    u.ParsesBodyOnly n ↔ ∃ i < n, u.body i = 0 := by
  constructor
  · intro h
    by_contra! hno
    have htext := h.text [1]
    rw [cString_of_no_nul hno, ← textOf] at htext
    simp at htext
  · intro h
    refine ⟨cString_of_nul h, fun behind => ?_, fun d behind behind' => ?_⟩
    · rw [cString_of_nul h]
      exact textOf_length_lt_iff.mpr h
    · apply answerUpload_behind d u hlen
      rw [cString_of_nul h, cString_of_nul h]

end

/-- A command and the NUL behind it, sent as one byte more. -/
def terminatedAsk : Upload := zeros.upload (askText.length + 1) askText

theorem parses_terminated_ask :
    letI := askParsers
    terminatedAsk.ParsesBodyOnly (askText.length + 1) :=
  (@parses_body_only_iff askParsers terminatedAsk (askText.length + 1) rfl).mpr
    ⟨askText.length, Nat.lt_succ_self _, by decide +kernel⟩

/-- The command without its closing brace; a brace of an earlier body lies behind it. -/
def truncatedAsk : Upload :=
  { zeros.upload (askText.length - 1) askText.dropLast with behind := asciiBytes "\x7d" }

/-- The left-over byte completes the command. -/
theorem truncated_ask_completed :
    letI := askParsers
    ¬ truncatedAsk.ParsesBodyOnly (askText.length - 1) ∧
      (answerUpload .initial truncatedAsk).2.1 = [.out (.usart (mxjGetStateMessage 7))] ∧
      (answerUpload .initial { truncatedAsk with behind := [] }).2.1 = [] := by
  have hsent : (@answerUpload askParsers .initial truncatedAsk).2.1 =
      [.out (.usart (mxjGetStateMessage 7))] := by decide +kernel
  have hnone : (@answerUpload askParsers .initial { truncatedAsk with behind := [] }).2.1 = [] := by
    decide +kernel
  refine ⟨fun h => ?_, hsent, hnone⟩
  have hsame := @Upload.ParsesBodyOnly.same askParsers _ _ h .initial truncatedAsk.behind []
  have hevents := congrArg (fun r => r.2.1) hsame
  exact absurd (hsent.symm.trans (hevents.trans hnone)) (by simp)

end IdolGateway.ZbClient
