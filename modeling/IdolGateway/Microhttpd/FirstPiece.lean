import IdolGateway.Microhttpd.RoundTrip
import IdolGateway.Microhttpd.Iterators

namespace IdolGateway.Microhttpd

open UrlForm

theorem chain_key {key : List UInt8} {cs : List Call} {data : List UInt8}
    (h : Chain key cs data) : ∀ c ∈ cs, c.key = key := by
  induction h with
  | nil => simp
  | snoc _ piece ih =>
    intro c hc
    rcases List.mem_append.mp hc with hc | hc
    · exact ih c hc
    · rw [List.mem_singleton.mp hc]

theorem chain_data {key : List UInt8} {cs : List Call} {data : List UInt8}
    (h : Chain key cs data) : (∀ c ∈ cs, c.data = []) → data = [] := by
  induction h with
  | nil => exact fun _ => rfl
  | @snoc cs data h piece ih =>
    intro hquiet
    rw [ih fun c hc => hquiet c (List.mem_append_left _ hc), List.nil_append]
    exact hquiet ⟨key, piece, data.length⟩ (by simp)

theorem delivers_nil {cs : List Call} (h : Delivers cs []) : cs = [] := by
  generalize hfs : ([] : List Field) = fs at h
  cases h with
  | nil => rfl
  | snoc => exact absurd hfs.symm (by simp)

theorem delivers_one {cs : List Call} {f : Field} (h : Delivers cs [f]) :
    Chain f.key cs f.value := by
  generalize hfs : [f] = fs at h
  cases h with
  | nil => exact absurd hfs (by simp)
  | snoc h _ hblock =>
    obtain ⟨rfl, hf⟩ := @List.append_inj' _ [] _ _ _ hfs rfl
    cases hf
    rw [delivers_nil h, List.nil_append]
    exact hblock

/-- Data for the key is refused, and nothing else for it. -/
def RefusesData (verdict : Call → MhdResult) (key : List UInt8) : Prop :=
  ∀ call : Call, call.key = key → (verdict call = .yes ↔ call.data = [])

/-- Calls without data, and at most one call for the beginning of the value behind them. -/
def OnePiece (f : Field) (cs : List Call) : Prop :=
  ∃ quiet last, cs = quiet ++ last ∧ (∀ c ∈ quiet, c.key = f.key ∧ c.data = []) ∧
    (last = [] ∨ ∃ piece, last = [⟨f.key, piece, 0⟩] ∧ piece ≠ [] ∧ piece <+: f.value)

theorem OnePiece.mono {key value value' : List UInt8} {cs : List Call} (hpre : value <+: value')
    (h : OnePiece ⟨key, value⟩ cs) : OnePiece ⟨key, value'⟩ cs := by
  obtain ⟨quiet, last, hcs, hquiet, hlast⟩ := h
  refine ⟨quiet, last, hcs, hquiet, hlast.imp_right ?_⟩
  rintro ⟨piece, hpiece, hne, hvalue⟩
  exact ⟨piece, hpiece, hne, hvalue.trans hpre⟩

theorem OnePiece.mem {f : Field} {cs : List Call} (h : OnePiece f cs) {c : Call} (hc : c ∈ cs) :
    c.key = f.key ∧ c.data <+: f.value := by
  obtain ⟨quiet, last, rfl, hquiet, hlast⟩ := h
  rcases List.mem_append.mp hc with hc | hc
  · refine ⟨(hquiet c hc).1, ?_⟩
    rw [(hquiet c hc).2]
    exact List.nil_prefix
  · rcases hlast with rfl | ⟨piece, rfl, -, hpiece⟩
    · exact absurd hc List.not_mem_nil
    · rw [List.mem_singleton.mp hc]
      exact ⟨rfl, hpiece⟩

theorem OnePiece.begun {f : Field} {cs cs' : List Call} (h : OnePiece f cs)
    (hpre : cs' <+: cs) : OnePiece f cs' := by
  obtain ⟨quiet, last, rfl, hquiet, hlast⟩ := h
  rcases List.prefix_or_prefix_of_prefix hpre (List.prefix_append quiet last) with hq | ⟨tail, rfl⟩
  · exact ⟨cs', [], by simp, fun c hc => hquiet c (hq.subset hc), Or.inl rfl⟩
  · have htail : tail <+: last := (List.prefix_append_right_inj quiet).mp hpre
    refine ⟨quiet, tail, rfl, hquiet, ?_⟩
    rcases hlast with rfl | ⟨piece, rfl, hpiece⟩
    · exact Or.inl (List.prefix_nil.mp htail)
    · rcases List.prefix_cons_iff.mp htail with rfl | ⟨t, rfl, ht⟩
      · exact Or.inl rfl
      · rw [List.prefix_nil.mp ht]
        exact Or.inr ⟨piece, rfl, hpiece⟩

theorem untilRefused_chain {verdict : Call → MhdResult} {key : List UInt8}
    (hv : RefusesData verdict key) {cs : List Call} {value : List UInt8}
    (h : Chain key cs value) : OnePiece ⟨key, value⟩ (untilRefused verdict cs) := by
  induction h with
  | nil => exact ⟨[], [], rfl, by simp, Or.inl rfl⟩
  | @snoc cs value h piece ih =>
    by_cases hall : ∀ c ∈ cs, verdict c = .yes
    · have hquiet : ∀ c ∈ cs, c.key = key ∧ c.data = [] := fun c hc =>
        ⟨chain_key h c hc, (hv c (chain_key h c hc)).mp (hall c hc)⟩
      have hvalue : value = [] := chain_data h fun c hc => (hquiet c hc).2
      rw [untilRefused_of_yes verdict hall, hvalue]
      have hone : ∀ c, untilRefused verdict [c] = [c] := by simp [untilRefused]
      rw [hone]
      by_cases hpiece : piece = []
      · refine ⟨cs ++ [⟨key, piece, 0⟩], [], by simp, ?_, Or.inl rfl⟩
        intro c hc
        rcases List.mem_append.mp hc with hc | hc
        · exact hquiet c hc
        · rw [List.mem_singleton.mp hc]
          exact ⟨rfl, hpiece⟩
      · exact ⟨cs, _, rfl, hquiet, Or.inr ⟨piece, rfl, hpiece, List.prefix_refl _⟩⟩
    · rw [untilRefused_of_no verdict hall]
      exact ih.mono (List.prefix_append _ _)

/-- Whatever part of a body with one field has come, in whatever segments: at most the beginning
of the value is heard. -/
theorem calls_one_piece {verdict : Call → MhdResult} {f : Field}
    (hkey : (encode f.key).length ≤ bufferSize) (hv : RefusesData verdict f.key)
    {segs : List (List UInt8)} (hbody : segs.flatten <+: f.text) :
    OnePiece f (untilRefused verdict (callsOf segs)) := by
  obtain ⟨hclean, hfields⟩ := @fieldsOf_begun reader reader_undoes f hkey segs.flatten hbody
  have hdelivers := calls_deliver_fields segs hclean
  rcases hfields with hfields | ⟨value, hvalue, hfields⟩
  · rw [hfields] at hdelivers
    rw [delivers_nil hdelivers]
    exact ⟨[], [], rfl, by simp, Or.inl rfl⟩
  · rw [hfields] at hdelivers
    have hchain : Chain f.key (callsOf segs) value := delivers_one hdelivers
    exact (untilRefused_chain hv hchain).mono hvalue

theorem encode_ne_nil {text : List UInt8} (h : text ≠ []) : encode text ≠ [] := by
  cases text with
  | nil => exact absurd rfl h
  | cons b text =>
    have hbyte : encodeByte b ≠ [] := by
      unfold encodeByte
      split_ifs <;> simp
    simp [encode, hbyte]

theorem round_key {f : Field} (hkey : (encode f.key).length ≤ bufferSize) (key : List UInt8)
    (off : ℕ) (rest : List UInt8) :
    PostProcessor.round ⟨.ppInit, [], key, [], off⟩ (encode f.key ++ equals :: rest) =
      .goOn ⟨.ppProcessValue, [], f.key, [], 0⟩ rest := by
  have hne : ∀ b ∈ encode f.key, decide (b ≠ equals) = true :=
    fun b hb => decide_eq_true (encode_range f.key b hb).2
  have hname : (encode f.key ++ equals :: rest).takeWhile (· ≠ equals) = encode f.key := by
    rw [List.takeWhile_append_of_pos hne, List.takeWhile_cons_of_neg (by simp), List.append_nil]
  have hlen : (encode f.key).length ≠ (encode f.key ++ equals :: rest).length := by
    simp
  have hrest : (encode f.key ++ equals :: rest).drop ((encode f.key).length + 1) = rest := by
    rw [← List.drop_drop, List.drop_left, List.drop_succ_cons, List.drop_zero]
  unfold PostProcessor.round PostProcessor.initRound
  dsimp only
  rw [hname, if_neg (by simpa using hkey), if_neg hlen, hrest, List.nil_append,
    unescaped_spells (spells_encode reader_undoes f.key)]

theorem round_value {key bytes raw out p : List UInt8} (hvalue : ∀ b ∈ bytes, ¬ EndsValue b)
    (heq : bytes.take xbufSize = raw ++ p) (hraw : Spells reader raw out) (hp : Partial p)
    (hne : raw ≠ []) :
    PostProcessor.round ⟨.ppProcessValue, [], key, [], 0⟩ bytes =
      .call ⟨key, out, 0⟩ ⟨.ppError, [], key, p, 0⟩ ⟨.ppProcessValue, [], key, p, out.length⟩
        (bytes.drop xbufSize) := by
  have hwhile : (bytes.take xbufSize).takeWhile (fun b => ¬ EndsValue b) = bytes.take xbufSize :=
    List.takeWhile_eq_self_iff.mpr fun b hb => by simpa using hvalue b (List.mem_of_mem_take hb)
  have hlen : (bytes.take xbufSize).length = min xbufSize bytes.length := List.length_take
  have htake : bytes.take (min xbufSize bytes.length) = raw ++ p :=
    List.take_eq_take_min.symm.trans heq
  have hdrop : bytes.drop (min xbufSize bytes.length) = bytes.drop xbufSize :=
    List.drop_eq_drop_min.symm
  have hfound : (bytes[min xbufSize bytes.length]?).any (fun b => EndsValue b) = false := by
    rw [Option.any_eq_false]
    intro b hb
    simpa using hvalue b (List.mem_of_getElem? hb)
  unfold PostProcessor.round PostProcessor.valueRound
  dsimp only
  rw [hwhile, hlen, hfound, List.length_nil, Nat.sub_zero, min_assoc, min_comm bytes.length,
    ← min_assoc, min_self, htake, hdrop, List.nil_append, kept_spells hraw hp, List.length_append,
    Nat.add_sub_cancel, List.drop_left, List.take_left, unescaped_spells hraw,
    if_neg fun h => hne h.1]
  simp [PostProcessor.endValue]

theorem spells_ne_nil {raw out : List UInt8} (h : Spells reader raw out) (hraw : raw ≠ []) :
    out ≠ [] := by
  cases h with
  | nil => exact absurd rfl hraw
  | plain => simp
  | @escape raw out c d _ _ hc0 _ hd0 =>
    have h0 : (0 : UInt8) ∉ [percent, c, d] := by
      simp only [List.mem_cons, List.not_mem_nil, or_false, not_or]
      exact ⟨by decide, hc0.symm, hd0.symm⟩
    have hescape : reader.escape c d = httpUnescape [percent, plusByte c, plusByte d] := by
      change unescaped [percent, c, d] = _
      rw [unescaped, cstr_of_notMem h0]
      rfl
    rw [hescape, httpUnescape, if_pos rfl]
    cases strtoul16 (plusByte c) (plusByte d) <;> simp

/-- The first `XBUF_SIZE` bytes of a longer value are a piece, and not the value. -/
theorem round_long {key value : List UInt8} (hlong : xbufSize < (encode value).length) :
    ∃ piece refused pp rest, piece ≠ [] ∧ piece ≠ value ∧
      PostProcessor.round ⟨.ppProcessValue, [], key, [], 0⟩ (encode value) =
        .call ⟨key, piece, 0⟩ refused pp rest := by
  have hvalue : ∀ b ∈ encode value, ¬ EndsValue b := fun b hb => (encode_range value b hb).1
  obtain ⟨hafter, -, hclean⟩ :=
    @form_spelled reader _ _ (spells_encode reader_undoes value) hvalue key []
  rw [← List.take_append_drop xbufSize (encode value)] at hafter hclean
  rw [Transducer.along_append] at hclean
  rw [Transducer.after_append, List.nil_append] at hafter
  obtain ⟨raw, out, p, heq, hraw, hpart, hmid, -⟩ := form_bytes Partial.nil
    (fun b hb => hvalue b (List.mem_of_mem_take hb)) hclean.1
  rw [hmid] at hafter
  have hclean' := hclean.2
  rw [hmid] at hclean'
  obtain ⟨raw', out', p', heq', hraw', -, hend, -⟩ := form_bytes hpart
    (fun b hb => hvalue b (List.mem_of_mem_drop hb)) hclean'
  rw [List.nil_append] at heq hend hafter
  have hlen : ((encode value).take xbufSize).length = xbufSize :=
    List.length_take_of_le (le_of_lt hlong)
  have hdrop : (encode value).drop xbufSize ≠ [] := by
    rw [← List.length_pos_iff, List.length_drop]
    omega
  -- what is left of the value is not nothing
  have hne : out ≠ value := by
    rintro rfl
    rw [hafter] at hend
    simp only [Mode.value.injEq, true_and] at hend
    obtain ⟨hout, hp⟩ := hend
    have hraw0 : raw' = [] := by
      by_contra h
      exact spells_ne_nil hraw' h (by simpa using hout.symm)
    rw [hraw0, ← hp, List.append_nil] at heq'
    exact hdrop (List.append_eq_nil_iff.mp heq').2
  have hraw0 : raw ≠ [] := by
    rintro rfl
    have hp := hpart.length_le
    rw [List.nil_append] at heq
    rw [heq] at hlen
    have hbig : xbufSize = 512 := rfl
    omega
  exact ⟨out, _, _, _, spells_ne_nil hraw hraw0, hne, round_value hvalue heq hraw hpart hraw0⟩

theorem calls_start {verdict : Call → MhdResult} {f : Field}
    (hkey : (encode f.key).length ≤ bufferSize) (hne : f.value ≠ []) {c : Call}
    {refused pp : PostProcessor} {rest : List UInt8}
    (hround : PostProcessor.round ⟨.ppProcessValue, [], f.key, [], 0⟩ (encode f.value) =
      .call c refused pp rest) :
    ∃ cs, (verdict c = .no → cs = []) ∧
      (segments (listen verdict)).outputs (.create, ()) [f.text] = c :: cs := by
  have htext : f.text ≠ [] := by
    unfold Field.text
    simp
  obtain ⟨k, hk⟩ : ∃ k, loopBudget f.text = k + 1 + 1 + 1 := by
    have := List.length_pos_iff.mpr htext
    exact ⟨2 * f.text.length - 1, by unfold loopBudget; omega⟩
  rw [Transducer.outputs_cons, Transducer.outputs_nil, List.append_nil]
  change ∃ cs, _ ∧ (postProcess (listen verdict) .create f.text ()).out = c :: cs
  rw [postProcess, if_neg htext, postProcessUrlencoded, hk, processLoop, if_neg htext,
    Field.text, PostProcessor.create, round_key hkey]
  dsimp only
  rw [processLoop, if_neg (encode_ne_nil hne), hround]
  dsimp only [listen]
  cases verdict c with
  | no => exact ⟨[], fun _ => rfl, rfl⟩
  | yes =>
    exact ⟨_, fun h => absurd h (by simp), rfl⟩

/-- Of a value that comes in one segment one piece is handed on, and it is the whole value
exactly if it fits in `xbuf`. -/
theorem calls_one_segment {verdict : Call → MhdResult} {f : Field}
    (hkey : (encode f.key).length ≤ bufferSize) (hne : f.value ≠ [])
    (hv : RefusesData verdict f.key) :
    ∃ piece, (segments (listen verdict)).outputs (.create, ()) [f.text] = [⟨f.key, piece, 0⟩] ∧
      (piece = f.value ↔ (encode f.value).length ≤ xbufSize) := by
  have hrefused : ∀ piece, piece ≠ [] → verdict ⟨f.key, piece, 0⟩ = .no := by
    intro piece hpiece
    cases h : verdict ⟨f.key, piece, 0⟩ with
    | no => rfl
    | yes => exact absurd ((hv _ rfl).mp h) hpiece
  rcases le_or_gt (encode f.value).length xbufSize with hfits | hlong
  · have heq : (encode f.value).take xbufSize = encode f.value ++ [] := by
      rw [List.take_of_length_le hfits, List.append_nil]
    have hround := @round_value f.key _ _ _ _
      (fun b hb => (encode_range f.value b hb).1) heq (spells_encode reader_undoes f.value) .nil
      (encode_ne_nil hne)
    obtain ⟨cs, hnil, hcs⟩ := @calls_start verdict f hkey hne _ _ _ _ hround
    rw [hnil (hrefused _ hne)] at hcs
    exact ⟨f.value, hcs, iff_of_true rfl hfits⟩
  · obtain ⟨piece, refused, pp, rest, hpiece, hpart, hround⟩ := @round_long f.key f.value hlong
    obtain ⟨cs, hnil, hcs⟩ := @calls_start verdict f hkey hne _ _ _ _ hround
    rw [hnil (hrefused _ hpiece)] at hcs
    exact ⟨piece, hcs, iff_of_false hpart (by omega)⟩

end IdolGateway.Microhttpd
