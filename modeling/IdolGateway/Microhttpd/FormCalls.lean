import IdolGateway.Microhttpd.PostProcessor
import Mathlib.Data.List.TakeWhile

namespace IdolGateway.Microhttpd

open UrlForm

/-- How the library reads a plain byte, an escape and a key. -/
def reader : Reader where
  plain := plusByte
  escape c d := unescaped [percent, c, d]
  readKey := unescaped
  keyMax := bufferSize

theorem plusByte_ne {b : UInt8} (h : b ≠ percent) : plusByte b ≠ percent := by
  unfold plusByte
  split_ifs
  · decide
  · exact h

theorem cstr_of_notMem {bytes : List UInt8} (h : 0 ∉ bytes) : cstr bytes = bytes := by
  unfold cstr
  apply List.takeWhile_eq_self_iff.mpr
  intro b hb
  simpa using fun hb0 : b = 0 => h (hb0 ▸ hb)

theorem httpUnescape_plain {b : UInt8} (hb : b ≠ percent) (rest : List UInt8) :
    httpUnescape (b :: rest) = b :: httpUnescape rest := by
  rw [httpUnescape.eq_def]
  simp only [if_neg hb]

/-- An escape is read by itself, also if it is none. -/
theorem httpUnescape_escape {c d : UInt8} (hc : c ≠ percent) (hd : d ≠ percent)
    (rest : List UInt8) :
    httpUnescape (percent :: c :: d :: rest) =
      httpUnescape [percent, c, d] ++ httpUnescape rest := by
  rw [httpUnescape, httpUnescape, if_pos rfl, if_pos rfl]
  cases strtoul16 c d with
  | some num => simp [httpUnescape]
  | none =>
    simp only [httpUnescape_plain hc, httpUnescape_plain hd]
    simp [httpUnescape]

theorem httpUnescape_spells {raw out : List UInt8} (h : Spells reader raw out)
    (tail : List UInt8) :
    httpUnescape (unescapePlus raw ++ tail) = out ++ httpUnescape tail := by
  induction h generalizing tail with
  | nil => rfl
  | plain _ hb _ ih =>
    rw [unescapePlus, List.map_append, ← unescapePlus, List.append_assoc, ih,
      List.append_assoc]
    exact congrArg _ (httpUnescape_plain (plusByte_ne hb) tail)
  | @escape _ _ c d _ hc hc0 hd hd0 ih =>
    rw [unescapePlus, List.map_append, ← unescapePlus, List.append_assoc, ih,
      List.append_assoc]
    have htext : reader.escape c d = httpUnescape [percent, plusByte c, plusByte d] := by
      have h0 : (0 : UInt8) ∉ [percent, c, d] := by
        simp only [List.mem_cons, List.not_mem_nil, or_false, not_or]
        exact ⟨by decide, hc0.symm, hd0.symm⟩
      change unescaped [percent, c, d] = _
      rw [unescaped, cstr_of_notMem h0]
      rfl
    rw [htext]
    exact congrArg _ (httpUnescape_escape (plusByte_ne hc) (plusByte_ne hd) tail)

/-- A piece without a cut escape is handed on as what it spells. -/
theorem unescaped_spells {raw out : List UInt8} (h : Spells reader raw out) :
    unescaped raw = out := by
  have htail := httpUnescape_spells h []
  rw [List.append_nil] at htail
  rw [unescaped, cstr_of_notMem h.zero_notMem, htail]
  exact List.append_nil out

theorem spells_nil {out : List UInt8} (h : Spells reader [] out) : out = [] :=
  (unescaped_spells h).symm

theorem getLast_ne_percent {raw out : List UInt8} (h : Spells reader raw out) :
    raw.getLast? ≠ some percent := by
  cases h with
  | nil => simp
  | plain _ hb => simpa using hb
  | escape _ _ _ hd => simpa using hd

/-- What is kept back is the beginning of an escape, and nothing else. -/
theorem kept_spells {raw out p : List UInt8} (h : Spells reader raw out) (hp : Partial p) :
    kept (raw ++ p) = p.length := by
  cases hp with
  | nil =>
    have hlast := getLast_ne_percent h
    have hbefore : raw.dropLast.getLast? ≠ some percent := by
      cases h with
      | nil => simp
      | plain h' => simpa using getLast_ne_percent h'
      | escape _ hc => simpa using hc
    simp [kept, hlast, hbefore]
  | one => simp [kept]
  | @two c hc =>
    have hsplit : raw ++ [percent, c] = raw ++ [percent] ++ [c] := by simp
    have hlast : (raw ++ [percent] ++ [c]).getLast? ≠ some percent := by simpa using hc
    rw [hsplit, kept, if_neg hlast, List.dropLast_concat, if_pos (by simp)]
    rfl

/-- The calls hand on `data` for one key, in order and without a gap. -/
inductive Chain (key : List UInt8) : List Call → List UInt8 → Prop
  | nil : Chain key [] []
  | snoc {cs : List Call} {data : List UInt8} (h : Chain key cs data) (piece : List UInt8) :
    Chain key (cs ++ [⟨key, piece, data.length⟩]) (data ++ piece)

/-- Every field is handed on by a block of at least one call. -/
inductive Delivers : List Call → List Field → Prop
  | nil : Delivers [] []
  | snoc {cs block : List Call} {fs : List Field} {f : Field} (h : Delivers cs fs)
    (hne : block ≠ []) (hblock : Chain f.key block f.value) : Delivers (cs ++ block) (fs ++ [f])

def Shown (cs : List Call) (fs : List Field) : Mode → Prop
  | .value k data _ => ∃ done block, cs = done ++ block ∧ Delivers done fs ∧ Chain k block data
  | _ => Delivers cs fs

theorem Shown.call {cs : List Call} {fs : List Field} {key data pending : List UInt8}
    (h : Shown cs fs (.value key data pending)) (out p : List UInt8) :
    Shown (cs ++ [⟨key, out, data.length⟩]) fs (.value key (data ++ out) p) := by
  obtain ⟨done, block, rfl, hdone, hblock⟩ := h
  exact ⟨done, _, List.append_assoc _ _ _, hdone, hblock.snoc out⟩

theorem Shown.close {cs : List Call} {fs : List Field} {key data pending : List UInt8}
    (h : Shown cs fs (.value key data pending)) (out : List UInt8) :
    Delivers (cs ++ [⟨key, out, data.length⟩]) (fs ++ [⟨key, data ++ out⟩]) := by
  obtain ⟨done, block, rfl, hdone, hblock⟩ := h
  rw [List.append_assoc]
  exact hdone.snoc (by simp) (hblock.snoc out)

/-- The processor stands where the reader does. -/
inductive Tracks : PostProcessor → Mode → Prop
  | key {raw key : List UInt8} {off : ℕ} (h : raw.length ≤ bufferSize) :
    Tracks ⟨.ppInit, raw, key, [], off⟩ (.key raw)
  | value {key data pending : List UInt8} (h : Partial pending) :
    Tracks ⟨.ppProcessValue, [], key, pending, data.length⟩ (.value key data pending)
  | done {pp : PostProcessor} (h : pp.state = .ppDone ∨ pp.state = .ppError) : Tracks pp .stopped

theorem after_stopped (bytes : List UInt8) : reader.form.after .stopped bytes = .stopped :=
  (form_stopped bytes).1

theorem outputs_stopped (bytes : List UInt8) : reader.form.outputs .stopped bytes = [] :=
  (form_stopped bytes).2

def rank (pp : PostProcessor) (data : List UInt8) : ℕ :=
  2 * data.length + if pp.state = .ppProcessValue then 1 else 0

/-- What a round does to a processor that tracks `m`, if the iterator takes what it is given. -/
def RoundTracks (m : Mode) (data : List UInt8) : Round → Prop
  | .ret _ pp =>
    Tracks pp (reader.form.after m data) ∧ ∀ cs fs, Shown cs fs m →
      Shown cs (fs ++ reader.form.outputs m data) (reader.form.after m data)
  | .goOn pp rest => ∃ eaten, data = eaten ++ rest ∧ rank pp rest + 1 ≤ 2 * data.length ∧
      Tracks pp (reader.form.after m eaten) ∧ ∀ cs fs, Shown cs fs m →
        Shown cs (fs ++ reader.form.outputs m eaten) (reader.form.after m eaten)
  | .call c _ pp rest => ∃ eaten, (data = eaten ++ rest ∧ rank pp rest + 1 ≤ 2 * data.length ∧
      Tracks pp (reader.form.after m eaten) ∧ ∀ cs fs, Shown cs fs m →
        Shown (cs ++ [c]) (fs ++ reader.form.outputs m eaten) (reader.form.after m eaten)) ∨
    (pp.state = .ppExpectNewLine ∧ (∃ b rest', rest = b :: rest' ∧ (b = 0x0a ∨ b = 0x0d)) ∧
      reader.form.after m data = .stopped ∧ ∀ cs fs, Shown cs fs m →
        Delivers (cs ++ [c]) (fs ++ reader.form.outputs m data))

theorem form_equals {raw : List UInt8} :
    reader.form.step (.key raw) equals = (.value (unescaped raw) [] [], []) := rfl

theorem form_amper {key data : List UInt8} (pending : List UInt8) :
    reader.form.step (.value key data pending) amper = (.key [], [⟨key, data⟩]) := rfl

theorem form_newline {key data pending : List UInt8} {b : UInt8} (hb : EndsValue b)
    (hamp : b ≠ amper) :
    reader.form.step (.value key data pending) b = (.stopped, [⟨key, data⟩]) := by
  simp only [Reader.form, if_neg hamp, if_pos hb]

theorem initRound_tracks {raw key data : List UInt8} {off : ℕ} (hraw : raw.length ≤ bufferSize) :
    RoundTracks (.key raw) data (PostProcessor.initRound ⟨.ppInit, raw, key, [], off⟩ data) := by
  obtain ⟨name, rest, hsplit, hname, hrest⟩ : ∃ name rest, data = name ++ rest ∧
      name = data.takeWhile (· ≠ equals) ∧ rest = data.dropWhile (· ≠ equals) :=
    ⟨_, _, (List.takeWhile_append_dropWhile).symm, rfl, rfl⟩
  have hne : equals ∉ name := by
    intro h
    rw [hname] at h
    simpa using List.mem_takeWhile_imp h
  obtain ⟨hout, hafter⟩ := @form_key reader raw name hne
  rw [show reader.keyMax = bufferSize from rfl, max_eq_left hraw] at hafter
  unfold PostProcessor.initRound
  rw [← hname]
  dsimp only
  by_cases hlong : bufferSize < name.length + raw.length
  · rw [if_pos hlong]
    rw [if_neg (by omega)] at hafter
    have hend : reader.form.after (.key raw) data = .stopped := by
      rw [hsplit, Transducer.after_append, hafter, after_stopped]
    have hquiet : reader.form.outputs (.key raw) data = [] := by
      rw [hsplit, Transducer.outputs_append, hout, hafter, outputs_stopped]
      rfl
    refine ⟨hend ▸ .done (Or.inr rfl), fun cs fs h => ?_⟩
    rw [hend, hquiet, List.append_nil]
    exact h
  · rw [if_neg hlong]
    rw [if_pos (by omega)] at hafter
    by_cases hall : name.length = data.length
    · rw [if_pos hall]
      have hrest0 : rest = [] := by
        rw [hsplit, List.length_append] at hall
        exact List.length_eq_zero_iff.mp (by omega)
      rw [hrest0, List.append_nil] at hsplit
      refine ⟨?_, fun cs fs h => ?_⟩
      · rw [hsplit, hafter]
        refine .key ?_
        rw [List.length_append]
        omega
      · rw [hsplit, hout, hafter, List.append_nil]
        exact h
    · rw [if_neg hall]
      obtain ⟨rest', rfl⟩ : ∃ rest', rest = equals :: rest' := by
        cases rest with
        | nil => exact absurd (by rw [hsplit, List.append_nil]) hall
        | cons b rest' =>
          have hb := List.head?_dropWhile_not (· ≠ equals) data
          rw [← hrest] at hb
          exact ⟨rest', by simpa using hb⟩
      have heaten : data = (name ++ [equals]) ++ rest' := by rw [hsplit]; simp
      refine ⟨name ++ [equals], ?_, ?_, ?_, fun cs fs h => ?_⟩
      · rw [heaten]
        simp
      · rw [heaten]
        simp [rank]
        omega
      · rw [Transducer.after_append_singleton, hafter, form_equals]
        exact @Tracks.value (unescaped (raw ++ name)) [] [] .nil
      · have hquiet : reader.form.outputs (.key raw) (name ++ [equals]) = [] := by
          rw [Transducer.outputs_append, hout, hafter]
          rfl
        rw [Transducer.after_append_singleton, hafter, form_equals, hquiet, List.append_nil]
        exact ⟨cs, [], (List.append_nil cs).symm, h, .nil⟩

theorem mem_take_value {data : List UInt8} {n : ℕ} (hn : n ≤
      ((data.take xbufSize).takeWhile fun b => ¬ EndsValue b).length) :
    ∀ b ∈ data.take n, ¬ EndsValue b := by
  intro b hb
  have hpre : data.take n <+: (data.take xbufSize).takeWhile fun b => ¬ EndsValue b := by
    apply List.prefix_of_prefix_length_le (List.take_prefix n data)
    · exact (List.takeWhile_prefix _).trans (List.take_prefix _ _)
    · rw [List.length_take]
      omega
  simpa using List.mem_takeWhile_imp (hpre.subset hb)

theorem ends_of_amper_zero {b : UInt8} {data : List UInt8}
    (h : (((b :: data).take xbufSize).takeWhile fun b => ¬ EndsValue b).length = 0) :
    EndsValue b := by
  by_contra hb
  simp [xbufSize, hb] at h

/-- A round that takes nothing stands at the end of the value. -/
theorem ends_of_stuck {pending data : List UInt8} (hp : Partial pending) {a : ℕ}
    (ha : a = ((data.take xbufSize).takeWhile fun b => ¬ EndsValue b).length)
    {b : UInt8} {rest : List UInt8}
    (hrest : data.drop (min a (xbufSize - pending.length)) = b :: rest)
    (hstuck : min a (xbufSize - pending.length) = 0) :
    EndsValue b ∧ (data[a]?).any (fun b => EndsValue b) = true := by
  have ha0 : a = 0 := by
    have := hp.length_le
    have hbig : xbufSize = 512 := rfl
    omega
  rw [hstuck, List.drop_zero] at hrest
  have hb : EndsValue b := by
    rw [hrest] at ha
    exact ends_of_amper_zero (ha.symm.trans ha0)
  refine ⟨hb, ?_⟩
  rw [ha0, hrest]
  simp [hb]

theorem length_drop_lt {data : List UInt8} (hdata : data ≠ []) {n : ℕ}
    (hn : data.drop n = [] ∨ 0 < n) : (data.drop n).length < data.length := by
  have hlen : 0 < data.length := List.length_pos_iff.mpr hdata
  rcases hn with hn | hn
  · rw [hn]
    exact hlen
  · rw [List.length_drop]
    omega

/-- A round of the value takes the first `n` bytes: with those kept back they are `raw`, which
spells `out`, and the beginning `p` of an escape. -/
structure Takes (key d pending data : List UInt8) (n : ℕ) (raw out p : List UInt8) : Prop where
  bytes : pending ++ data.take n = raw ++ p
  spells : Spells reader raw out
  begun : Partial p
  after : reader.form.after (.value key d pending) (data.take n) = .value key (d ++ out) p
  quiet : reader.form.outputs (.value key d pending) (data.take n) = []

namespace Takes

variable {key d pending data raw out p : List UInt8} {n : ℕ}
  (h : Takes key d pending data n raw out p)
include h

theorem tracks : Tracks ⟨.ppProcessValue, [], key, p, d.length + out.length⟩
    (reader.form.after (.value key d pending) (data.take n)) := by
  rw [h.after, ← List.length_append]
  exact .value h.begun

theorem goOn (hdata : data ≠ []) (hraw : raw = []) (hrest : data.drop n = []) :
    RoundTracks (.value key d pending) data
      (.goOn ⟨.ppProcessValue, [], key, p, d.length⟩ (data.drop n)) := by
  have hout : out = [] := spells_nil (hraw ▸ h.spells)
  refine ⟨data.take n, (List.take_append_drop n data).symm, ?_, ?_, fun cs fs hs => ?_⟩
  · have := length_drop_lt hdata (Or.inl hrest)
    simp only [rank, if_true]
    omega
  · simpa [hout] using h.tracks
  · rw [h.quiet, h.after, hout, List.append_nil, List.append_nil]
    exact hs

theorem call (hdata : data ≠ []) (hn : data.drop n = [] ∨ 0 < n) (refused : PostProcessor) :
    RoundTracks (.value key d pending) data
      (.call ⟨key, out, d.length⟩ refused
        ⟨.ppProcessValue, [], key, p, d.length + out.length⟩ (data.drop n)) := by
  refine ⟨data.take n, Or.inl ⟨(List.take_append_drop n data).symm, ?_, h.tracks,
    fun cs fs hs => ?_⟩⟩
  · have := length_drop_lt hdata hn
    simp only [rank, if_true]
    omega
  · rw [h.quiet, h.after, List.append_nil]
    exact hs.call out p

variable {b : UInt8} {rest : List UInt8} (hrest : data.drop n = b :: rest)
include hrest

theorem call_amper (hb : b = amper) (hp : p = []) (refused : PostProcessor) :
    RoundTracks (.value key d pending) data
      (.call ⟨key, out, d.length⟩ refused ⟨.ppInit, [], key, p, d.length + out.length⟩ rest) := by
  have hdata : data = data.take n ++ b :: rest := hrest ▸ (List.take_append_drop n data).symm
  refine ⟨data.take n ++ [b], Or.inl ⟨?_, ?_, ?_, fun cs fs hs => ?_⟩⟩
  · rw [List.append_assoc]
    exact hdata
  · have := congrArg List.length hrest
    rw [List.length_drop, List.length_cons] at this
    simp [rank]
    omega
  · rw [Transducer.after_append_singleton, h.after, hb, form_amper, hp]
    exact .key (Nat.zero_le _)
  · rw [Transducer.after_append_singleton, Transducer.outputs_append, h.quiet, h.after, hb,
      form_amper]
    exact hs.close out

theorem call_newline (hb : EndsValue b) (hamp : b ≠ amper) (refused : PostProcessor) :
    RoundTracks (.value key d pending) data
      (.call ⟨key, out, d.length⟩ refused
        ⟨.ppExpectNewLine, [], key, p, d.length + out.length⟩ (b :: rest)) := by
  have hdata : data = data.take n ++ b :: rest := hrest ▸ (List.take_append_drop n data).symm
  have hstep : reader.form.step (.value key (d ++ out) p) b = _ := form_newline hb hamp
  refine ⟨[], Or.inr ⟨rfl, ⟨b, rest, rfl, hb.resolve_left hamp⟩, ?_, fun cs fs hs => ?_⟩⟩
  · rw [hdata, Transducer.after_append, h.after, Transducer.after_cons, hstep, after_stopped]
  · rw [hdata, Transducer.outputs_append, h.quiet, h.after, Transducer.outputs_cons, hstep,
      outputs_stopped]
    exact hs.close out

theorem endValue (hpend : EndsValue b → p = []) {found : Bool}
    (hstuck : n = 0 → EndsValue b ∧ found = true) (refused : PostProcessor) :
    let next := PostProcessor.endValue ⟨.ppProcessValue, [], key, p, d.length + out.length⟩ found
      (b :: rest)
    RoundTracks (.value key d pending) data (.call ⟨key, out, d.length⟩ refused next.1 next.2) := by
  have hdata : data ≠ [] := by
    rintro rfl
    simp at hrest
  have hgoOn : n ≠ 0 → RoundTracks (.value key d pending) data
      (.call ⟨key, out, d.length⟩ refused
        ⟨.ppProcessValue, [], key, p, d.length + out.length⟩ (b :: rest)) := by
    intro hn
    have hcall := h.call hdata (Or.inr (Nat.pos_of_ne_zero hn)) refused
    rwa [hrest] at hcall
  unfold PostProcessor.endValue
  dsimp only
  cases found with
  | false => exact hgoOn fun hn => Bool.false_ne_true (hstuck hn).2
  | true =>
    dsimp only
    by_cases hend : EndsValue b
    · by_cases hamp : b = amper
      · rw [if_pos hamp]
        exact h.call_amper hrest hamp (hpend hend) refused
      · rw [if_neg hamp, if_pos hend]
        exact h.call_newline hrest hend hamp refused
    · rw [if_neg (fun hamp => hend (Or.inl hamp)), if_neg hend]
      exact hgoOn fun hn => hend (hstuck hn).1

end Takes

theorem valueRound_tracks {key d pending data : List UInt8} (hp : Partial pending)
    (hdata : data ≠ []) (hclean : reader.form.Along Mode.Clean (.value key d pending) data) :
    RoundTracks (.value key d pending) data
      (PostProcessor.valueRound ⟨.ppProcessValue, [], key, pending, d.length⟩ data) := by
  unfold PostProcessor.valueRound
  dsimp only
  set a := ((data.take xbufSize).takeWhile fun b => ¬ EndsValue b).length with ha
  set n := min a (xbufSize - pending.length) with hn
  rw [← List.take_append_drop n data, Transducer.along_append] at hclean
  obtain ⟨raw, out, p, htakes⟩ : ∃ raw out p, Takes key d pending data n raw out p := by
    obtain ⟨raw, out, p, heq, hraw, hpart, hafter, hout⟩ :=
      form_bytes hp (mem_take_value (min_le_left _ _)) hclean.1
    exact ⟨raw, out, p, heq, hraw, hpart, hafter, hout⟩
  have hnext := hclean.2
  rw [htakes.after] at hnext
  rw [htakes.bytes, kept_spells htakes.spells htakes.begun, List.length_append,
    Nat.add_sub_cancel, List.drop_left, List.take_left, unescaped_spells htakes.spells]
  by_cases h0 : raw = [] ∧ data.drop n = []
  · rw [if_pos h0]
    exact htakes.goOn hdata h0.1 h0.2
  · rw [if_neg h0]
    cases hrest : data.drop n with
    | nil =>
      have hcall := htakes.call hdata (Or.inl hrest)
      rw [hrest] at hcall
      cases (data[a]?).any fun b => EndsValue b <;> exact hcall _
    | cons b rest =>
      rw [hrest] at hnext
      refine htakes.endValue hrest (fun hend => ?_) (ends_of_stuck hp ha hrest) _
      by_contra hne
      exact (hnext.1.2 hne).1 hend

theorem round_tracks {pp : PostProcessor} {m : Mode} {data : List UInt8} (h : Tracks pp m)
    (hdata : data ≠ []) (hclean : reader.form.Along Mode.Clean m data) :
    RoundTracks m data (pp.round data) := by
  cases h with
  | key hraw => exact initRound_tracks hraw
  | value hp => exact valueRound_tracks hp hdata hclean
  | done hdone =>
    have hret : ∀ pp' : PostProcessor, pp'.state = .ppError → ∀ result,
        RoundTracks .stopped data (.ret result pp') := by
      intro pp' hpp' result
      refine ⟨?_, fun cs fs h => ?_⟩
      · rw [after_stopped]
        exact .done (Or.inr hpp')
      · rw [after_stopped, outputs_stopped, List.append_nil]
        exact h
    unfold PostProcessor.round
    rcases hdone with hdone | hdone
    · rw [hdone]
      exact hret _ rfl _
    · rw [hdone]
      exact hret _ hdone _

theorem loop_newline {pp : PostProcessor} (hpp : pp.state = .ppExpectNewLine) {b : UInt8}
    (hb : b = 0x0a ∨ b = 0x0d) (fuel : ℕ) (rest : List UInt8) :
    processLoop takeAll (fuel + 1) pp (b :: rest) () =
      ⟨.yes, { pp with state := .ppDone }, (), []⟩ := by
  rw [processLoop, if_neg (List.cons_ne_nil _ _), PostProcessor.round, hpp]
  simp only [if_pos hb]

theorem loop_tracks {fuel : ℕ} {pp : PostProcessor} {m : Mode} {data : List UInt8}
    (h : Tracks pp m) (hclean : reader.form.Along Mode.Clean m data) (hfuel : rank pp data < fuel) :
    Tracks (processLoop takeAll fuel pp data ()).pp (reader.form.after m data) ∧
      ∀ cs fs, Shown cs fs m →
        Shown (cs ++ (processLoop takeAll fuel pp data ()).out)
          (fs ++ reader.form.outputs m data) (reader.form.after m data) := by
  induction fuel generalizing pp m data with
  | zero => omega
  | succ fuel ih =>
    by_cases hdata : data = []
    · subst hdata
      exact ⟨h, fun cs fs hs => by simpa [processLoop] using hs⟩
    · have hround := round_tracks h hdata hclean
      rw [processLoop, if_neg hdata]
      cases hr : pp.round data with
      | ret result pp' =>
        rw [hr] at hround
        exact ⟨hround.1, fun cs fs hs => by simpa using hround.2 cs fs hs⟩
      | goOn pp' rest =>
        rw [hr] at hround
        obtain ⟨eaten, rfl, hrank, htracks, hshown⟩ := hround
        rw [Transducer.along_append] at hclean
        obtain ⟨hend, hall⟩ := ih htracks hclean.2 (by unfold rank at hfuel hrank ⊢; omega)
        rw [Transducer.after_append, Transducer.outputs_append]
        refine ⟨hend, fun cs fs hs => ?_⟩
        rw [← List.append_assoc]
        exact hall cs _ (hshown cs fs hs)
      | call c refused pp' rest =>
        rw [hr] at hround
        obtain ⟨eaten, ⟨rfl, hrank, htracks, hshown⟩ | ⟨hpp', ⟨b, rest', rfl, hb⟩, hstop, hshown⟩⟩ :=
          hround
        · rw [Transducer.along_append] at hclean
          obtain ⟨hend, hall⟩ := ih htracks hclean.2 (by unfold rank at hfuel hrank ⊢; omega)
          rw [Transducer.after_append, Transducer.outputs_append]
          refine ⟨hend, fun cs fs hs => ?_⟩
          simp only [listen]
          rw [← List.append_assoc, ← List.append_assoc]
          exact hall _ _ (hshown cs fs hs)
        · obtain ⟨fuel', rfl⟩ : ∃ fuel', fuel = fuel' + 1 := by
            have hlen := List.length_pos_iff.mpr hdata
            unfold rank at hfuel
            exact ⟨fuel - 1, by omega⟩
          simp only [listen, hstop]
          rw [loop_newline hpp' hb]
          exact ⟨.done (Or.inl rfl), fun cs fs hs => by simpa [Shown] using hshown cs fs hs⟩

theorem segment_tracks {pp : PostProcessor} {m : Mode} {data : List UInt8}
    (h : Tracks pp m) (hclean : reader.form.Along Mode.Clean m data) :
    Tracks (postProcess takeAll pp data ()).pp (reader.form.after m data) ∧
      ∀ cs fs, Shown cs fs m →
        Shown (cs ++ (postProcess takeAll pp data ()).out)
          (fs ++ reader.form.outputs m data) (reader.form.after m data) := by
  unfold postProcess postProcessUrlencoded
  by_cases hdata : data = []
  · subst hdata
    exact ⟨h, fun cs fs hs => by simpa using hs⟩
  · rw [if_neg hdata]
    refine loop_tracks h hclean ?_
    unfold rank loopBudget
    split_ifs <;> omega

/-- Segment by segment, the processor and the reader stay together. -/
theorem segments_track {pp : PostProcessor} {m : Mode} {segs : List (List UInt8)}
    (h : Tracks pp m) (hclean : reader.form.Along Mode.Clean m segs.flatten) :
    Tracks ((segments takeAll).after (pp, ()) segs).1 (reader.form.after m segs.flatten) ∧
      ∀ cs fs, Shown cs fs m →
        Shown (cs ++ (segments takeAll).outputs (pp, ()) segs)
          (fs ++ reader.form.outputs m segs.flatten) (reader.form.after m segs.flatten) := by
  induction segs generalizing pp m with
  | nil => exact ⟨h, fun cs fs hs => by simpa using hs⟩
  | cons data segs ih =>
    rw [List.flatten_cons, Transducer.along_append] at hclean
    obtain ⟨htracks, hshown⟩ := segment_tracks h hclean.1
    obtain ⟨hend, hall⟩ := ih htracks hclean.2
    rw [List.flatten_cons, Transducer.after_append, Transducer.outputs_append]
    refine ⟨hend, fun cs fs hs => ?_⟩
    rw [Transducer.outputs_cons, ← List.append_assoc, ← List.append_assoc]
    exact hall _ _ (hshown cs fs hs)

/-- A newline in a value closes it, whatever escape is pending. -/
theorem valueRound_newline {key pending : List UInt8} (hp : Partial pending) (off : ℕ) :
    PostProcessor.valueRound ⟨.ppProcessValue, [], key, pending, off⟩ [0x0a] =
      .call ⟨key, [], off⟩ ⟨.ppError, [], key, pending, off⟩
        ⟨.ppExpectNewLine, [], key, pending, off⟩ [0x0a] := by
  have hkept : kept pending = pending.length := by
    simpa using kept_spells (.nil : Spells reader [] []) hp
  have hamper : ((([0x0a] : List UInt8).take xbufSize).takeWhile fun b => ¬ EndsValue b) = [] := by
    simp [xbufSize, EndsValue]
  unfold PostProcessor.valueRound
  rw [hamper]
  simp [PostProcessor.endValue, EndsValue, hkept, amper, unescaped, cstr, unescapePlus,
    httpUnescape]

/-- The newline at the end closes the open field. -/
theorem destroy_value {key pending : List UInt8} (hp : Partial pending) (off : ℕ) :
    (destroyPostProcessor takeAll ⟨.ppProcessValue, [], key, pending, off⟩ ()).2 =
      [⟨key, [], off⟩] := by
  simp [destroyPostProcessor, postProcessUrlencoded, loopBudget, processLoop, listen,
    PostProcessor.round, valueRound_newline hp]

theorem tracks_create : Tracks .create (.key []) := .key (Nat.zero_le _)

/-- However a form is cut into segments, the iterator is called for the pieces of its fields. -/
theorem calls_deliver_fields (segs : List (List UInt8)) (hclean : reader.CleanText segs.flatten) :
    Delivers (callsOf segs) (reader.fieldsOf segs.flatten) := by
  obtain ⟨htracks, hshown⟩ := segments_track tracks_create hclean
  have hall := hshown [] [] .nil
  rw [List.nil_append, List.nil_append] at hall
  unfold callsOf callsUnder Reader.fieldsOf
  dsimp only
  generalize ((segments takeAll).after (.create, ()) segs).1 = pp at htracks ⊢
  generalize reader.form.after (.key []) segs.flatten = m at htracks hall ⊢
  cases htracks with
  | key _ => simpa [destroyPostProcessor, Mode.rest, Shown] using hall
  | value hp =>
    rw [destroy_value hp]
    simpa [Mode.rest] using hall.close []
  | done hdone =>
    have hne : pp.state ≠ .ppProcessValue := by
      rcases hdone with h | h <;> simp [h]
    simpa [destroyPostProcessor, hne, Mode.rest, Shown] using hall

end IdolGateway.Microhttpd
