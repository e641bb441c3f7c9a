import IdolGateway.Microhttpd.Iterators

namespace IdolGateway.Microhttpd

open UrlForm (EndsValue percent amper equals)

structure PostProcessor.Fits (pp : PostProcessor) : Prop where
  buf_le : pp.buf.length ≤ bufferSize
  key_le : pp.key.length ≤ bufferSize
  xbuf_le : pp.xbuf.length ≤ 2

theorem httpUnescape_length_le (val : List UInt8) : (httpUnescape val).length ≤ val.length := by
  fun_induction httpUnescape val with
  | case1 => exact le_rfl
  | case2 c d rest' num _ ih => simp; omega
  | case3 c d rest' _ ih => simpa using ih
  | case4 => exact Nat.zero_le _
  | case5 b rest _ ih => simpa using ih

theorem unescaped_length_le (xbuf : List UInt8) : (unescaped xbuf).length ≤ xbuf.length := by
  refine (httpUnescape_length_le _).trans ?_
  rw [unescapePlus, List.length_map]
  exact (List.takeWhile_prefix _).length_le

theorem kept_le (xbuf : List UInt8) : kept xbuf ≤ 2 := by
  unfold kept
  split_ifs <;> omega

/-- What a round leaves fits, and is nearer to the end. -/
def RoundFits (before : ℕ) : Round → Prop
  | .ret _ pp => pp.Fits
  | .goOn pp rest => pp.Fits ∧ rank pp rest < before
  | .call c refused pp rest => c.data.length ≤ xbufSize ∧ c.key.length ≤ bufferSize ∧
      refused.Fits ∧ pp.Fits ∧ rank pp rest < before

theorem initRound_fits {pp : PostProcessor} (h : pp.Fits) (hstate : pp.state = .ppInit)
    {data : List UInt8} (hdata : data ≠ []) : RoundFits (rank pp data) (pp.initRound data) := by
  have hlen := List.length_pos_iff.mpr hdata
  have hname : (data.takeWhile (· ≠ equals)).length ≤ data.length :=
    (List.takeWhile_prefix _).length_le
  unfold PostProcessor.initRound
  dsimp only
  split_ifs with hlong hall
  · exact ⟨h.buf_le, h.key_le, h.xbuf_le⟩
  · exact ⟨by rw [List.length_append]; omega, h.key_le, h.xbuf_le⟩
  · refine ⟨⟨Nat.zero_le _, ?_, h.xbuf_le⟩, ?_⟩
    · refine (unescaped_length_le _).trans ?_
      rw [List.length_append]
      omega
    · simp only [rank, hstate, List.length_drop, if_true, reduceCtorEq, if_false]
      omega

theorem endValue_fits {pp : PostProcessor} (h : pp.Fits) (found : Bool) (rest : List UInt8) :
    (pp.endValue found rest).1.Fits := by
  unfold PostProcessor.endValue
  split
  · split_ifs <;> exact ⟨h.buf_le, h.key_le, h.xbuf_le⟩
  · exact h

/-- At a sign that ends the value the state changes; otherwise a byte has been taken. -/
theorem endValue_rank {pp : PostProcessor} {found : Bool} {rest data : List UInt8}
    (hrest : rest.length ≤ data.length)
    (h : rest.length < data.length ∨ found = true ∧ ∃ b rest', rest = b :: rest' ∧ EndsValue b) :
    rank (pp.endValue found rest).1 (pp.endValue found rest).2 < 2 * data.length + 1 := by
  have hany : ∀ pp' : PostProcessor, rank pp' rest ≤ 2 * rest.length + 1 := by
    intro pp'
    unfold rank
    split_ifs <;> omega
  unfold PostProcessor.endValue
  split
  · rename_i b rest'
    split_ifs with hamp hend
    · simp only [rank, reduceCtorEq, if_false, List.length_cons] at hrest ⊢
      omega
    · simp only [rank, reduceCtorEq, if_false]
      omega
    · rcases h with h | ⟨-, b', rest'', heq, hb'⟩
      · exact lt_of_le_of_lt (hany pp) (by omega)
      · cases heq
        exact absurd hb' hend
  · rename_i hnot
    rcases h with h | ⟨hfound, b, rest', heq, -⟩
    · exact lt_of_le_of_lt (hany pp) (by omega)
    · exact absurd heq (hnot b rest' hfound)

theorem valueRound_fits {pp : PostProcessor} (h : pp.Fits) (hstate : pp.state = .ppProcessValue)
    {data : List UInt8} (hdata : data ≠ []) : RoundFits (rank pp data) (pp.valueRound data) := by
  have hlen := List.length_pos_iff.mpr hdata
  have hrank : rank pp data = 2 * data.length + 1 := by simp [rank, hstate]
  have hxbuf := h.xbuf_le
  have hbig : xbufSize = 512 := rfl
  unfold PostProcessor.valueRound
  dsimp only
  set a := ((data.take xbufSize).takeWhile fun b => ¬ EndsValue b).length with ha
  set n := min a (xbufSize - pp.xbuf.length) with hn
  generalize hx : pp.xbuf ++ data.take n = xbuf
  have hxlen : xbuf.length ≤ xbufSize := by
    rw [← hx, List.length_append, List.length_take]
    omega
  have hfits : ∀ state off, PostProcessor.Fits
      ⟨state, pp.buf, pp.key, xbuf.drop (xbuf.length - kept xbuf), off⟩ := by
    intro state off
    refine ⟨h.buf_le, h.key_le, ?_⟩
    have := kept_le xbuf
    rw [List.length_drop]
    omega
  rw [hrank]
  split_ifs with h0
  · refine ⟨hfits _ _, ?_⟩
    simp only [rank, hstate, if_true, h0.2, List.length_nil]
    omega
  · refine ⟨?_, h.key_le, hfits _ _, endValue_fits (hfits _ _) _ _, endValue_rank ?_ ?_⟩
    · refine (unescaped_length_le _).trans ?_
      rw [List.length_take]
      omega
    · rw [List.length_drop]
      omega
    · rw [List.length_drop]
      by_cases hn0 : 0 < n
      · exact Or.inl (by omega)
      · have ha0 : a = 0 := by omega
        have hn0' : n = 0 := by omega
        obtain ⟨b, rest', rfl⟩ := List.exists_cons_of_ne_nil hdata
        have hb : EndsValue b := ends_of_amper_zero (ha.symm.trans ha0)
        rw [ha0, hn0']
        exact Or.inr ⟨by simp [hb], b, rest', rfl, hb⟩

theorem round_fits {pp : PostProcessor} (h : pp.Fits) {data : List UInt8} (hdata : data ≠ []) :
    RoundFits (rank pp data) (pp.round data) := by
  unfold PostProcessor.round
  cases hstate : pp.state with
  | ppError => exact h
  | ppDone => exact ⟨h.buf_le, h.key_le, h.xbuf_le⟩
  | ppInit => exact initRound_fits h hstate hdata
  | ppProcessValue => exact valueRound_fits h hstate hdata
  | ppExpectNewLine =>
    obtain ⟨b, rest, rfl⟩ := List.exists_cons_of_ne_nil hdata
    dsimp only
    split_ifs
    · exact ⟨h.buf_le, h.key_le, h.xbuf_le⟩
    · exact h

section

variable {σ ω : Type}

/-- More rounds than the rank counts are never needed. -/
theorem loop_enough (ikvi : Iterator σ ω) {pp : PostProcessor} (h : pp.Fits) (data : List UInt8)
    (s : σ) {fuel fuel' : ℕ} (hfuel : rank pp data < fuel) (hfuel' : rank pp data < fuel') :
    processLoop ikvi fuel pp data s = processLoop ikvi fuel' pp data s := by
  induction fuel generalizing pp data s fuel' with
  | zero => omega
  | succ fuel ih =>
    obtain ⟨fuel', rfl⟩ : ∃ k, fuel' = k + 1 := ⟨fuel' - 1, by omega⟩
    rw [processLoop, processLoop]
    by_cases hdata : data = []
    · rw [if_pos hdata, if_pos hdata]
    · rw [if_neg hdata, if_neg hdata]
      have hround := round_fits h hdata
      cases hr : pp.round data with
      | ret result pp' => rfl
      | goOn pp' rest =>
        rw [hr] at hround
        exact ih hround.1 rest s (by have := hround.2; omega) (by have := hround.2; omega)
      | call c refused pp' rest =>
        rw [hr] at hround
        obtain ⟨-, -, -, hfits, hlt⟩ := hround
        dsimp only
        cases (ikvi s c).1 with
        | no => rfl
        | yes =>
          have hrest := @ih pp' hfits rest (ikvi s c).2.1 fuel' (by omega) (by omega)
          dsimp only
          rw [hrest]

end

section

variable (verdict : Call → MhdResult)

def Call.Fits (c : Call) : Prop := c.data.length ≤ xbufSize ∧ c.key.length ≤ bufferSize

theorem loop_fits {pp : PostProcessor} (h : pp.Fits) (fuel : ℕ) (data : List UInt8) :
    (processLoop (listen verdict) fuel pp data ()).pp.Fits ∧
      ∀ c ∈ (processLoop (listen verdict) fuel pp data ()).out, c.Fits := by
  induction fuel generalizing pp data with
  | zero => exact ⟨h, by simp [processLoop]⟩
  | succ fuel ih =>
    rw [processLoop]
    by_cases hdata : data = []
    · rw [if_pos hdata]
      exact ⟨h, by simp⟩
    · rw [if_neg hdata]
      have hround := round_fits h hdata
      cases hr : pp.round data with
      | ret result pp' =>
        rw [hr] at hround
        exact ⟨hround, by simp⟩
      | goOn pp' rest =>
        rw [hr] at hround
        exact ih hround.1 rest
      | call c refused pp' rest =>
        rw [hr] at hround
        obtain ⟨hdata', hkey, hrefused, hfits, -⟩ := hround
        obtain ⟨hpp, hout⟩ := ih hfits rest
        simp only [listen] at hpp hout ⊢
        cases verdict c with
        | no => exact ⟨hrefused, by simpa using ⟨hdata', hkey⟩⟩
        | yes => exact ⟨hpp, by simpa using ⟨⟨hdata', hkey⟩, hout⟩⟩

theorem postProcess_fits {pp : PostProcessor} (h : pp.Fits) (data : List UInt8) :
    (postProcess (listen verdict) pp data ()).pp.Fits ∧
      ∀ c ∈ (postProcess (listen verdict) pp data ()).out, c.Fits := by
  unfold postProcess
  split_ifs
  · exact ⟨h, by simp⟩
  · exact loop_fits verdict h _ data

theorem create_fits : PostProcessor.create.Fits := ⟨Nat.zero_le _, Nat.zero_le _, Nat.zero_le _⟩

theorem destroy_fits {pp : PostProcessor} (h : pp.Fits) :
    ∀ c ∈ (destroyPostProcessor (listen verdict) pp ()).2, c.Fits := by
  unfold destroyPostProcessor
  split_ifs
  · exact (loop_fits verdict h _ _).2
  · simp

theorem segments_fit (segs : List (List UInt8)) :
    ((segments (listen verdict)).after (.create, ()) segs).1.Fits ∧
      ∀ c ∈ (segments (listen verdict)).outputs (.create, ()) segs, c.Fits := by
  induction segs using List.reverseRecOn with
  | nil => exact ⟨create_fits, by simp⟩
  | append_singleton segs data ih =>
    rw [Transducer.after_append_singleton, Transducer.outputs_append, Transducer.outputs_cons,
      Transducer.outputs_nil, List.append_nil, List.forall_mem_append]
    have hstep := postProcess_fits verdict ih.1 data
    exact ⟨hstep.1, ih.2, hstep.2⟩

theorem rank_lt_budget (pp : PostProcessor) (data : List UInt8) :
    rank pp data < loopBudget data := by
  unfold rank loopBudget
  split_ifs <;> omega

/-- For every body in any segments, whatever is refused: the buffers are never left, no call is
larger than they are, and no loop needs more rounds than it is given. -/
theorem stays_in_buffers (segs : List (List UInt8)) :
    (∀ c ∈ callsUnder verdict segs, c.Fits) ∧
      (segments (listen verdict)).Along (fun s data =>
        s.1.Fits ∧ ∀ fuel, loopBudget data ≤ fuel →
          processLoop (listen verdict) fuel s.1 data () =
            postProcessUrlencoded (listen verdict) s.1 data ()) (.create, ()) segs := by
  constructor
  · intro c hc
    rcases List.mem_append.mp hc with hc | hc
    · exact (segments_fit verdict segs).2 c hc
    · exact destroy_fits verdict (segments_fit verdict segs).1 c hc
  · rw [Transducer.along_iff]
    intro pre data post _
    have hfits := (segments_fit verdict pre).1
    exact ⟨hfits, fun fuel hfuel => loop_enough _ hfits data ()
      (lt_of_lt_of_le (rank_lt_budget _ data) hfuel) (rank_lt_budget _ data)⟩

end

end IdolGateway.Microhttpd
