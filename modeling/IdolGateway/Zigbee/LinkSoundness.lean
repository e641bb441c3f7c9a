import IdolGateway.Zigbee.Link

namespace IdolGateway.Zigbee

def Frame.tail (f : Frame) : List UInt8 := 0xc0 :: (f.payload ++ [0xab])

theorem Frame.bytes_eq (f : Frame) : f.bytes = 0xaa :: f.tail := rfl

theorem Frame.append_tail (pre : List UInt8) (f : Frame) :
    pre ++ f.tail = (pre ++ 0xc0 :: f.payload) ++ [0xab] := by
  simp [tail]

section

variable (rebuf : ℕ → UInt8)

abbrev reached (s : List UInt8) : Receiver := thread.after (.idle rebuf) s

abbrev accepted (s : List UInt8) : List (List UInt8) := thread.outputs (.idle rebuf) s

abbrev acceptedWith (s : List UInt8) (ch : UInt8) : List (List UInt8) :=
  ((reached rebuf s).step ch).2

theorem reached_snoc (s : List UInt8) (ch : UInt8) :
    reached rebuf (s ++ [ch]) = ((reached rebuf s).step ch).1 :=
  thread.after_append_singleton _ s ch

theorem accepted_snoc (s : List UInt8) (ch : UInt8) :
    accepted rebuf (s ++ [ch]) = accepted rebuf s ++ acceptedWith rebuf s ch := by
  rw [accepted, Transducer.outputs_append, Transducer.outputs_cons, Transducer.outputs_nil,
    List.append_nil, thread_step]

/-- In `C0_STATE` a header lies behind, with the bytes read since; elsewhere `i` is 0. -/
def Opened (s : List UInt8) : Prop :=
  if (reached rebuf s).rxStep = .c0State then
    ∃ pre bs, s = pre ++ 0xc0 :: bs ∧ (reached rebuf pre).rxStep = .aaState ∧
      (reached rebuf pre).i = 0 ∧ bs.length ≤ 7
  else (reached rebuf s).i = 0

variable {rebuf}

theorem reached_open {pre bs : List UInt8} (haa : (reached rebuf pre).rxStep = .aaState)
    (hi : (reached rebuf pre).i = 0) (hlen : bs.length ≤ 7) :
    reached rebuf (pre ++ 0xc0 :: bs) =
        ⟨.c0State, UInt8.ofNat bs.length, writeAt (reached rebuf pre).rebuf 0 bs⟩ ∧
      accepted rebuf (pre ++ 0xc0 :: bs) = accepted rebuf pre := by
  obtain ⟨hafter, hout⟩ := feed_body (t := { reached rebuf pre with rxStep := .c0State }) bs rfl
    (by simp [hi, hlen])
  have hopen : (reached rebuf pre).step 0xc0 =
      ({ reached rebuf pre with rxStep := .c0State }, []) := by
    rw [Receiver.step_aa _ _ haa]
    rfl
  constructor
  · rw [reached, Transducer.after_append, Transducer.after_cons, thread_step, hopen, hafter]
    simp [hi]
  · rw [accepted, Transducer.outputs_append, Transducer.outputs_cons, thread_step, hopen, hout]
    simp

theorem index_lt {n : ℕ} (h : n < 7) : UInt8.ofNat n < 7 := by
  rw [UInt8.lt_iff_toNat_lt, UInt8.toNat_ofNat_of_lt' (lt_trans h (by decide))]
  exact h

theorem opened_snoc (s : List UInt8) (ch : UInt8) (hs : Opened rebuf s) :
    Opened rebuf (s ++ [ch]) := by
  unfold Opened at *
  rw [reached_snoc]
  cases hstep : (reached rebuf s).rxStep with
  | startState =>
    rw [if_neg (by rw [hstep]; decide)] at hs
    rw [Receiver.step_start _ ch hstep]
    by_cases hch : ch = 0xaa
    · simpa [hch] using hs
    · simpa [hch, hstep] using hs
  | aaState =>
    rw [if_neg (by rw [hstep]; decide)] at hs
    rw [Receiver.step_aa _ ch hstep]
    by_cases hch : ch = 0xc0
    · rw [if_pos hch, if_pos rfl, hch]
      exact ⟨s, [], rfl, hstep, hs, by simp⟩
    · simpa [hch, hstep] using hs
  | c0State =>
    rw [if_pos hstep] at hs
    obtain ⟨pre, bs, rfl, haa, hi, hlen⟩ := hs
    rw [(reached_open haa hi hlen).1]
    rcases Nat.lt_or_eq_of_le hlen with hlt | heq
    · rw [Receiver.step_body _ ch rfl (index_lt hlt), if_pos rfl]
      exact ⟨pre, bs ++ [ch], by simp, haa, hi, by simp; omega⟩
    · rw [Receiver.step_last _ ch rfl (by simp [heq]), if_neg (by simp)]

theorem opened (s : List UInt8) : Opened rebuf s := by
  induction s using List.reverseRecOn with
  | nil => exact (if_neg (by simp [Receiver.idle]) : _ = _).mpr rfl
  | append_singleton s ch ih => exact opened_snoc s ch ih

theorem index_of_aa {s : List UInt8} (h : (reached rebuf s).rxStep = .aaState) :
    (reached rebuf s).i = 0 := by
  have hs : Opened rebuf s := opened s
  rwa [Opened, if_neg (by rw [h]; decide)] at hs

theorem acceptedWith_tail {pre : List UInt8} (f : Frame)
    (haa : (reached rebuf pre).rxStep = .aaState) :
    acceptedWith rebuf (pre ++ 0xc0 :: f.payload) 0xab = [f.payload] := by
  obtain ⟨hreached, -⟩ := reached_open haa (index_of_aa haa) (le_of_eq f.length_payload)
  have hfull := step_full (reached rebuf pre).rebuf f.length_body f.body.sum 0xab
  rw [acceptedWith, hreached, f.length_payload]
  exact (congrArg Prod.snd hfull).trans (if_pos ⟨rfl, rfl⟩)

/-- Every accepted frame ends such a piece of the stream. -/
theorem acceptedWith_cases {s : List UInt8} {ch : UInt8} {b : List UInt8}
    (hb : b ∈ acceptedWith rebuf s ch) :
    ∃ pre f, s ++ [ch] = pre ++ Frame.tail f ∧ (reached rebuf pre).rxStep = .aaState ∧
      b = f.payload ∧ accepted rebuf s = accepted rebuf pre := by
  unfold acceptedWith at hb
  cases hstep : (reached rebuf s).rxStep with
  | startState =>
    rw [Receiver.step_start _ ch hstep] at hb
    simp at hb
  | aaState =>
    rw [Receiver.step_aa _ ch hstep] at hb
    simp at hb
  | c0State =>
    have hs : Opened rebuf s := opened s
    rw [Opened, if_pos hstep] at hs
    obtain ⟨pre, bs, rfl, haa, hi, hlen⟩ := hs
    obtain ⟨hreached, hquiet⟩ := reached_open haa hi hlen
    rw [hreached] at hb
    rcases Nat.lt_or_eq_of_le hlen with hlt | heq
    · rw [Receiver.step_body _ ch rfl (index_lt hlt)] at hb
      simp at hb
    · have hne : bs ≠ [] := by
        intro hnil
        simp [hnil] at heq
      -- the seven bytes are six and a check byte
      obtain ⟨body, crc, rfl⟩ : ∃ body crc, bs = body ++ [crc] :=
        ⟨bs.dropLast, bs.getLast hne, (List.dropLast_concat_getLast hne).symm⟩
      have hbody : body.length = 6 := by simpa using heq
      have hfull := congrArg Prod.snd (step_full (reached rebuf pre).rebuf hbody crc ch)
      rw [heq] at hb
      have hb' := hfull ▸ hb
      split_ifs at hb' with hok
      · obtain ⟨rfl, rfl⟩ := hok
        exact ⟨pre, ⟨body, hbody⟩, by simp [Frame.tail, Frame.payload], haa,
          by simpa [Frame.payload] using hb', hquiet⟩
      · simp at hb'

theorem accepted_tail {pre : List UInt8} (f : Frame)
    (haa : (reached rebuf pre).rxStep = .aaState) :
    accepted rebuf (pre ++ f.tail) = accepted rebuf pre ++ [f.payload] := by
  rw [f.append_tail, accepted_snoc, acceptedWith_tail f haa,
    (reached_open haa (index_of_aa haa) (le_of_eq f.length_payload)).2]

theorem acceptedWith_aa (s : List UInt8) : acceptedWith rebuf s 0xaa = [] := by
  by_contra hne
  obtain ⟨b, hb⟩ := List.exists_mem_of_ne_nil _ hne
  obtain ⟨pre, f, hs, -⟩ := acceptedWith_cases hb
  rw [f.append_tail] at hs
  have hlast := (List.append_inj' hs rfl).2
  simp at hlast

theorem accepted_mono {s s' : List UInt8} (h : s <+: s') :
    accepted rebuf s <+: accepted rebuf s' := by
  obtain ⟨r, rfl⟩ := h
  rw [accepted, accepted, Transducer.outputs_append]
  exact List.prefix_append _ _

def pieces (ps : List (List UInt8 × Frame)) : List UInt8 :=
  ps.flatMap fun p => p.1 ++ p.2.bytes

theorem pieces_take_succ {ps : List (List UInt8 × Frame)} {k : ℕ} (hk : k < ps.length) :
    pieces (ps.take (k + 1)) = pieces (ps.take k) ++ ps[k].1 ++ ps[k].2.bytes := by
  rw [List.take_succ_eq_append_getElem hk, pieces, List.flatMap_append, List.append_assoc]
  congr 1
  exact List.append_nil _

variable (rebuf) in
/-- The accepted frames are disjoint pieces of the stream, in order, and each is
accepted with the last byte of its piece. -/
def RealFrames (s : List UInt8) : Prop :=
  ∃ ps rest, s = pieces ps ++ rest ∧ accepted rebuf s = (ps.map fun p => p.2.payload) ∧
    ∀ t ch, t ++ [ch] <+: s → acceptedWith rebuf t ch ≠ [] →
      ∃ k < ps.length, t ++ [ch] = pieces (ps.take (k + 1))

variable (rebuf) in
/-- A `C0` that finds the receiver waiting for it and is followed by seven bytes with the
right sum and `AB` comes right after an `AA`. -/
def HeadersMeet (s : List UInt8) : Prop :=
  ∀ pre (f : Frame), pre ++ f.tail <+: s → (reached rebuf pre).rxStep = .aaState →
    pre.getLast? = some 0xaa

theorem HeadersMeet.of_prefix {s s' : List UInt8} (h : HeadersMeet rebuf s') (hs : s <+: s') :
    HeadersMeet rebuf s := fun pre f hpre => h pre f (hpre.trans hs)

theorem HeadersMeet.of_real {s : List UInt8} (h : RealFrames rebuf s) : HeadersMeet rebuf s := by
  obtain ⟨ps, rest, -, -, hends⟩ := h
  intro pre f hpre haa
  rw [f.append_tail] at hpre
  obtain ⟨k, hk, hpiece⟩ := hends _ _ hpre (by simp [acceptedWith_tail f haa])
  -- both sides end in nine bytes behind the first header byte
  have hline : pre ++ f.tail = (pieces (ps.take k) ++ ps[k].1 ++ [0xaa]) ++ ps[k].2.tail := by
    rw [f.append_tail, hpiece, pieces_take_succ hk, Frame.bytes_eq]
    simp
  have htails : f.tail.length = ps[k].2.tail.length := by
    simp [Frame.tail, Frame.length_payload]
  rw [(List.append_inj' hline htails).1]
  exact List.getLast?_concat

theorem prefix_of_accepts {gap s t : List UInt8} {ch : UInt8} (hgap : gap <+: s)
    (hsame : accepted rebuf gap = accepted rebuf s) (ht : t ++ [ch] <+: s)
    (hne : acceptedWith rebuf t ch ≠ []) : t ++ [ch] <+: gap := by
  by_contra hnot
  have hlt : gap.length < (t ++ [ch]).length := by
    by_contra hle
    exact hnot (List.prefix_of_prefix_length_le ht hgap (not_lt.mp hle))
  have hgt : gap <+: t := by
    apply List.prefix_of_prefix_length_le hgap ((List.prefix_append t [ch]).trans ht)
    rw [List.length_append, List.length_singleton] at hlt
    omega
  have hmore : (accepted rebuf (t ++ [ch])).length ≤ (accepted rebuf s).length :=
    (accepted_mono ht).length_le
  have hfewer : (accepted rebuf gap).length ≤ (accepted rebuf t).length :=
    (accepted_mono hgt).length_le
  have hpos := List.length_pos_of_ne_nil hne
  rw [accepted_snoc, List.length_append, ← hsame] at hmore
  omega

theorem RealFrames.snoc_quiet {s : List UInt8} {ch : UInt8} (h : RealFrames rebuf s)
    (hnone : acceptedWith rebuf s ch = []) : RealFrames rebuf (s ++ [ch]) := by
  obtain ⟨ps, rest, hs, haccepted, hends⟩ := h
  refine ⟨ps, rest ++ [ch], by rw [hs, List.append_assoc], ?_, ?_⟩
  · rw [accepted_snoc, hnone, List.append_nil, haccepted]
  · intro t c ht hne
    rcases List.prefix_concat_iff.mp ht with heq | hlt
    · obtain ⟨rfl, hc⟩ := List.append_inj' heq rfl
      rw [(List.cons.inj hc).1] at hne
      exact absurd hnone hne
    · exact hends t c hlt hne

theorem RealFrames.snoc_frame {gap s : List UInt8} {ch : UInt8} {f : Frame}
    (h : RealFrames rebuf gap) (hline : s ++ [ch] = gap ++ f.bytes)
    (haa : (reached rebuf (gap ++ [0xaa])).rxStep = .aaState)
    (hsame : accepted rebuf gap = accepted rebuf s) : RealFrames rebuf (s ++ [ch]) := by
  obtain ⟨ps, rest, hps, haccepted, hends⟩ := h
  have hall : s ++ [ch] = pieces (ps ++ [(rest, f)]) := by
    rw [hline, hps]
    simp [pieces]
  have hgap : gap <+: s := by
    apply List.prefix_of_prefix_length_le (hline ▸ List.prefix_append gap f.bytes)
      (List.prefix_append s [ch])
    have hlen := congrArg List.length hline
    rw [List.length_append, List.length_append, f.length_bytes, List.length_singleton] at hlen
    omega
  refine ⟨ps ++ [(rest, f)], [], by rw [hall, List.append_nil], ?_, ?_⟩
  · have htail : s ++ [ch] = (gap ++ [0xaa]) ++ f.tail := by
      rw [hline, f.bytes_eq]
      simp
    rw [htail, accepted_tail f haa, accepted_snoc, acceptedWith_aa, List.append_nil, haccepted]
    simp
  · intro t c ht hne
    rcases List.prefix_concat_iff.mp ht with heq | hlt
    · exact ⟨ps.length, by simp, by rw [heq, hall, List.take_of_length_le (by simp)]⟩
    · obtain ⟨k, hk, hpiece⟩ := hends t c (prefix_of_accepts hgap hsame hlt hne) hne
      refine ⟨k, by simp; omega, ?_⟩
      rw [hpiece, List.take_append_of_le_length hk]

theorem RealFrames.of_meet {s : List UInt8} (h : HeadersMeet rebuf s) : RealFrames rebuf s := by
  -- a step that accepts goes back to the bytes in front of the frame
  induction hn : s.length using Nat.strong_induction_on generalizing s with
  | _ n ih =>
    rcases List.eq_nil_or_concat' s with rfl | ⟨s, ch, rfl⟩
    · exact ⟨[], [], rfl, rfl, by simp⟩
    · by_cases hnone : acceptedWith rebuf s ch = []
      · have hbefore := ih s.length (by simp [← hn]) (h.of_prefix (List.prefix_append _ _)) rfl
        exact hbefore.snoc_quiet hnone
      · obtain ⟨b, hb⟩ := List.exists_mem_of_ne_nil _ hnone
        obtain ⟨pre, f, hs, haa, -, hquiet⟩ := acceptedWith_cases hb
        obtain ⟨gap, rfl⟩ := List.getLast?_eq_some_iff.mp (h pre f (hs ▸ List.prefix_rfl) haa)
        have hline : s ++ [ch] = gap ++ f.bytes := by
          rw [hs, f.bytes_eq]
          simp
        have hgap : RealFrames rebuf gap := by
          apply ih gap.length _ (h.of_prefix (hline ▸ List.prefix_append _ _)) rfl
          rw [← hn, hline, List.length_append, f.length_bytes]
          omega
        apply hgap.snoc_frame hline haa
        rw [hquiet, accepted_snoc, acceptedWith_aa, List.append_nil]

/-- What is accepted is ten bytes of the stream exactly if no accepted frame has other
bytes between its header bytes. -/
theorem accepted_are_frames_iff (rebuf : ℕ → UInt8) (s : List UInt8) :
    RealFrames rebuf s ↔ HeadersMeet rebuf s :=
  ⟨.of_real, .of_meet⟩

/-- A byte between the header bytes: a frame is accepted, and there is no piece for it. -/
theorem accepted_without_frame :
    ¬ ∃ ps rest, [0xaa, 0, 0xc0, 0, 0, 0, 0, 0, 0, 0, 0xab] = pieces ps ++ rest ∧
      accepted (fun _ => 0) [0xaa, 0, 0xc0, 0, 0, 0, 0, 0, 0, 0, 0xab] =
        ps.map fun p => p.2.payload := by
  rintro ⟨ps, rest, hs, haccepted⟩
  have hone : accepted (fun _ => 0) [0xaa, 0, 0xc0, 0, 0, 0, 0, 0, 0, 0, 0xab] =
      [[0, 0, 0, 0, 0, 0, 0]] := by decide
  have hlen := congrArg List.length haccepted
  rw [hone, List.length_map, List.length_singleton] at hlen
  obtain ⟨⟨gap, f⟩, rfl⟩ := List.length_eq_one_iff.mp hlen.symm
  match gap with
  | [] => simp [pieces, Frame.bytes] at hs
  | [a] => simp [pieces, Frame.bytes] at hs
  | a :: b :: gap =>
    have := congrArg List.length hs
    simp [pieces, f.length_bytes] at this
    omega

end

end IdolGateway.Zigbee
