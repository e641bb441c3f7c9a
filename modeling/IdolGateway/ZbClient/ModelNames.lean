import IdolGateway.ZbClient.BodyBlock
import IdolGateway.ZbClient.DispatchReads
import IdolGateway.ZbClient.Joins

/-!
# Recognising a model name

The name in a join report is copied into a block of just its length and compared there as
a string.  A name that fills its block is compared with what follows the block on the heap,
unless it differs from every model before it ends: the exact name is the case that fails.
-/

namespace IdolGateway.ZbClient

open Procedure

/-- The bytes of the frame and those of the block; nothing behind the block. -/
def InsideBlock (l : Loc) : Prop := ∀ i, l ≠ .behind i

theorem insideBlock_rx (i : ℕ) : InsideBlock (.rx i) := fun _ h => nomatch h

section

variable {mem : Loc → UInt8} {block : List UInt8}

theorem readsWithin_blockByte_iff (w : World) {k : ℕ} :
    ReadsWithin InsideBlock (blockByte block k) mem w ↔ k < block.length := by
  unfold blockByte
  by_cases hk : k < block.length
  · rw [List.getElem?_eq_getElem hk]
    exact iff_of_true (readsWithin_pure _) hk
  · rw [List.getElem?_eq_none (not_lt.mp hk)]
    refine iff_of_false (fun h => ?_) hk
    exact (readsWithin_cell _).mp h _ rfl

/-- The comparison stays inside the block unless the literal begins with all the block. -/
theorem readsWithin_strcmpEq_iff (w : World) {k : ℕ} (hk : k ≤ block.length)
    (literal : List UInt8) :
    ReadsWithin InsideBlock (strcmpEq block k literal) mem w ↔ ¬ block.drop k <+: literal := by
  induction literal generalizing k w with
  | nil =>
    rw [strcmpEq, readsWithin_bind, readsWithin_blockByte_iff, List.prefix_nil,
      List.drop_eq_nil_iff, not_le]
    exact and_iff_left (readsWithin_pure _)
  | cons c cs ih =>
    rw [strcmpEq, readsWithin_bind, readsWithin_blockByte_iff, run_blockByte]
    dsimp only
    rcases lt_or_eq_of_le hk with hlt | rfl
    · have hbyte : byteFrom mem block k = block[k] := by simp [byteFrom, hlt]
      rw [List.drop_eq_getElem_cons hlt, List.cons_prefix_cons, hbyte]
      by_cases hc : block[k] = c
      · rw [if_pos hc, ih w hlt]
        simp [hlt, hc]
      · rw [if_neg hc]
        exact iff_of_true ⟨hlt, readsWithin_pure _⟩ (fun h => hc h.1)
    · simp

theorem holdsString_iff {k : ℕ} (hk : k ≤ block.length) {literal : List UInt8}
    (h : ¬ block.drop k <+: literal) :
    holdsString mem block k literal = true ↔ literal ++ [0] <+: block.drop k := by
  induction literal generalizing k with
  | nil =>
    rw [List.prefix_nil, List.drop_eq_nil_iff, not_le] at h
    have hbyte : byteFrom mem block k = block[k] := by simp [byteFrom, h]
    rw [holdsString, hbyte, List.drop_eq_getElem_cons h, List.nil_append, List.cons_prefix_cons]
    simp [eq_comm]
  | cons c cs ih =>
    rcases lt_or_eq_of_le hk with hlt | rfl
    · have hbyte : byteFrom mem block k = block[k] := by simp [byteFrom, hlt]
      rw [List.drop_eq_getElem_cons hlt, List.cons_prefix_cons] at h
      rw [holdsString, hbyte, List.drop_eq_getElem_cons hlt, List.cons_append,
        List.cons_prefix_cons]
      by_cases hc : block[k] = c
      · rw [if_pos hc, ih hlt fun hpre => h ⟨hc, hpre⟩]
        simp [hc]
      · rw [if_neg hc]
        simp [Ne.symm hc]
    · simp at h

/-- The string in the block is the literal, if the block does not end inside it. -/
theorem prefix_nul_iff {literal : List UInt8} (h0 : 0 ∉ literal) (h : ¬ block <+: literal) :
    literal ++ [0] <+: block ↔ literal = block.takeWhile (· ≠ 0) := by
  have hne : ∀ b ∈ literal, b ≠ 0 := by
    rintro b hb rfl
    exact h0 hb
  constructor
  · rintro ⟨rest, rfl⟩
    rw [List.append_assoc, List.singleton_append, takeWhile_terminated hne]
  · intro heq
    have hsplit := List.takeWhile_append_dropWhile (p := fun b : UInt8 => b ≠ 0) (l := block)
    rw [← heq] at hsplit
    cases hdrop : block.dropWhile (· ≠ 0) with
    | nil =>
      rw [hdrop, List.append_nil] at hsplit
      exact absurd (hsplit ▸ List.prefix_rfl) h
    | cons b rest =>
      have hb : b = 0 := by
        have hhead := List.head?_dropWhile_not (fun b : UInt8 => b ≠ 0) block
        rw [hdrop, List.head?_cons] at hhead
        simpa using hhead
      rw [hdrop, hb] at hsplit
      exact ⟨rest, by rw [List.append_assoc, List.singleton_append]; exact hsplit⟩

theorem readsWithin_joinAs_iff [JsonC] (w : World) (id : UInt16)
    (models : List (List UInt8 × UInt8)) (h0 : ∀ m ∈ models, 0 ∉ m.1) :
    ReadsWithin InsideBlock (joinAs id block models) mem w ↔ ∀ m ∈ models, ¬ block <+: m.1 := by
  induction models with
  | nil => exact iff_of_true (readsWithin_pure _) (by simp)
  | cons m rest ih =>
    rw [joinAs, readsWithin_bind, readsWithin_strcmpEq_iff w (Nat.zero_le _), List.drop_zero,
      run_strcmpEq, List.forall_mem_cons]
    refine and_congr_right fun hm => ?_
    have hrest := ih fun m hm => h0 m (List.mem_cons_of_mem _ hm)
    dsimp only
    by_cases hsame : holdsString mem block 0 m.1 = true
    · rw [if_pos hsame]
      -- the block holds a NUL, so no other model begins with it
      have hpre := (holdsString_iff (Nat.zero_le _) hm).mp hsame
      rw [List.drop_zero] at hpre
      have hnul : 0 ∈ block := hpre.subset (by simp)
      exact iff_of_true (readsWithin_appendSensor id m.2) fun m' hm' h =>
        h0 m' (List.mem_cons_of_mem _ hm') (h.subset hnul)
    · rw [if_neg hsame]
      exact hrest

theorem recognised_eq (models : List (List UInt8 × UInt8)) (h0 : ∀ m ∈ models, 0 ∉ m.1)
    (h : ∀ m ∈ models, ¬ block <+: m.1) :
    recognised mem block models =
      (models.find? fun m => m.1 = block.takeWhile (· ≠ 0)).map Prod.snd := by
  induction models with
  | nil => rfl
  | cons m rest ih =>
    obtain ⟨model, type⟩ := m
    have hm : ¬ block <+: model := h _ List.mem_cons_self
    have hnul : 0 ∉ model := h0 _ List.mem_cons_self
    have hrest := ih (fun m hm => h0 m (List.mem_cons_of_mem _ hm))
      fun m hm => h m (List.mem_cons_of_mem _ hm)
    have hsame : holdsString mem block 0 model = true ↔ model = block.takeWhile (· ≠ 0) :=
      (holdsString_iff (Nat.zero_le _) hm).trans (prefix_nul_iff hnul hm)
    rw [recognised]
    by_cases heq : model = block.takeWhile (· ≠ 0)
    · rw [if_pos (hsame.mpr heq), List.find?_cons_of_pos (by simpa using heq)]
      rfl
    · rw [if_neg (hsame.not.mpr heq), hrest, List.find?_cons_of_neg (by simpa using heq)]

end

theorem firstCells_succ_left (src : ℕ → UInt8) (n : ℕ) :
    firstCells src (n + 1) = src 0 :: firstCells (fun i => src (i + 1)) n := by
  simp [firstCells, List.range_succ_eq_map]

theorem copied_eq_strncpyBlock (mem : Loc → UInt8) (start n : ℕ) :
    copied mem start n = strncpyBlock (fun i => mem (.rx (start + i))) n := by
  induction n generalizing start with
  | zero => rfl
  | succ n ih =>
    have hnext : (fun i => mem (.rx (start + (i + 1)))) = fun i => mem (.rx (start + 1 + i)) := by
      funext i
      rw [Nat.add_right_comm, Nat.add_assoc]
    rw [copied, strncpyBlock_eq, textOf, firstCells_succ_left, hnext]
    by_cases h0 : mem (.rx start) = 0
    · simp [h0]
    · rw [if_neg h0, ih (start + 1), strncpyBlock_eq, textOf,
        List.takeWhile_cons_of_pos (by simpa using h0)]
      simp

section

variable (src : ℕ → UInt8) (n : ℕ)

theorem takeWhile_strncpyBlock :
    (strncpyBlock src n).takeWhile (· ≠ 0) = textOf src n := by
  have hne : ∀ b ∈ textOf src n, decide (b ≠ 0) = true := fun b hb => by
    simpa using textOf_ne_zero src n b hb
  rw [strncpyBlock_eq, List.takeWhile_append_of_pos hne]
  cases n - (textOf src n).length <;> simp [List.replicate_succ]

/-- A name without a NUL begins with the block exactly if it begins with the bytes copied. -/
theorem strncpyBlock_prefix_iff {model : List UInt8} (h0 : 0 ∉ model) :
    strncpyBlock src n <+: model ↔ firstCells src n <+: model := by
  by_cases hnul : ∃ i < n, src i = 0
  · have hpad : 0 ∈ strncpyBlock src n := by
      have hlt := textOf_length_lt_iff.mpr hnul
      rw [strncpyBlock_eq]
      simp
      omega
    obtain ⟨i, hi, hsrc⟩ := hnul
    have hcell : 0 ∈ firstCells src n := List.mem_map.mpr ⟨i, List.mem_range.mpr hi, hsrc⟩
    exact iff_of_false (fun h => h0 (h.subset hpad)) fun h => h0 (h.subset hcell)
  · push Not at hnul
    have hlen : (textOf src n).length = n := by rw [textOf_of_no_nul hnul, firstCells_length]
    rw [strncpyBlock_eq, hlen, Nat.sub_self, List.replicate_zero, List.append_nil,
      textOf_of_no_nul hnul]

end

/-- A report of a model name by a sensor that may join `w`. -/
structure JoinReport (w : World) (rx : ℕ → UInt8) (len : UInt8) : Prop where
  cmd : rx 0 = mxjXiaomi18
  long : 27 ≤ len
  cluster : word (rx 4) (rx 5) = 0
  fits : (rx 12).toNat + 13 ≤ len.toNat
  absent : w.lookup (word (rx 2) (rx 3)) = none
  room : w.devsize.toNat < devSize

def nameBlock (rx : ℕ → UInt8) : List UInt8 := firstCells (fun i => rx (13 + i)) (rx 12).toNat

def namedType (rx : ℕ → UInt8) : Option UInt8 :=
  (modelTypes.find? fun m => m.1 = (nameBlock rx).takeWhile (· ≠ 0)).map Prod.snd

/-- Whatever stands around the block, the sensor joins if its name says so, and the name is
read inside the block. -/
structure World.RecognisesName [JsonC] (w : World) (now : Tm) (rx : ℕ → UInt8) (len : UInt8) :
    Prop where
  appended : ∀ behind, ((recieveUsart now len).run (memory rx behind) w).state.entries =
    w.entries ++ (namedType rx).toList.map (w.newEntry (word (rx 2) (rx 3)))
  inside : ∀ behind, ReadsWithin InsideBlock (recieveUsart now len) (memory rx behind) w

theorem models_no_nul : ∀ m ∈ modelTypes, 0 ∉ m.1 := by decide +kernel

section

variable {w : World} {rx : ℕ → UInt8} {len : UInt8} (h : JoinReport w rx len) (behind : ℕ → UInt8)

include h

theorem JoinReport.idOf_eq : idOf (memory rx behind) len = word (rx 2) (rx 3) := by
  have h4 : 4 ≤ len := by
    have hlong := UInt8.le_iff_toNat_le.mp h.long
    rw [UInt8.le_iff_toNat_le]
    simp only [UInt8.reduceToNat] at hlong ⊢
    omega
  exact if_pos h4

theorem JoinReport.cidOf_eq : cidOf (memory rx behind) len = 0 := by
  have h6 : 6 ≤ len := by
    have hlong := UInt8.le_iff_toNat_le.mp h.long
    rw [UInt8.le_iff_toNat_le]
    simp only [UInt8.reduceToNat] at hlong ⊢
    omega
  exact (if_pos h6).trans h.cluster

theorem JoinReport.readsWithin_iff [JsonC] (now : Tm) :
    ReadsWithin InsideBlock (recieveUsart now len) (memory rx behind) w ↔
      ReadsWithin InsideBlock
        (joinAs (word (rx 2) (rx 3)) (copied (memory rx behind) 13 (rx 12).toNat) modelTypes)
        (memory rx behind) { w with tblock := now } := by
  have hrx : ∀ i < len.toNat, InsideBlock (.rx i) := fun i _ => insideBlock_rx i
  have hdispatch : dispatch now len (word (rx 2) (rx 3)) 0 (memory rx behind (.rx 0)) =
      xiaomi18 now len (word (rx 2) (rx 3)) 0 := by
    have hcmd : memory rx behind (.rx 0) = mxjXiaomi18 := h.cmd
    rw [hcmd]
    rfl
  have hlookup : ({ w with tblock := now } : World).lookup (word (rx 2) (rx 3)) = none := h.absent
  unfold recieveUsart
  simp only [readsWithin_bind, readsWithin_modify, readsWithin_cell, run_modify, run_dump,
    run_frameId, run_frameCid, run_cell, true_and, h.idOf_eq, h.cidOf_eq, hdispatch]
  rw [and_iff_right (readsWithin_dump hrx), and_iff_right (readsWithin_frameId hrx),
    and_iff_right (readsWithin_frameCid hrx), and_iff_right (insideBlock_rx 0), xiaomi18,
    readsWithin_bind, and_iff_right (readsWithin_findDev _), run_findDev, hlookup,
    World.beat_of_none hlookup]
  -- no cluster follows the join
  have hcluster : (if (0 : UInt16) = 6 then onOffReport now len (word (rx 2) (rx 3))
      else if (0 : UInt16) = 0x406 then occupancyReport len (word (rx 2) (rx 3))
      else if (0 : UInt16) = 0x402 then measureReport len
      else if (0 : UInt16) = 0x405 then measureReport len
      else pure ()) = pure () := rfl
  rw [readsWithin_bind, hcluster, and_iff_left (readsWithin_pure _), sensorJoin, readsWithin_when,
    readsWithin_when]
  simp only [h.long, true_imp_iff]
  have hfits : (memory rx behind (.rx 12)).toNat + 13 ≤ len.toNat := h.fits
  rw [readsWithin_bind, readsWithin_cell, and_iff_right (insideBlock_rx 12), readsWithin_when,
    run_cell]
  simp only [hfits, and_self, true_imp_iff]
  rw [readsWithin_bind, and_iff_right (readsWithin_strncpyRx hrx 13 _ (by omega)), run_strncpyRx]
  rfl

end

/-- A join report is handled as its name says exactly when no model begins with the name,
taken as long as it says it is. -/
theorem recognises_name_iff [JsonC] (w : World) (now : Tm) (rx : ℕ → UInt8) (len : UInt8)
    (h : JoinReport w rx len) :
    w.RecognisesName now rx len ↔ ∀ m ∈ modelTypes, ¬ nameBlock rx <+: m.1 := by
  have hblock : ∀ behind, copied (memory rx behind) 13 (rx 12).toNat =
      strncpyBlock (fun i => rx (13 + i)) (rx 12).toNat :=
    fun behind => copied_eq_strncpyBlock (memory rx behind) 13 _
  have hstarts : (∀ m ∈ modelTypes,
      ¬ strncpyBlock (fun i => rx (13 + i)) (rx 12).toNat <+: m.1) ↔
        ∀ m ∈ modelTypes, ¬ nameBlock rx <+: m.1 :=
    forall₂_congr fun m hm => not_congr (strncpyBlock_prefix_iff _ _ (models_no_nul m hm))
  have hinside : ∀ behind, ReadsWithin InsideBlock (recieveUsart now len) (memory rx behind) w ↔
      ∀ m ∈ modelTypes, ¬ nameBlock rx <+: m.1 := by
    intro behind
    rw [h.readsWithin_iff behind now, readsWithin_joinAs_iff _ _ modelTypes models_no_nul,
      hblock, hstarts]
  refine ⟨fun hname => (hinside fun _ => 0).mp (hname.inside _), fun hpre => ⟨fun behind => ?_, ?_⟩⟩
  · have hjoin : w.joinType (memory rx behind) len = namedType rx := by
      have htype : sensorType (memory rx behind) len =
          recognised (memory rx behind) (copied (memory rx behind) 13 (rx 12).toNat) modelTypes :=
        if_pos ⟨h.cmd, h.long, h.cidOf_eq behind, h.fits⟩
      have habsent : w.lookup (idOf (memory rx behind) len) = none := by
        rw [h.idOf_eq behind, h.absent]
      rw [World.joinType, if_pos habsent, htype, hblock,
        recognised_eq modelTypes models_no_nul (hstarts.mpr hpre), takeWhile_strncpyBlock]
      rfl
    rw [entries_frame, World.appends, hjoin, h.idOf_eq behind]
    cases namedType rx with
    | none => rfl
    | some type => exact congrArg (w.entries ++ ·) (if_pos h.room)
  · exact fun behind => (hinside behind).mpr hpre

/-- The report of `joinFrame`, with a name of `n` bytes from `rx[13]` on. -/
def buttonReport (n : UInt8) (name : List UInt8) (i : ℕ) : UInt8 :=
  ([mxjXiaomi18, 30, 0, 1, 0, 0, 0, 0, 0, 0, 0, 0, n] ++ name).getD i 0

/-- With a NUL counted in, the name is recognised. -/
theorem recognises_terminated_name :
    letI := spacedJsonC
    World.zero.RecognisesName march (buttonReport 19 (switchModel ++ [0])) 32 :=
  (@recognises_name_iff spacedJsonC World.zero march (buttonReport 19 (switchModel ++ [0])) 32
    ⟨rfl, by decide, by decide, by decide, by decide, by decide⟩).mpr (by decide +kernel)

/-- The exact name is not, when a byte other than NUL lies behind the block. -/
theorem exact_name_not_recognised :
    letI := spacedJsonC
    JoinReport World.zero (buttonReport 18 switchModel) 31 ∧
      ¬ World.zero.RecognisesName march (buttonReport 18 switchModel) 31 ∧
      namedType (buttonReport 18 switchModel) = some 0x0b ∧
      ((recieveUsart march 31).run (memory (buttonReport 18 switchModel) fun _ => 1)
        World.zero).state.entries = [] := by
  have hnamed : namedType (buttonReport 18 switchModel) = some 0x0b := by decide +kernel
  have hentries : ((@recieveUsart spacedJsonC march 31).run
      (memory (buttonReport 18 switchModel) fun _ => 1) World.zero).state.entries = [] := by
    decide +kernel
  refine ⟨⟨rfl, by decide, by decide, by decide, by decide, by decide⟩, fun h => ?_, hnamed,
    hentries⟩
  have happended := @World.RecognisesName.appended spacedJsonC _ _ _ _ h fun _ => 1
  rw [hentries, hnamed] at happended
  exact absurd happended (by simp)

end IdolGateway.ZbClient
