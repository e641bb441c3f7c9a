import IdolGateway.ZbClient.ReceiverInvariant

namespace IdolGateway.ZbClient

/-- A byte consumed in `LEN_STATE` lies between `lo` and `hi`. -/
def LenByteIn (lo hi : ℕ) (s : Option Receiver) (ch : UInt8) : Prop :=
  ∀ t, s = some t → t.state = .lenState → lo ≤ ch.toNat ∧ ch.toNat ≤ hi

instance LenByteIn.decidable (lo hi : ℕ) (s : Option Receiver) (ch : UInt8) :
    Decidable (LenByteIn lo hi s ch) :=
  match s with
  | none => isTrue fun _ h => nomatch h
  | some t => decidable_of_iff (t.state = .lenState → lo ≤ ch.toNat ∧ ch.toNat ≤ hi)
      ⟨fun h _ ht => Option.some.inj ht ▸ h, fun h => h t rfl⟩

def InWW (s : Option Receiver) : Prop := ∃ t, s = some t ∧ t.state = .wwState

namespace Receiver

def LenIn (lo hi : ℕ) (t : Receiver) : Prop :=
  t.state = .dataState ∨ t.state = .fcsState → lo ≤ t.lenToken.toNat ∧ t.lenToken.toNat ≤ hi

/-- `DATA_STATE` still waits for at least one byte. -/
def Filling (t : Receiver) : Prop :=
  t.state = .dataState → t.tempDataLen.toNat + 1 < t.lenToken.toNat

theorem dataStep_lenToken (t : Receiver) (ch : UInt8) :
    ∃ t', (t.dataStep ch).1 = some t' ∧ t'.lenToken = t.lenToken := by
  by_cases hend : ((t.tempDataLen + 1).toNat : ℤ) = (t.lenToken.toNat : ℤ) - 1
  · rw [t.dataStep_of_eq ch hend]
    exact ⟨_, rfl, rfl⟩
  · rw [t.dataStep_of_ne ch hend]
    exact ⟨_, rfl, rfl⟩

theorem lenIn_step {lo hi : ℕ} (hhi : hi < 255) (t : Receiver) (ch : UInt8) (ht : t.LenIn lo hi)
    (hch : LenByteIn lo hi (some t) ch) : ∃ t', (t.step ch).1 = some t' ∧ t'.LenIn lo hi := by
  cases hs : t.state with
  | wwState =>
    rw [t.step_ww ch hs]
    refine ⟨_, rfl, ?_⟩
    split_ifs <;> simp [LenIn, hs]
  | aaState =>
    rw [t.step_aa ch hs]
    refine ⟨_, rfl, ?_⟩
    split_ifs <;> simp [LenIn]
  | cmdState1 =>
    rw [t.step_cmd ch hs]
    exact ⟨_, rfl, by simp [LenIn]⟩
  | lenState =>
    rw [t.step_len ch hs]
    exact ⟨_, rfl, fun _ => hch t rfl hs⟩
  | dataState =>
    rw [t.step_data ch hs]
    obtain ⟨t', hafter, htoken⟩ := t.dataStep_lenToken ch
    exact ⟨t', hafter, fun _ => by rw [htoken]; exact ht (Or.inl hs)⟩
  | fcsState =>
    rw [t.step_fcs ch hs]
    have hlt : t.lenToken.toNat < 255 := by have := (ht (Or.inr hs)).2; omega
    obtain ⟨t', hafter, hww, -, -⟩ := t.fcsStep_spec ch hlt
    exact ⟨t', hafter, by simp [LenIn, hww]⟩

theorem filling_step {hi : ℕ} (hhi : hi < 255) (t : Receiver) (ch : UInt8) (ht : t.LenIn 2 hi)
    (hfill : t.Filling) (hch : LenByteIn 2 hi (some t) ch) :
    ∀ t', (t.step ch).1 = some t' → t'.Filling := by
  cases hs : t.state with
  | wwState =>
    rw [t.step_ww ch hs]
    rintro t' ⟨⟩
    split_ifs <;> simp [Filling, hs]
  | aaState =>
    rw [t.step_aa ch hs]
    rintro t' ⟨⟩
    split_ifs <;> simp [Filling]
  | cmdState1 =>
    rw [t.step_cmd ch hs]
    rintro t' ⟨⟩
    simp [Filling]
  | lenState =>
    rw [t.step_len ch hs]
    rintro t' ⟨⟩ -
    have := (hch t rfl hs).1
    change 0 + 1 < ch.toNat
    omega
  | dataState =>
    rw [t.step_data ch hs]
    have hlt := hfill hs
    have hL := t.lenToken.toNat_lt
    by_cases hend : ((t.tempDataLen + 1).toNat : ℤ) = (t.lenToken.toNat : ℤ) - 1
    · rw [t.dataStep_of_eq ch hend]
      rintro t' ⟨⟩
      simp [Filling]
    · rw [t.dataStep_of_ne ch hend]
      rintro t' ⟨⟩ -
      have hinc : (t.tempDataLen + 1).toNat = t.tempDataLen.toNat + 1 := by
        rw [UInt8.toNat_add]
        exact Nat.mod_eq_of_lt (by simp only [UInt8.reduceToNat]; omega)
      change (t.tempDataLen + 1).toNat + 1 < t.lenToken.toNat
      omega
  | fcsState =>
    rw [t.step_fcs ch hs]
    have hlt : t.lenToken.toNat < 255 := by have := (ht (Or.inr hs)).2; omega
    obtain ⟨t', hafter, hww, -, -⟩ := t.fcsStep_spec ch hlt
    rw [hafter]
    rintro t'' ⟨⟩
    simp [Filling, hww]

/-- Data bytes missing before the 8-bit counter meets `LEN_Token - 1`. -/
def missing (t : Receiver) : ℕ := (t.lenToken - 2 - t.tempDataLen).toNat + 1

def rank (t : Receiver) : ℕ :=
  match t.state with
  | .fcsState => 0
  | .dataState => t.missing
  | .lenState => 257
  | .cmdState1 => 258
  | .aaState => 259
  | .wwState => 260

theorem rank_le (t : Receiver) : t.rank ≤ 260 := by
  have := (t.lenToken - 2 - t.tempDataLen).toNat_lt
  unfold rank missing
  split <;> omega

theorem rank_step (t : Receiver) (ch : UInt8) (ht : t.LenIn 2 198) {t' : Receiver}
    (hnext : (t.step ch).1 = some t') : t'.state = .wwState ∨ t'.rank < t.rank := by
  cases hs : t.state with
  | wwState =>
    rw [t.step_ww ch hs] at hnext
    obtain rfl := Option.some.inj hnext
    by_cases h : ch = 0x55 <;> simp [h, rank, hs]
  | aaState =>
    rw [t.step_aa ch hs] at hnext
    obtain rfl := Option.some.inj hnext
    by_cases h : ch = 0xaa <;> simp [h, rank, hs]
  | cmdState1 =>
    rw [t.step_cmd ch hs] at hnext
    obtain rfl := Option.some.inj hnext
    simp [rank, hs]
  | lenState =>
    rw [t.step_len ch hs] at hnext
    obtain rfl := Option.some.inj hnext
    right
    have := (ch - 2 - 0).toNat_lt
    simp only [rank, missing, hs]
    omega
  | dataState =>
    rw [t.step_data ch hs] at hnext
    have hpos := (ht (Or.inl hs)).1
    have hL := t.lenToken.toNat_lt
    have hk := t.tempDataLen.toNat_lt
    right
    by_cases hend : ((t.tempDataLen + 1).toNat : ℤ) = (t.lenToken.toNat : ℤ) - 1
    · rw [t.dataStep_of_eq ch hend] at hnext
      obtain rfl := Option.some.inj hnext
      simp [rank, missing, hs]
    · rw [t.dataStep_of_ne ch hend] at hnext
      obtain rfl := Option.some.inj hnext
      -- the distance is taken modulo 256: a counter past the end wraps and comes back
      simp only [rank, missing, stored, hs, UInt8.toNat_add, UInt8.toNat_sub,
        UInt8.reduceToNat] at hend ⊢
      omega
  | fcsState =>
    rw [t.step_fcs ch hs] at hnext
    have hlt : t.lenToken.toNat < 255 := by have := (ht (Or.inr hs)).2; omega
    obtain ⟨t'', hafter, hww, -, -⟩ := t.fcsStep_spec ch hlt
    rw [hafter] at hnext
    exact Or.inl (Option.some.inj hnext ▸ hww)

end Receiver

/-- The receiver is not hung and its length byte lies between `lo` and `hi`. -/
def Alive (lo hi : ℕ) (s : Option Receiver) : Prop := ∃ t, s = some t ∧ t.LenIn lo hi

theorem alive_initial (lo hi : ℕ) : Alive lo hi (some Receiver.initial) :=
  ⟨_, rfl, by simp [Receiver.LenIn, Receiver.initial]⟩

theorem alive_step {lo hi : ℕ} (hhi : hi < 255) (s : Option Receiver) (ch : UInt8)
    (hs : Alive lo hi s) (hch : LenByteIn lo hi s ch) : Alive lo hi (thread.step s ch).1 := by
  obtain ⟨t, rfl, ht⟩ := hs
  exact t.lenIn_step hhi ch ht hch

theorem visits_ww (s : Option Receiver) (hs : Alive 2 198 s) (u : List UInt8)
    (hok : thread.Along (LenByteIn 2 198) s u) (hlen : 260 < u.length) :
    thread.Visits InWW s u := by
  let rank : Option Receiver → ℕ := fun s => (s.map Receiver.rank).getD 0
  refine Transducer.visits_of_rank rank (alive_step (by omega)) ?_ hs hok ?_
  · rintro s ch ⟨t, rfl, ht⟩ hch
    obtain ⟨t', hnext, -⟩ := t.lenIn_step (by omega) ch ht hch
    rw [thread_step_some, hnext]
    rcases t.rank_step ch ht hnext with hww | hlt
    · exact Or.inl ⟨t', rfl, hww⟩
    · exact Or.inr hlt
  · obtain ⟨t, rfl, -⟩ := hs
    have := t.rank_le
    change t.rank < u.length
    omega

/-- While the length bytes lie in `2..198`, every byte is processed, and among any 600
consecutive bytes there is one after which the receiver is in `WW_STATE`. -/
theorem receiver_never_stuck (s u : List UInt8)
    (hok : thread.Along (LenByteIn 2 198) (some Receiver.initial) (s ++ u))
    (hlen : 600 ≤ u.length) :
    (∀ p, p <+: s ++ u → thread.after (some Receiver.initial) p ≠ none) ∧
      thread.Visits InWW (thread.after (some Receiver.initial) s) u := by
  constructor
  · rintro p ⟨q, hpq⟩
    -- a hung receiver is `none`; the invariant holds behind every prefix
    rw [← hpq, Transducer.along_append] at hok
    obtain ⟨t, ht, -⟩ := Transducer.after_invariant (alive_step (by omega))
      (alive_initial 2 198) hok.1
    rw [ht]
    exact Option.some_ne_none t
  · rw [Transducer.along_append] at hok
    have halive := Transducer.after_invariant (alive_step (by omega)) (alive_initial 2 198) hok.1
    exact visits_ww _ halive u hok.2 (by omega)

theorem receiver_never_stuck_idle :
    (∀ p, p <+: [0x55, 0xaa, 7, 2, 0] ++ List.replicate 600 0x55 →
        thread.after (some Receiver.initial) p ≠ none) ∧
      thread.Visits InWW (thread.after (some Receiver.initial) [0x55, 0xaa, 7, 2, 0])
        (List.replicate 600 0x55) :=
  receiver_never_stuck _ _ (by decide +kernel) List.length_replicate.ge

/-- With the length byte 0 the end test compares with -1 and no data byte is the last. -/
theorem stuck_of_len_zero (t : Receiver) (hs : t.state = .dataState) (h0 : t.lenToken = 0)
    (xs : List UInt8) :
    ∃ t', thread.after (some t) xs = some t' ∧ t'.state = .dataState := by
  induction xs generalizing t with
  | nil => exact ⟨t, rfl, hs⟩
  | cons x xs ih =>
    have hgo : ((t.tempDataLen + 1).toNat : ℤ) ≠ (t.lenToken.toNat : ℤ) - 1 := by
      simp only [h0, UInt8.toNat_zero]
      omega
    rw [Transducer.after_cons, thread_step_some, t.step_data x hs, t.dataStep_of_ne x hgo]
    exact ih (t.stored x) hs h0

/-- With the length byte 255 the byte behind the data hangs the receiver. -/
theorem hung_of_len_255 (t : Receiver) (hs : t.state = .wwState) (c f : UInt8) (ds : List UInt8)
    (hds : ds.length = 254) :
    thread.after (some t) ([0x55, 0xaa, c, 255] ++ (ds ++ [f])) = none := by
  have hne : ds ≠ [] := List.ne_nil_of_length_pos (by omega)
  have hlen : (0 : UInt8).toNat + ds.length + 1 = (255 : UInt8).toNat := by rw [hds]; rfl
  rw [Transducer.after_append, (after_header t hs c 255).1, Transducer.after_append,
    (after_data (afterHeader t c 255) ds rfl hne hlen).1, Transducer.after_cons,
    thread_step_some, Receiver.step_fcs _ f rfl, Receiver.fcsStep_of_255 _ f rfl]
  rfl

/-- Four bytes silence the gateway for good; a frame with length byte 255 hangs it.  The bytes
stored behind `rxbuf` are those `LEN_Token` holds, should it stand there. -/
theorem receiver_stuck :
    ¬ thread.Visits InWW (thread.after (some Receiver.initial) [0x55, 0xaa, 7, 0])
        (List.replicate 600 0) ∧
      thread.after (some Receiver.initial)
        ([0x55, 0xaa, 7, 255] ++ (List.replicate 254 255 ++ [0])) = none := by
  refine ⟨?_, hung_of_len_255 _ rfl 7 0 _ List.length_replicate⟩
  rintro ⟨ys, -, -, t, hww, hstate⟩
  obtain ⟨t', hdata, hstate'⟩ := stuck_of_len_zero (afterHeader Receiver.initial 7 0) rfl rfl ys
  rw [(after_header Receiver.initial rfl 7 0).1, hdata] at hww
  obtain rfl := Option.some.inj hww
  simp [hstate] at hstate'

end IdolGateway.ZbClient
