import IdolGateway.ZbClient.Alphabet

namespace IdolGateway.ZbClient

/-- A frame with the id `id` leads from `w` to `w'` and touches nothing it must not. -/
structure World.TouchesOnly (w : World) (id : UInt16) (motion : Prop) (w' : World) : Prop where
  identity : ∀ i < w.devsize.toNat, (w'.mxjDevice i).identity = (w.mxjDevice i).identity
  state : ∀ i < w.devsize.toNat, (w.mxjDevice i).id ≠ id →
    (w'.mxjDevice i).state = (w.mxjDevice i).state
  heart : ∀ i < w.devsize.toNat, (w.mxjDevice i).id ≠ id →
    ¬ (motion ∧ (w.mxjDevice i).id = chufangId) →
      (w'.mxjDevice i).heart = (w.mxjDevice i).heart
  grows : w'.devsize = w.devsize ∨
    (∀ i < w.devsize.toNat, (w.mxjDevice i).id ≠ id) ∧
      w'.devsize.toNat = w.devsize.toNat + 1 ∧ (w'.mxjDevice w.devsize.toNat).id = id

section

variable {w : World} {i : ℕ}

theorem lookup_ne_some {id : UInt16} (hid : (w.mxjDevice i).id ≠ id) : w.lookup id ≠ some i := by
  intro h
  exact hid ((lookup_eq_some_iff w id i).mp h).2.1

theorem heart_beat_of_ne {id : UInt16} (hid : (w.mxjDevice i).id ≠ id) :
    ((w.beat id).mxjDevice i).heart = (w.mxjDevice i).heart := by
  rw [heart_beat, if_neg (lookup_ne_some hid), add_zero]

theorem heart_heard_of_ne (mem : Loc → UInt8) (len : UInt8) (hi : i < w.devsize.toNat)
    (hid : (w.mxjDevice i).id ≠ idOf mem len)
    (hlight : ¬ (IsMotion mem len ∧ (w.mxjDevice i).id = chufangId)) :
    ((w.heard mem len).mxjDevice i).heart = (w.mxjDevice i).heart := by
  unfold World.heard
  by_cases hlooks : LooksUp (mem (.rx 0))
  · rw [if_pos hlooks]
    cases w.joinType mem len with
    | some type =>
      have hne : i ≠ w.devsize.toNat := ne_of_lt hi
      simp [World.joined, hne]
    | none =>
      dsimp only
      by_cases hmotion : IsMotion mem len
      · have hkitchen : ((w.beat (idOf mem len)).mxjDevice i).id ≠ chufangId := by
          obtain ⟨h, hbeat⟩ := w.beat_mxjDevice (idOf mem len) i
          rw [hbeat]
          exact fun heq => hlight ⟨hmotion, heq⟩
        rw [if_pos hmotion, heart_beat_of_ne hkitchen, heart_beat_of_ne hid]
      · rw [if_neg hmotion]
        exact heart_beat_of_ne hid
  · rw [if_neg hlooks]

variable [JsonC] (mem : Loc → UInt8) (len : UInt8) (now : Tm) (w)

theorem identity_frame (hi : i < w.devsize.toNat) :
    (((recieveUsart now len).run mem w).state.mxjDevice i).identity =
      (w.mxjDevice i).identity := by
  have hlt : i < w.entries.length := by rwa [entries_length]
  have hentry : (w.entries ++ w.appends mem len)[i]? = some (w.mxjDevice i).identity := by
    rw [List.getElem?_append_left hlt, List.getElem?_eq_getElem hlt, entries_getElem]
  rw [← entries_frame mem len now w] at hentry
  obtain ⟨hlt', heq⟩ := List.getElem?_eq_some_iff.mp hentry
  rwa [entries_getElem] at heq

theorem devsize_frame :
    ((recieveUsart now len).run mem w).state.devsize = w.devsize ∨
      (∀ i < w.devsize.toNat, (w.mxjDevice i).id ≠ idOf mem len) ∧
        ((recieveUsart now len).run mem w).state.devsize.toNat = w.devsize.toNat + 1 ∧
        (((recieveUsart now len).run mem w).state.mxjDevice w.devsize.toNat).id =
          idOf mem len := by
  have hentries := entries_frame mem len now w
  have hsize := congrArg List.length hentries
  rw [entries_length, List.length_append, entries_length] at hsize
  rcases w.appends_cases mem len with hnil | ⟨type, -, hnone, -, hnew⟩
  · left
    rw [hnil, List.length_nil, Nat.add_zero] at hsize
    exact UInt8.toNat_inj.mp hsize
  · right
    rw [hnew, List.length_singleton] at hsize
    refine ⟨?_, hsize, ?_⟩
    · intro i hi hid
      have hmem : (w.mxjDevice i).identity ∈ w.entries :=
        List.mem_map.mpr ⟨i, List.mem_range.mpr hi, rfl⟩
      exact (lookup_eq_none_iff w _).mp hnone _ hmem hid
    · have hentry : (w.entries ++ w.appends mem len)[w.devsize.toNat]? =
          some (w.newEntry (idOf mem len) type) := by
        rw [hnew, ← entries_length, List.getElem?_concat_length]
      rw [← hentries] at hentry
      obtain ⟨hlt, heq⟩ := List.getElem?_eq_some_iff.mp hentry
      rw [entries_getElem] at heq
      exact congrArg MxjDevice.id heq

/-- Every frame, whatever is in the buffer and in the table. -/
theorem frame_touches_only :
    w.TouchesOnly (idOf mem len) (IsMotion mem len) ((recieveUsart now len).run mem w).state where
  identity _ hi := identity_frame w mem len now hi
  state i _ hid := states_frame i now fun _ => lookup_ne_some hid
  heart i hi hid hlight := by
    obtain ⟨s, hs⟩ := (frame_settled mem len w now).slot i
    rw [hs]
    exact heart_heard_of_ne mem len hi hid hlight
  grows := devsize_frame w mem len now

end

end IdolGateway.ZbClient
