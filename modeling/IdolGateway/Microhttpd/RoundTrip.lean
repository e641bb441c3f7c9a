import IdolGateway.Microhttpd.FormCalls

namespace IdolGateway.Microhttpd

open UrlForm

theorem hexValue_hexDigit {n : ℕ} (hn : n < 16) :
    hexValue (hexDigit n) = some (UInt8.ofNat n) := by
  interval_cases n <;> decide

theorem plusByte_hexDigit {n : ℕ} (hn : n < 16) : plusByte (hexDigit n) = hexDigit n := by
  interval_cases n <;> decide

theorem strtoul16_hexDigit (b : UInt8) :
    strtoul16 (hexDigit (b.toNat / 16)) (hexDigit (b.toNat % 16)) = some b := by
  have hlt := b.toNat_lt
  have hhi : b.toNat / 16 < 16 := by omega
  have hlo : b.toNat % 16 < 16 := Nat.mod_lt _ (by decide)
  unfold strtoul16
  rw [hexValue_hexDigit hhi, hexValue_hexDigit hlo]
  refine congrArg some (UInt8.toNat_inj.mp ?_)
  simp only [UInt8.toNat_add, UInt8.toNat_mul, UInt8.toNat_ofNat', UInt8.reduceToNat]
  omega

theorem unescaped_hexDigits (b : UInt8) :
    unescaped [percent, hexDigit (b.toNat / 16), hexDigit (b.toNat % 16)] = [b] := by
  have hlt := b.toNat_lt
  have hhi : b.toNat / 16 < 16 := by omega
  have hlo : b.toNat % 16 < 16 := Nat.mod_lt _ (by decide)
  have h0 : (0 : UInt8) ∉ [percent, hexDigit (b.toNat / 16), hexDigit (b.toNat % 16)] := by
    simp only [List.mem_cons, List.not_mem_nil, or_false, not_or]
    exact ⟨by decide, (hexDigit_range hhi).2.1.symm, (hexDigit_range hlo).2.1.symm⟩
  have hplus : unescapePlus [percent, hexDigit (b.toNat / 16), hexDigit (b.toNat % 16)] =
      [percent, hexDigit (b.toNat / 16), hexDigit (b.toNat % 16)] := by
    rw [unescapePlus, List.map_cons, List.map_cons, List.map_cons, plusByte_hexDigit hhi,
      plusByte_hexDigit hlo]
    rfl
  rw [unescaped, cstr_of_notMem h0, hplus, httpUnescape, if_pos rfl, strtoul16_hexDigit]
  rfl

theorem plusByte_unreserved {b : UInt8} (h : Unreserved b) : plusByte b = b := by
  unfold plusByte
  rw [if_neg]
  rintro rfl
  revert h
  decide

theorem reader_undoes : reader.Undoes where
  plain_plus := rfl
  plain_self _ h := plusByte_unreserved h
  escape_hex := unescaped_hexDigits
  readKey_spells _ _ h := unescaped_spells h

/-- The fields of a form arrive, for every cut of its text. -/
theorem form_round_trip {fs : List Field}
    (hkeys : ∀ f ∈ fs, (encode f.key).length ≤ bufferSize) {segs : List (List UInt8)}
    (hsegs : segs.flatten = formText fs) : Delivers (callsOf segs) fs := by
  obtain ⟨hclean, hfields⟩ := @formText_read reader reader_undoes fs hkeys
  rw [← hsegs] at hclean hfields
  rw [← hfields]
  exact calls_deliver_fields segs hclean

/-- A field `"a&"` with the value `"1 %"`, cut inside an escape. -/
theorem form_round_trip_cut :
    Delivers (callsOf [[0x61, 0x25, 0x32], [0x36, 0x3d, 0x31, 0x2b, 0x25], [], [0x32, 0x35]])
      [⟨[0x61, 0x26], [0x31, 0x20, 0x25]⟩] :=
  form_round_trip (by decide) (by decide)

end IdolGateway.Microhttpd
