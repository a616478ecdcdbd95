import StoryCatalog.Proofs.Text.Utf8

/-!
# Bytes that are read as a text

Bytes are read as a text only if they are the bytes of that text: each code point has one spelling,
and a decoder without faults has taken it byte by byte. With the reading of what is written, bytes
are read as a text exactly if the text is written as these bytes (`decode_ok_iff`).
-/

namespace StoryCatalog.Utf8

variable {t : Text} {offset owed low high value seen first : Nat} {surrogates flag : Bool}

/-! ### Code points by their bytes -/

private theorem val_codePoint {v : Nat} (h : v < 0x110000) : (codePoint v).val = v := by
  simp [codePoint, CodePoint.ofNat?, h]

private theorem byte_of_eq {n : Nat} {b : UInt8} (h : n = b.toNat) : byte n = b := by
  rw [h, byte, UInt8.ofNat_toNat]

private theorem encodeCodePoint_one {a : UInt8} (ha : a.toNat < 0x80) :
    encodeCodePoint (codePoint a.toNat) = [a] := by
  have hval := val_codePoint (show a.toNat < 0x110000 by omega)
  unfold encodeCodePoint
  rw [hval]
  dsimp only
  rw [if_pos ha, byte_of_eq rfl]

private theorem encodeCodePoint_two {a b : UInt8} (ha : 0xC2 ≤ a.toNat) (ha' : a.toNat ≤ 0xDF)
    (hb : 0x80 ≤ b.toNat) (hb' : b.toNat ≤ 0xBF) :
    encodeCodePoint (codePoint ((a.toNat - 0xC0) * 64 + (b.toNat - 0x80))) = [a, b] := by
  have hval := val_codePoint (v := (a.toNat - 0xC0) * 64 + (b.toNat - 0x80)) (by omega)
  unfold encodeCodePoint
  rw [hval]
  dsimp only
  rw [if_neg (by omega), if_pos (by omega), byte_of_eq (b := a) (by omega),
    byte_of_eq (b := b) (by omega)]

private theorem encodeCodePoint_three {a b c : UInt8} (ha : 0xE0 ≤ a.toNat) (ha' : a.toNat ≤ 0xEF)
    (hb : (if a.toNat = 0xE0 then 0xA0 else 0x80) ≤ b.toNat) (hb' : b.toNat ≤ 0xBF)
    (hc : 0x80 ≤ c.toNat) (hc' : c.toNat ≤ 0xBF) :
    encodeCodePoint (codePoint (((a.toNat - 0xE0) * 64 + (b.toNat - 0x80)) * 64 +
      (c.toNat - 0x80))) = [a, b, c] := by
  have hlow : 0x80 ≤ b.toNat ∧ (a.toNat = 0xE0 → 0xA0 ≤ b.toNat) := by
    split at hb <;> omega
  have hval := val_codePoint (v := ((a.toNat - 0xE0) * 64 + (b.toNat - 0x80)) * 64 +
    (c.toNat - 0x80)) (by omega)
  unfold encodeCodePoint
  rw [hval]
  dsimp only
  rw [if_neg (by omega), if_neg (by omega), if_pos (by omega), byte_of_eq (b := a) (by omega),
    byte_of_eq (b := b) (by omega), byte_of_eq (b := c) (by omega)]

private theorem encodeCodePoint_four {a b c d : UInt8} (ha : 0xF0 ≤ a.toNat) (ha' : a.toNat ≤ 0xF4)
    (hb : (if a.toNat = 0xF0 then 0x90 else 0x80) ≤ b.toNat)
    (hb' : b.toNat ≤ if a.toNat = 0xF4 then 0x8F else 0xBF)
    (hc : 0x80 ≤ c.toNat) (hc' : c.toNat ≤ 0xBF) (hd : 0x80 ≤ d.toNat) (hd' : d.toNat ≤ 0xBF) :
    encodeCodePoint (codePoint ((((a.toNat - 0xF0) * 64 + (b.toNat - 0x80)) * 64 +
      (c.toNat - 0x80)) * 64 + (d.toNat - 0x80))) = [a, b, c, d] := by
  have hrange : 0x80 ≤ b.toNat ∧ b.toNat ≤ 0xBF ∧ (a.toNat = 0xF0 → 0x90 ≤ b.toNat) ∧
      (a.toNat = 0xF4 → b.toNat ≤ 0x8F) := by
    split at hb <;> split at hb' <;> omega
  have hval := val_codePoint (v := (((a.toNat - 0xF0) * 64 + (b.toNat - 0x80)) * 64 +
    (c.toNat - 0x80)) * 64 + (d.toNat - 0x80)) (by omega)
  unfold encodeCodePoint
  rw [hval]
  dsimp only
  rw [if_neg (by omega), if_neg (by omega), if_neg (by omega), byte_of_eq (b := a) (by omega),
    byte_of_eq (b := b) (by omega), byte_of_eq (b := c) (by omega), byte_of_eq (b := d) (by omega)]

/-! ### Decoders without faults -/

private theorem not_error_eq_map {fault : DecodeFault}
    {results : List (Except DecodeFault CodePoint)} : .error fault :: results ≠ t.map .ok := by
  cases t <;> simp

/-- Inside a code point, a decoder without faults takes a byte in its range: the last one of the
code point, or one behind which it stands inside still. -/
private theorem exists_of_inside {bytes : Bytes}
    (h : decodeFrom surrogates offset (.inside owed low high value seen first flag) bytes =
      t.map .ok) :
    ∃ b rest, bytes = b :: rest ∧ low ≤ b.toNat ∧ b.toNat ≤ high ∧
      if owed ≤ 1 then
        ∃ t', t = codePoint (value * 64 + (b.toNat - 0x80)) :: t' ∧
          decodeFrom surrogates (offset + 1) .between rest = t'.map .ok
      else
        ∃ flag', decodeFrom surrogates (offset + 1)
          (.inside (owed - 1) 0x80 0xBF (value * 64 + (b.toNat - 0x80)) (seen + 1) first flag')
          rest = t.map .ok := by
  cases bytes with
  | nil =>
    rw [decodeFrom] at h
    split at h <;> exact absurd h not_error_eq_map
  | cons b rest =>
    rw [decodeFrom] at h
    dsimp only at h
    split at h
    · next hrange =>
      simp only [Bool.and_eq_true, decide_eq_true_eq] at hrange
      refine ⟨b, rest, rfl, hrange.1, hrange.2, ?_⟩
      split at h
      · next howed =>
        rw [if_pos howed]
        cases t with
        | nil => cases h
        | cons c t' =>
          rw [List.map_cons, List.cons.injEq] at h
          exact ⟨t', by rw [Except.ok.inj h.1], h.2⟩
      · next howed =>
        rw [if_neg howed]
        exact ⟨_, h⟩
    · exact absurd h not_error_eq_map

/-- Inside a code point that has one, two or three bytes to go, a decoder without faults takes them
all. -/
private theorem exists_of_last {bytes : Bytes}
    (h : decodeFrom surrogates offset (.inside 1 low high value seen first flag) bytes =
      t.map .ok) :
    ∃ b rest t' next, bytes = b :: rest ∧ low ≤ b.toNat ∧ b.toNat ≤ high ∧
      t = codePoint (value * 64 + (b.toNat - 0x80)) :: t' ∧
      decodeFrom surrogates next .between rest = t'.map .ok := by
  obtain ⟨b, rest, hbytes, hlow, hhigh, hrest⟩ := exists_of_inside h
  rw [if_pos (by decide)] at hrest
  obtain ⟨t', ht, hnext⟩ := hrest
  exact ⟨b, rest, t', _, hbytes, hlow, hhigh, ht, hnext⟩

private theorem exists_of_lastTwo {bytes : Bytes}
    (h : decodeFrom surrogates offset (.inside 2 low high value seen first flag) bytes =
      t.map .ok) :
    ∃ b c rest t' next, bytes = b :: c :: rest ∧ low ≤ b.toNat ∧ b.toNat ≤ high ∧
      0x80 ≤ c.toNat ∧ c.toNat ≤ 0xBF ∧
      t = codePoint ((value * 64 + (b.toNat - 0x80)) * 64 + (c.toNat - 0x80)) :: t' ∧
      decodeFrom surrogates next .between rest = t'.map .ok := by
  obtain ⟨b, rest, rfl, hlow, hhigh, hrest⟩ := exists_of_inside h
  rw [if_neg (by decide)] at hrest
  obtain ⟨flag', hinside⟩ := hrest
  obtain ⟨c, rest, t', next, rfl, hc, hc', ht, hnext⟩ := exists_of_last hinside
  exact ⟨b, c, rest, t', next, rfl, hlow, hhigh, hc, hc', ht, hnext⟩

private theorem exists_of_lastThree {bytes : Bytes}
    (h : decodeFrom surrogates offset (.inside 3 low high value seen first flag) bytes =
      t.map .ok) :
    ∃ b c d rest t' next, bytes = b :: c :: d :: rest ∧ low ≤ b.toNat ∧ b.toNat ≤ high ∧
      0x80 ≤ c.toNat ∧ c.toNat ≤ 0xBF ∧ 0x80 ≤ d.toNat ∧ d.toNat ≤ 0xBF ∧
      t = codePoint (((value * 64 + (b.toNat - 0x80)) * 64 + (c.toNat - 0x80)) * 64 +
        (d.toNat - 0x80)) :: t' ∧
      decodeFrom surrogates next .between rest = t'.map .ok := by
  obtain ⟨b, rest, rfl, hlow, hhigh, hrest⟩ := exists_of_inside h
  rw [if_neg (by decide)] at hrest
  obtain ⟨flag', hinside⟩ := hrest
  obtain ⟨c, d, rest, t', next, rfl, hc, hc', hd, hd', ht, hnext⟩ := exists_of_lastTwo hinside
  exact ⟨b, c, d, rest, t', next, rfl, hlow, hhigh, hc, hc', hd, hd', ht, hnext⟩

/-- Between code points, a decoder without faults takes the bytes of one. -/
private theorem exists_of_between {a : UInt8} {bytes : Bytes}
    (h : decodeFrom false offset .between (a :: bytes) = t.map .ok) :
    ∃ point t' rest next, t = point :: t' ∧ a :: bytes = encodeCodePoint point ++ rest ∧
      decodeFrom false next .between rest = t'.map .ok := by
  by_cases hascii : a.toNat < 0x80
  · have hbegin : begin false offset a.toNat = ([.ok (codePoint a.toNat)], .between) := by
      rw [begin, if_pos hascii]
    rw [decodeFrom, hbegin] at h
    cases t with
    | nil => cases h
    | cons point t' =>
      obtain ⟨hpoint, hrest⟩ := List.cons.inj h
      refine ⟨point, t', bytes, offset + 1, rfl, ?_, hrest⟩
      rw [← Except.ok.inj hpoint, encodeCodePoint_one hascii, List.singleton_append]
  rcases hlead : lead? false a.toNat with - | ⟨owed, low, high, value⟩
  · have hbegin : begin false offset a.toNat =
        ([.error ⟨"utf-8", offset, 1, a.toNat, "invalid start byte"⟩], .between) := by
      rw [begin, if_neg hascii, hlead]
    rw [decodeFrom, hbegin] at h
    exact absurd h not_error_eq_map
  have hbegin : begin false offset a.toNat =
      ([], .inside owed low high value 1 a.toNat false) := by
    rw [begin, if_neg hascii, hlead]
  rw [decodeFrom, hbegin] at h
  -- The first byte tells how many follow, and in which range the second one is.
  unfold lead? at hlead
  split at hlead
  · next ha =>
    simp only [Bool.and_eq_true, decide_eq_true_eq] at ha
    cases hlead
    obtain ⟨b, rest, t', next, rfl, hb, hb', ht, hnext⟩ := exists_of_last h
    refine ⟨_, t', rest, next, ht, ?_, hnext⟩
    rw [encodeCodePoint_two ha.1 ha.2 hb hb']
    rfl
  split at hlead
  · next ha =>
    simp only [Bool.and_eq_true, decide_eq_true_eq] at ha
    cases hlead
    obtain ⟨b, c, rest, t', next, rfl, hb, hb', hc, hc', ht, hnext⟩ := exists_of_lastTwo h
    refine ⟨_, t', rest, next, ht, ?_, hnext⟩
    have htop : b.toNat ≤ 0xBF := by split at hb' <;> omega
    rw [encodeCodePoint_three ha.1 ha.2 hb htop hc hc']
    rfl
  split at hlead
  · next ha =>
    simp only [Bool.and_eq_true, decide_eq_true_eq] at ha
    cases hlead
    obtain ⟨b, c, d, rest, t', next, rfl, hb, hb', hc, hc', hd, hd', ht, hnext⟩ :=
      exists_of_lastThree h
    refine ⟨_, t', rest, next, ht, ?_, hnext⟩
    rw [encodeCodePoint_four ha.1 ha.2 hb hb' hc hc' hd hd']
    rfl
  · cases hlead

private theorem length_encodeCodePoint_pos (c : CodePoint) : 0 < (encodeCodePoint c).length := by
  unfold encodeCodePoint
  dsimp only
  split
  · exact Nat.zero_lt_succ _
  split
  · exact Nat.zero_lt_succ _
  split <;> exact Nat.zero_lt_succ _

theorem eq_flatMap_of_decodeFrom {bytes : Bytes}
    (h : decodeFrom false offset .between bytes = t.map .ok) :
    bytes = t.flatMap encodeCodePoint := by
  -- Each code point leaves fewer bytes behind it.
  induction hlength : bytes.length using Nat.strongRecOn generalizing bytes t offset with
  | _ n ih =>
    cases bytes with
    | nil =>
      rw [decodeFrom] at h
      rw [List.map_eq_nil_iff.mp h.symm, List.flatMap_nil]
    | cons a bytes =>
      obtain ⟨point, t', rest, next, rfl, hbytes, hrest⟩ := exists_of_between h
      have hshorter : rest.length < n := by
        rw [← hlength, hbytes, List.length_append]
        have hpos := length_encodeCodePoint_pos point
        omega
      rw [hbytes, List.flatMap_cons, ← ih rest.length hshorter hrest rfl]

/-! ### Bytes of texts -/

/-- Bytes are read as a text exactly if the text is written as these bytes. -/
theorem decode_ok_iff {content : Bytes} : decode content = .ok t ↔ encode t = .ok content := by
  refine ⟨fun h ↦ ?_, decode_of_encode⟩
  rw [encode_of_isScalar (isScalar_of_decode h), eq_flatMap_of_decodeFrom (mapM_id_ok_iff.mp h)]

/-- Different texts are written as different bytes. -/
theorem encode_injective {s : Text} {content : Bytes} (hs : encode s = .ok content)
    (ht : encode t = .ok content) : s = t :=
  Except.ok.inj ((decode_of_encode hs).symm.trans (decode_of_encode ht))

end StoryCatalog.Utf8
