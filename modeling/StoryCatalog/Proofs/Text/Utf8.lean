import Mathlib.Algebra.Group.Nat.Defs
import StoryCatalog.Text.Utf8

/-!
# Texts through UTF-8

A text can be written in UTF-8 exactly if it holds no surrogate, and then it is read back from its
bytes. What is read from bytes never holds a surrogate: a decoder that stands inside a code point
only accepts bytes that keep it away from them (`State.IsSound`).
-/

namespace StoryCatalog

/-- Texts without surrogates. -/
def Text.IsScalar (t : Text) : Prop := ∀ c ∈ t, c.isSurrogate = false

namespace Text

theorem isScalar_nil : IsScalar [] := by simp [IsScalar]

@[simp] theorem isScalar_cons {c : CodePoint} {t : Text} :
    IsScalar (c :: t) ↔ c.isSurrogate = false ∧ IsScalar t := by simp [IsScalar]

@[simp] theorem isScalar_append {s t : Text} :
    IsScalar (s ++ t) ↔ IsScalar s ∧ IsScalar t := by
  simp only [IsScalar, List.mem_append]
  exact ⟨fun h ↦ ⟨fun c hc ↦ h c (.inl hc), fun c hc ↦ h c (.inr hc)⟩,
    fun h c hc ↦ hc.elim (h.1 c) (h.2 c)⟩

/-- Strings hold no surrogates. -/
@[simp] theorem isScalar_ofString (s : String) : IsScalar (ofString s) := by
  intro c hc
  obtain ⟨d, -, rfl⟩ := List.mem_map.mp hc
  cases hsurrogate : (CodePoint.ofChar d).isSurrogate with
  | false => rfl
  | true =>
    have hchar := CodePoint.toChar?_ofChar d
    rw [CodePoint.toChar?, if_pos hsurrogate] at hchar
    cases hchar

instance (t : Text) : Decidable t.IsScalar := inferInstanceAs (Decidable (∀ c ∈ t, _))

end Text

/-- Nothing stands in the way of writing a text exactly if it holds no surrogate. -/
theorem EncodeFault.find?_eq_none_iff {t : Text} : find? t = none ↔ t.IsScalar := by
  unfold find?
  dsimp only
  induction t with
  | nil => simp [Text.IsScalar]
  | cons c rest ih =>
    rw [Text.isScalar_cons]
    cases hc : c.isSurrogate with
    | true => simp [hc]
    | false =>
      rw [List.takeWhile_cons_of_pos (by simp [hc]), List.length_cons, List.drop_succ_cons]
      simpa using ih

namespace Utf8

/-- A text is written exactly if it holds no surrogate. -/
theorem encode_of_isScalar {t : Text} (h : t.IsScalar) :
    encode t = .ok (t.flatMap encodeCodePoint) := by
  rw [encode, EncodeFault.find?_eq_none_iff.mpr h]

/-- A text that is written holds no surrogate. -/
theorem isScalar_of_encode {t : Text} {content : Bytes} (h : encode t = .ok content) :
    t.IsScalar ∧ content = t.flatMap encodeCodePoint := by
  unfold encode at h
  split at h
  · cases h
  · next hnone => exact ⟨EncodeFault.find?_eq_none_iff.mp hnone, (Except.ok.inj h).symm⟩

/-! ### Reading what was written -/

private theorem toNat_byte {n : Nat} (h : n < 256) : (byte n).toNat = n := by
  simp only [byte, UInt8.toNat_ofNat']
  omega

private theorem codePoint_val (c : CodePoint) : codePoint c.val = c := by
  simp [codePoint, CodePoint.ofNat?, c.isLt]

private theorem decodeFrom_lead {offset b owed low high value : Nat} (hbyte : b < 256)
    (hb : 0x80 ≤ b) (hlead : lead? false b = some (owed, low, high, value)) (rest : Bytes) :
    decodeFrom false offset .between (byte b :: rest) =
      decodeFrom false (offset + 1) (.inside owed low high value 1 b false) rest := by
  rw [decodeFrom, toNat_byte hbyte, begin, if_neg (Nat.not_lt.mpr hb), hlead]
  rfl

private theorem decodeFrom_last {offset low high value seen first b : Nat} {c : CodePoint}
    (hbyte : b < 256) (hlow : low ≤ b) (hhigh : b ≤ high) (hvalue : value * 64 + (b - 0x80) = c.val)
    (rest : Bytes) :
    decodeFrom false offset (.inside 1 low high value seen first false) (byte b :: rest) =
      .ok c :: decodeFrom false (offset + 1) .between rest := by
  rw [decodeFrom, toNat_byte hbyte, hvalue]
  simp [hlow, hhigh, codePoint_val]

private theorem decodeFrom_middle {offset owed low high value seen first b v : Nat}
    (hbyte : b < 256) (howed : 1 < owed) (hlow : low ≤ b) (hhigh : b ≤ high)
    (hvalue : value * 64 + (b - 0x80) = v)
    (hscalar : first = 0xED → seen = 1 → b < 0xA0) (rest : Bytes) :
    decodeFrom false offset (.inside owed low high value seen first false) (byte b :: rest) =
      decodeFrom false (offset + 1) (.inside (owed - 1) 0x80 0xBF v (seen + 1) first false)
        rest := by
  have hflag : (false || (first = 0xED && seen = 1 && 0xA0 ≤ b) : Bool) = false := by
    simpa using hscalar
  rw [decodeFrom, toNat_byte hbyte, hvalue]
  simp only [hlow, hhigh, decide_true, Bool.and_true, if_true, if_neg (Nat.not_le.mpr howed), hflag]

/-- The bytes of a code point are read as that code point. -/
theorem decodeFrom_encodeCodePoint {c : CodePoint} (hc : c.isSurrogate = false) (offset : Nat)
    (rest : Bytes) :
    ∃ next, decodeFrom false offset .between (encodeCodePoint c ++ rest) =
      .ok c :: decodeFrom false next .between rest := by
  have hlt := c.isLt
  have hscalar : ¬ (0xD800 ≤ c.val ∧ c.val < 0xE000) := by
    simpa [CodePoint.isSurrogate] using hc
  unfold encodeCodePoint
  dsimp only
  split
  · next h =>
    refine ⟨offset + 1, ?_⟩
    rw [List.singleton_append, decodeFrom, toNat_byte (by omega), begin, if_pos h, codePoint_val]
    rfl
  · split
    · next h _ =>
      refine ⟨offset + 1 + 1, ?_⟩
      have hlead : lead? false (0xC0 + c.val / 64) = some (1, 0x80, 0xBF, c.val / 64) := by
        rw [lead?, if_pos (by simp; omega)]
        simp
      simp only [List.cons_append, List.nil_append]
      rw [decodeFrom_lead (by omega) (by omega) hlead,
        decodeFrom_last (c := c) (by omega) (by omega) (by omega) (by omega)]
    · split
      · next hlow _ =>
        refine ⟨offset + 1 + 1 + 1, ?_⟩
        have hlead : lead? false (0xE0 + c.val / 4096) =
            some (2, if c.val / 4096 = 0 then 0xA0 else 0x80,
              if c.val / 4096 = 0xD then 0x9F else 0xBF, c.val / 4096) := by
          have hlast : 0xE0 + c.val / 4096 = 0xED ↔ c.val / 4096 = 0xD := by omega
          rw [lead?, if_neg (by simp; omega), if_pos (by simp; omega)]
          simp [hlast]
        simp only [List.cons_append, List.nil_append]
        rw [decodeFrom_lead (by omega) (by omega) hlead,
          decodeFrom_middle (v := c.val / 64) (by omega) (by omega) (by split <;> omega)
            (by split <;> omega) (by omega) (by omega),
          decodeFrom_last (c := c) (by omega) (by omega) (by omega) (by omega)]
      · next hlow _ =>
        refine ⟨offset + 1 + 1 + 1 + 1, ?_⟩
        have hlead : lead? false (0xF0 + c.val / 262144) =
            some (3, if c.val / 262144 = 0 then 0x90 else 0x80,
              if c.val / 262144 = 4 then 0x8F else 0xBF, c.val / 262144) := by
          have hlast : 0xF0 + c.val / 262144 = 0xF4 ↔ c.val / 262144 = 4 := by omega
          rw [lead?, if_neg (by simp; omega), if_neg (by simp; omega), if_pos (by simp; omega)]
          simp [hlast]
        simp only [List.cons_append, List.nil_append]
        rw [decodeFrom_lead (by omega) (by omega) hlead,
          decodeFrom_middle (v := c.val / 4096) (by omega) (by omega) (by split <;> omega)
            (by split <;> omega) (by omega) (by omega),
          decodeFrom_middle (v := c.val / 64) (by omega) (by omega) (by omega) (by omega)
            (by omega) (by omega),
          decodeFrom_last (c := c) (by omega) (by omega) (by omega) (by omega)]

private theorem decodeFrom_flatMap {t : Text} (h : t.IsScalar) (offset : Nat) :
    decodeFrom false offset .between (t.flatMap encodeCodePoint) = t.map .ok := by
  induction t generalizing offset with
  | nil => simp [decodeFrom]
  | cons c rest ih =>
    obtain ⟨hc, hrest⟩ := Text.isScalar_cons.mp h
    obtain ⟨next, hnext⟩ := decodeFrom_encodeCodePoint hc offset (rest.flatMap encodeCodePoint)
    rw [List.flatMap_cons, hnext, ih hrest, List.map_cons]

/-- Results are all good exactly if they are those of values. -/
theorem mapM_id_ok_iff {ε α : Type} {results : List (Except ε α)} {values : List α} :
    results.mapM id = .ok values ↔ results = values.map .ok := by
  induction results generalizing values with
  | nil => cases values <;> simp [pure, Except.pure]
  | cons result rest ih =>
    rw [List.mapM_cons]
    cases result with
    | error e => cases values <;> simp [bind, Except.bind]
    | ok first =>
      cases values with
      | nil => cases rest.mapM id <;> simp [bind, Except.bind, pure, Except.pure]
      | cons value values =>
        rw [List.map_cons, List.cons.injEq, Except.ok.injEq, ← ih]
        cases rest.mapM id <;> simp [bind, Except.bind, pure, Except.pure]

/-- A text that is written is read back. -/
theorem decode_of_encode {t : Text} {content : Bytes} (h : encode t = .ok content) :
    decode content = .ok t := by
  obtain ⟨hscalar, rfl⟩ := isScalar_of_encode h
  exact mapM_id_ok_iff.mpr (decodeFrom_flatMap hscalar 0)

/-! ### What is read holds no surrogate -/

/-- No code point with the value so far, and with so many bytes to come, is a surrogate. -/
def AvoidsSurrogates (owed value : Nat) : Prop :=
  ∀ k < 64 ^ owed, ¬ (0xD800 ≤ value * 64 ^ owed + k ∧ value * 64 ^ owed + k < 0xE000)

/-- A decoder inside a code point accepts no byte that could lead to a surrogate. -/
def State.IsSound : State → Prop
  | .between => True
  | .inside owed low high value _ _ _ =>
    0 < owed ∧ ∀ n, low ≤ n → n ≤ high → AvoidsSurrogates (owed - 1) (value * 64 + (n - 0x80))

theorem isSound_between : State.IsSound .between := trivial

private theorem isSound_lead {b owed low high value : Nat}
    (h : lead? false b = some (owed, low, high, value)) (seen first : Nat) (surrogate : Bool) :
    State.IsSound (.inside owed low high value seen first surrogate) := by
  unfold lead? at h
  split at h
  · next hb =>
    cases h
    simp only [Bool.and_eq_true, decide_eq_true_eq] at hb
    refine ⟨by decide, ?_⟩
    intro n hlow hhigh k hk
    simp only [Nat.sub_self, Nat.pow_zero] at hk ⊢
    omega
  · split at h
    · next hb =>
      cases h
      simp only [Bool.and_eq_true, decide_eq_true_eq] at hb
      refine ⟨by decide, ?_⟩
      intro n hlow hhigh k hk
      simp only [Nat.add_one_sub_one, Nat.pow_one] at hk ⊢
      simp only [Bool.not_false, Bool.and_true, decide_eq_true_eq] at hhigh
      split at hlow <;> split at hhigh <;> omega
    · split at h
      · next hb =>
        cases h
        simp only [Bool.and_eq_true, decide_eq_true_eq] at hb
        refine ⟨by decide, ?_⟩
        intro n hlow hhigh k hk
        simp only [Nat.add_one_sub_one, Nat.reducePow] at hk ⊢
        split at hlow <;> split at hhigh <;> omega
      · cases h

private theorem isSound_begin (offset b : Nat) :
    (begin false offset b).2.IsSound ∧
      ∀ c, .ok c ∈ (begin false offset b).1 → c.isSurrogate = false := by
  unfold begin
  split
  · next hb =>
    refine ⟨trivial, ?_⟩
    intro c hc
    have hval : c.val = b := by
      rw [Except.ok.inj (List.mem_singleton.mp hc)]
      simp [codePoint, CodePoint.ofNat?, show b < 0x110000 by omega]
    simp [CodePoint.isSurrogate, hval]
    omega
  · split
    · next hlead => exact ⟨isSound_lead hlead .., by simp⟩
    · exact ⟨trivial, by simp⟩

private theorem isSound_next {owed low high value seen first n : Nat} {surrogate : Bool}
    (h : State.IsSound (.inside owed low high value seen first surrogate)) (hlow : low ≤ n)
    (hhigh : n ≤ high) (howed : 1 < owed) (flag : Bool) :
    State.IsSound (.inside (owed - 1) 0x80 0xBF (value * 64 + (n - 0x80)) (seen + 1) first
      flag) := by
  obtain ⟨j, rfl⟩ : ∃ j, owed = j + 2 := ⟨owed - 2, by omega⟩
  refine ⟨by omega, ?_⟩
  intro m hm hm' k hk
  have hvalue := h.2 n hlow hhigh
  simp only [Nat.add_one_sub_one, show j + 2 - 1 = j + 1 by omega] at hvalue hk ⊢
  generalize value * 64 + (n - 0x80) = v at hvalue ⊢
  have hinside : (m - 0x80) * 64 ^ j + k < 64 ^ (j + 1) := by
    have hm64 : (m - 0x80 + 1) * 64 ^ j ≤ 64 * 64 ^ j := Nat.mul_le_mul_right _ (by omega)
    rw [Nat.pow_succ]
    grind
  have hsame : (v * 64 + (m - 0x80)) * 64 ^ j + k =
      v * 64 ^ (j + 1) + ((m - 0x80) * 64 ^ j + k) := by
    rw [Nat.pow_succ]
    grind
  rw [hsame]
  exact hvalue _ hinside

private theorem isSurrogate_last {low high value seen first n : Nat} {surrogate : Bool}
    {owed : Nat} (h : State.IsSound (.inside owed low high value seen first surrogate))
    (hlow : low ≤ n) (hhigh : n ≤ high) (howed : owed ≤ 1) :
    (codePoint (value * 64 + (n - 0x80))).isSurrogate = false := by
  obtain rfl : owed = 1 := by have := h.1; omega
  have hvalue := h.2 n hlow hhigh 0 (by decide)
  simp only [Nat.sub_self, Nat.pow_zero, Nat.mul_one, Nat.add_zero] at hvalue
  generalize value * 64 + (n - 0x80) = v at hvalue ⊢
  unfold codePoint CodePoint.ofNat?
  split
  · simpa [CodePoint.isSurrogate] using hvalue
  · rfl

/-- A decoder that stands soundly reports no surrogate. -/
theorem isSurrogate_of_mem_decodeFrom {state : State} (hstate : state.IsSound) (offset : Nat)
    (bytes : Bytes) {c : CodePoint} (h : .ok c ∈ decodeFrom false offset state bytes) :
    c.isSurrogate = false := by
  induction bytes generalizing state offset with
  | nil =>
    cases state with
    | between => simp [decodeFrom] at h
    | inside owed low high value seen first surrogate => cases surrogate <;> simp [decodeFrom] at h
  | cons b rest ih =>
    obtain ⟨hbegin, hreported⟩ := isSound_begin offset b.toNat
    cases state with
    | between =>
      rw [decodeFrom] at h
      rcases List.mem_append.mp h with hmem | hmem
      · exact hreported c hmem
      · exact ih hbegin _ hmem
    | inside owed low high value seen first surrogate =>
      rw [decodeFrom] at h
      dsimp only at h
      split at h
      · next hrange =>
        simp only [Bool.and_eq_true, decide_eq_true_eq] at hrange
        split at h
        · next howed =>
          rcases List.mem_cons.mp h with heq | hmem
          · rw [Except.ok.inj heq]
            exact isSurrogate_last hstate hrange.1 hrange.2 howed
          · exact ih isSound_between _ hmem
        · next howed =>
          exact ih (isSound_next hstate hrange.1 hrange.2 (Nat.not_le.mp howed) _) _ h
      · rcases List.mem_cons.mp h with heq | hmem
        · cases heq
        · rcases List.mem_append.mp hmem with hmem | hmem
          · exact hreported c hmem
          · exact ih hbegin _ hmem

/-- What is read from bytes holds no surrogate. -/
theorem isScalar_of_decode {content : Bytes} {t : Text} (h : decode content = .ok t) :
    t.IsScalar := by
  intro c hc
  refine isSurrogate_of_mem_decodeFrom isSound_between 0 content ?_
  rw [mapM_id_ok_iff.mp h]
  exact List.mem_map_of_mem hc

/-! ### Line breaks -/

private theorem unifyAfter_of_forall {t : Text} (h : ∀ c ∈ t, c.val ≠ 0x0D) :
    unifyAfter false t = t := by
  induction t with
  | nil => rfl
  | cons c rest ih =>
    obtain ⟨hc, hrest⟩ := List.forall_mem_cons.mp h
    simp [unifyAfter, hc, ih hrest]

/-- A text without carriage returns has only line feeds for line breaks. -/
theorem unifyLineBreaks_of_forall {t : Text} (h : ∀ c ∈ t, c.val ≠ 0x0D) :
    unifyLineBreaks t = t := unifyAfter_of_forall h

private theorem isScalar_unifyAfter {t : Text} (h : t.IsScalar) (isAfterReturn : Bool) :
    (unifyAfter isAfterReturn t).IsScalar := by
  induction t generalizing isAfterReturn with
  | nil => exact h
  | cons c rest ih =>
    obtain ⟨hc, hrest⟩ := Text.isScalar_cons.mp h
    unfold unifyAfter
    split
    · exact Text.isScalar_cons.mpr ⟨rfl, ih hrest true⟩
    · split
      · exact ih hrest false
      · exact Text.isScalar_cons.mpr ⟨hc, ih hrest false⟩

/-- Unifying the line breaks brings in no surrogate. -/
theorem isScalar_unifyLineBreaks {t : Text} (h : t.IsScalar) : (unifyLineBreaks t).IsScalar :=
  isScalar_unifyAfter h false

end Utf8

end StoryCatalog
