import Mathlib.Data.List.DropRight
import StoryCatalog.Proofs.Text.Digits
import StoryCatalog.Proofs.Text.Settled
import StoryCatalog.Proofs.Url.Parts

/-!
# The parts of an authority

An authority is user information, a host, which may stand in brackets, and a port. The host is
given in lower case: it is its own form in lower case (`lowerToZone_lowerToZone`), and no delimiter
comes in with that (`mem_rawHost_of_mark`).
-/

namespace StoryCatalog

namespace Text

variable {c : CodePoint} {t : Text}

theorem splitOn_of_not_mem (h : c ∉ t) : splitOn c t = [t] := by
  induction t with
  | nil => rfl
  | cons d t ih =>
    obtain ⟨hd, ht⟩ := List.ne_and_not_mem_of_not_mem_cons h
    rw [splitOn, if_neg (Ne.symm hd), ih ht]

theorem splitOn_ne_nil (c : CodePoint) (t : Text) : splitOn c t ≠ [] := by
  cases t with
  | nil => exact List.cons_ne_nil _ _
  | cons d t =>
    unfold splitOn
    split
    · exact List.cons_ne_nil _ _
    · split <;> exact List.cons_ne_nil _ _

theorem splitOn_append (c : CodePoint) (s t : Text) :
    splitOn c (s ++ c :: t) = splitOn c s ++ splitOn c t := by
  induction s with
  | nil => simp [splitOn]
  | cons d s ih =>
    rw [List.cons_append, splitOn, splitOn, ih]
    obtain ⟨piece, pieces, hcons⟩ := List.exists_cons_of_ne_nil (splitOn_ne_nil c s)
    rw [hcons]
    split <;> rfl

end Text

namespace Url

open Text

variable {c d : CodePoint} {s t authority : Text} {u : Url}

/-! ### The last occurrence of a code point -/

/-- The text after the last occurrence of a code point, all of it if there is none. -/
def afterLast (c : CodePoint) (t : Text) : Text := (splitOn c t).getLast?.getD []

/-- The text before the last occurrence of a code point. -/
def beforeLast (c : CodePoint) (t : Text) : Text := (cut c t.reverse).2.reverse

theorem exists_last (h : c ∈ t) : ∃ s rest, t = s ++ c :: rest ∧ c ∉ rest := by
  obtain ⟨rest, s, heq, hrest⟩ := List.eq_append_cons_of_mem (List.mem_reverse.mpr h)
  refine ⟨s.reverse, rest.reverse, ?_, fun hmem ↦ hrest (List.mem_reverse.mp hmem)⟩
  rw [← List.reverse_reverse t, heq]
  simp

theorem afterLast_of_not_mem (h : c ∉ t) : afterLast c t = t := by
  rw [afterLast, splitOn_of_not_mem h]
  rfl

theorem afterLast_append (s : Text) (h : c ∉ t) : afterLast c (s ++ c :: t) = t := by
  rw [afterLast, splitOn_append, splitOn_of_not_mem h, List.getLast?_concat]
  rfl

theorem not_mem_afterLast (c : CodePoint) (t : Text) : c ∉ afterLast c t := by
  by_cases h : c ∈ t
  · obtain ⟨s, rest, rfl, hrest⟩ := exists_last h
    rwa [afterLast_append s hrest]
  · rwa [afterLast_of_not_mem h]

theorem afterLast_suffix (c : CodePoint) (t : Text) : afterLast c t <:+ t := by
  by_cases h : c ∈ t
  · obtain ⟨s, rest, rfl, hrest⟩ := exists_last h
    rw [afterLast_append s hrest]
    exact ⟨s ++ [c], by simp⟩
  · rw [afterLast_of_not_mem h]

/-! ### Code points that lower case does not bring in -/

/-- The code points with a meaning in a URL, and those that hide one or are cleaned away. -/
def marks : List Nat :=
  [0x09, 0x0A, 0x0D, 0x23, 0x25, 0x2F, 0x3A, 0x3F, 0x40, 0x5B, 0x5D] ++ hiddenDelimiters

theorem mem_of_mem_lower (h : c ∈ lower t) (hmark : c.val ∈ marks) : c ∈ t := by
  have hcase : ∀ n ∈ marks, ∀ hn : n < 0x110000, CodePoint.isCased ⟨n, hn⟩ = false := by
    decide +kernel
  rcases mem_lower h with hmem | hcased | rfl
  · exact hmem
  · exact nomatch (hcase c.val hmark c.isLt).symm.trans hcased
  · exact absurd hmark (by decide)

/-- The text in lower case up to the name of a zone. -/
def lowerToZone (t : Text) : Text :=
  lower (t.takeWhile (· != CodePoint.ofChar '%')) ++ t.dropWhile (· != CodePoint.ofChar '%')

theorem host_eq (u : Url) : u.host = lowerToZone (rawHost u.authority) := rfl

theorem lowerToZone_lowerToZone (t : Text) : lowerToZone (lowerToZone t) = lowerToZone t := by
  let isPlain (c : CodePoint) : Bool := c != CodePoint.ofChar '%'
  have hlower : ∀ c ∈ lower (t.takeWhile isPlain), isPlain c = true := by
    intro c hc
    refine bne_iff_ne.mpr fun heq ↦ ?_
    have hplain := List.mem_takeWhile_imp (mem_of_mem_lower hc (heq ▸ by decide))
    exact bne_iff_ne.mp hplain heq
  have hdrop : (t.dropWhile isPlain).dropWhile isPlain = t.dropWhile isPlain :=
    List.dropWhile_idempotent isPlain _
  have htake : (t.dropWhile isPlain).takeWhile isPlain = [] := by
    have hsplit := List.takeWhile_append_dropWhile (p := isPlain) (l := t.dropWhile isPlain)
    rwa [hdrop, List.append_left_eq_self] at hsplit
  have hform : lowerToZone t = lower (t.takeWhile isPlain) ++ t.dropWhile isPlain := rfl
  have hagain : lowerToZone (lowerToZone t) = lower ((lowerToZone t).takeWhile isPlain) ++
      (lowerToZone t).dropWhile isPlain := rfl
  rw [hagain, hform, List.takeWhile_append_of_pos hlower, List.dropWhile_append_of_pos hlower,
    htake, hdrop, List.append_nil, lower_lower]

/-- Of the marks, a host holds those of its text only. -/
theorem mem_of_mem_lowerToZone (h : c ∈ lowerToZone t) (hmark : c.val ∈ marks) : c ∈ t := by
  rcases List.mem_append.mp h with hmem | hmem
  · exact List.takeWhile_subset _ (mem_of_mem_lower hmem hmark)
  · exact List.dropWhile_subset _ hmem

/-- A host holds what its text holds, if lower case leaves it as it is. -/
theorem mem_lowerToZone (hc : IsSettled c) (h : c ∈ t) : c ∈ lowerToZone t := by
  rw [← List.takeWhile_append_dropWhile (p := (· != CodePoint.ofChar '%')) (l := t),
    List.mem_append] at h
  exact List.mem_append.mpr (h.imp_left (mem_lower_of_isSettled hc))

/-! ### The parts of an authority -/

theorem rawHost_eq (authority : Text) :
    rawHost authority =
      if (hostAndPort authority).contains (CodePoint.ofChar '[') then
        (cut (CodePoint.ofChar ']') (cut (CodePoint.ofChar '[') (hostAndPort authority)).2).1
      else (cut (CodePoint.ofChar ':') (hostAndPort authority)).1 := rfl

theorem rawPort_eq (authority : Text) :
    rawPort authority =
      if (hostAndPort authority).contains (CodePoint.ofChar '[') then
        (cut (CodePoint.ofChar ':')
          (cut (CodePoint.ofChar ']') (cut (CodePoint.ofChar '[') (hostAndPort authority)).2).2).2
      else (cut (CodePoint.ofChar ':') (hostAndPort authority)).2 := rfl

theorem mem_of_mem_rawHost (h : c ∈ rawHost authority) : c ∈ hostAndPort authority := by
  rw [rawHost_eq] at h
  split at h
  · exact mem_of_mem_behind (mem_of_mem_cut h)
  · exact mem_of_mem_cut h

theorem mem_of_mem_rawHost_authority (h : c ∈ rawHost authority) : c ∈ authority :=
  (afterLast_suffix _ _).subset (mem_of_mem_rawHost h)

/-- The mark stands in the host if it stands in its URL at all. -/
theorem mem_rawHost_of_mark (h : c ∈ u.host) (hmark : c.val ∈ marks) : c ∈ rawHost u.authority :=
  mem_of_mem_lowerToZone (host_eq u ▸ h) hmark

/-- The host stands in brackets. -/
def IsBracketed (u : Url) : Prop := CodePoint.ofChar '[' ∈ hostAndPort u.authority

instance : DecidablePred IsBracketed := fun u ↦
  inferInstanceAs (Decidable (CodePoint.ofChar '[' ∈ hostAndPort u.authority))

theorem rawHost_of_bracketed (h : u.IsBracketed) :
    rawHost u.authority =
      (cut (CodePoint.ofChar ']') (cut (CodePoint.ofChar '[') (hostAndPort u.authority)).2).1 := by
  rw [rawHost_eq, if_pos (List.contains_iff_mem.mpr h)]

theorem rawHost_of_plain (h : ¬ u.IsBracketed) :
    rawHost u.authority = (cut (CodePoint.ofChar ':') (hostAndPort u.authority)).1 := by
  rw [rawHost_eq, if_neg (mt List.contains_iff_mem.mp h)]

theorem rawPort_of_plain (h : ¬ u.IsBracketed) :
    rawPort u.authority = (cut (CodePoint.ofChar ':') (hostAndPort u.authority)).2 := by
  rw [rawPort_eq, if_neg (mt List.contains_iff_mem.mp h)]

/-- The user information in front of the host, if there is any. -/
def userInfo (u : Url) : Option Text :=
  if CodePoint.ofChar '@' ∈ u.authority then some (beforeLast (CodePoint.ofChar '@') u.authority)
  else none

theorem userInfo_eq_none_iff : u.userInfo = none ↔ CodePoint.ofChar '@' ∉ u.authority := by
  unfold userInfo
  split <;> simp [*]

theorem hostAndPort_of_userInfo (h : u.userInfo = none) :
    hostAndPort u.authority = u.authority :=
  afterLast_of_not_mem (userInfo_eq_none_iff.mp h)

/-- The number of the port, if the URL has one. -/
def port? (u : Url) : Option Nat :=
  let digits := rawPort u.authority
  if !digits.isEmpty && digits.all CodePoint.isDigit && digitNumber digits ≤ 65535 then
    some (digitNumber digits)
  else none

theorem port?_of_rawPort {p : Nat} (h : rawPort u.authority = Text.ofNat p) (hp : p ≤ 65535) :
    u.port? = some p := by
  have hdigits : (Text.ofNat p).all CodePoint.isDigit = true :=
    List.all_eq_true.mpr fun c ↦ isDigit_of_mem_ofNat
  simp [port?, h, hdigits, hp]

/-! ### Accepted authorities -/

theorem checkAuthority_eq (authority : Text) : checkAuthority authority = (do
    if authority.contains (CodePoint.ofChar '[') != authority.contains (CodePoint.ofChar ']') then
      throw .brackets
    if authority.contains (CodePoint.ofChar '[') then
      checkBracketed
        (cut (CodePoint.ofChar ']') (cut (CodePoint.ofChar '[') authority).2).1) := rfl

/-- Brackets come in pairs. -/
theorem IsAccepted.mem_iff (h : IsAccepted authority) :
    CodePoint.ofChar '[' ∈ authority ↔ CodePoint.ofChar ']' ∈ authority := by
  have hcheck := h.1
  rw [← List.contains_iff_mem, ← List.contains_iff_mem]
  by_cases hsame : authority.contains (CodePoint.ofChar '[') =
      authority.contains (CodePoint.ofChar ']')
  · rw [hsame]
  · rw [checkAuthority_eq, if_pos (bne_iff_ne.mpr hsame)] at hcheck
    exact nomatch hcheck

/-- An authority without brackets is accepted if it hides nothing. -/
theorem isAccepted_of_not_mem (hopen : CodePoint.ofChar '[' ∉ authority)
    (hclose : CodePoint.ofChar ']' ∉ authority)
    (h : ∀ c ∈ authority, c.val ∉ hiddenDelimiters) : IsAccepted authority := by
  have hopen' : authority.contains (CodePoint.ofChar '[') = false := by simpa using hopen
  have hclose' : authority.contains (CodePoint.ofChar ']') = false := by simpa using hclose
  refine ⟨?_, h⟩
  rw [checkAuthority_eq, hopen', hclose']
  rfl

end Url

end StoryCatalog
