import StoryCatalog.Proofs.Url.Authority
import StoryCatalog.Settings.Basic

/-!
# The port of the server

The settings put a port in the place of the one in a URL, but keep of the authority only the host,
and that without brackets. So only the port is changed exactly if the URL has no user information
and its host is no address in brackets (`changesOnlyPort_iff`).
-/

namespace StoryCatalog

open Text

namespace Address

/-- A text without colons has too few groups for an address. -/
theorem colon_mem_of_isIpv6 {t : Text} (h : isIpv6 t = true) : CodePoint.ofChar ':' ∈ t := by
  by_contra hcolon
  let address := t.takeWhile (· != CodePoint.ofChar '%')
  have hparts : splitOn (CodePoint.ofChar ':') address = [address] :=
    splitOn_of_not_mem fun hmem ↦ hcolon (List.takeWhile_subset _ hmem)
  have hgroups : groups address = [("0" : Text), "0"] ∨ groups address = [address] := by
    have heq : groups address = if isIpv4 address then [("0" : Text), "0"] else [address] := by
      have hdef : groups address =
          if isIpv4 ((splitOn (CodePoint.ofChar ':') address).getLast?.getD []) then
            (splitOn (CodePoint.ofChar ':') address).dropLast ++ [("0" : Text), "0"]
          else splitOn (CodePoint.ofChar ':') address := rfl
      rw [hdef, hparts]
      rfl
    rw [heq]
    split
    · exact .inl rfl
    · exact .inr rfl
  have hnot : isIpv6WithoutZone address = false := by
    rcases hgroups with hgroups | hgroups <;> rw [isIpv6WithoutZone, hgroups] <;> rfl
  have haddress : isIpv6WithoutZone address = true := (Bool.and_eq_true _ _ ▸ h).1
  exact nomatch hnot.symm.trans haddress

end Address

namespace Url

variable {c : CodePoint} {s t front authority : Text} {u v : Url} {p : Nat}

/-! ### The path -/

/-- The path of a URL and the parameters of its last segment. -/
def pathAndParameters (u : Url) : Text × Text :=
  if schemesWithParameters.contains u.scheme then
    let (segment, parameters) :=
      cut (CodePoint.ofChar ';') (afterLast (CodePoint.ofChar '/') u.path)
    (dropEndWhile u.path (· != CodePoint.ofChar '/') ++ segment, parameters)
  else (u.path, [])

/-- A text is empty or ends with a code point. -/
def EndsAt (c : CodePoint) (t : Text) : Prop := t = [] ∨ ∃ s, t = s ++ [c]

theorem exists_endsAt (c : CodePoint) (t : Text) :
    ∃ front rest, t = front ++ rest ∧ EndsAt c front ∧ c ∉ rest := by
  by_cases h : c ∈ t
  · obtain ⟨s, rest, rfl, hrest⟩ := exists_last h
    exact ⟨s ++ [c], rest, by simp, .inr ⟨s, rfl⟩, hrest⟩
  · exact ⟨[], t, rfl, .inl rfl, h⟩

theorem afterLast_of_endsAt (hfront : EndsAt c front) (h : c ∉ t) :
    afterLast c (front ++ t) = t := by
  rcases hfront with rfl | ⟨s, rfl⟩
  · exact afterLast_of_not_mem h
  · rw [List.append_assoc, List.singleton_append, afterLast_append s h]

theorem dropEndWhile_of_endsAt (hfront : EndsAt c front) (h : c ∉ t) :
    dropEndWhile (front ++ t) (· != c) = front := by
  have hall := bne_of_not_mem (mt List.mem_reverse.mp h)
  rw [dropEndWhile, List.reverse_append, List.dropWhile_append_of_pos hall]
  rcases hfront with rfl | ⟨s, rfl⟩
  · rfl
  · simp

theorem pathWithoutEmptyParameters_prefix (u : Url) : u.pathWithoutEmptyParameters <+: u.path := by
  unfold pathWithoutEmptyParameters
  dsimp only
  split
  · exact List.dropLast_prefix _
  · exact List.prefix_refl _

theorem hasParameters (h : u.IsHttp) : schemesWithParameters.contains u.scheme = true := by
  rcases h with h | h <;> rw [h] <;> decide

theorem pathAndParameters_eq (h : u.IsHttp) (hpath : u.path = front ++ t)
    (hfront : EndsAt (CodePoint.ofChar '/') front) (ht : CodePoint.ofChar '/' ∉ t) :
    u.pathAndParameters =
      (front ++ (cut (CodePoint.ofChar ';') t).1, (cut (CodePoint.ofChar ';') t).2) := by
  rw [pathAndParameters, if_pos (hasParameters h), hpath, afterLast_of_endsAt hfront ht,
    dropEndWhile_of_endsAt hfront ht]

/-- Parameters that are empty are the same as none. -/
theorem pathAndParameters_withPort (h : u.IsHttp) (p : Nat) :
    (u.withPort p).pathAndParameters = u.pathAndParameters := by
  obtain ⟨front, segment, hpath, hfront, hsegment⟩ := exists_endsAt (CodePoint.ofChar '/') u.path
  have hkept : (u.withPort p).path =
      if segment.contains (CodePoint.ofChar ';') &&
          (cut (CodePoint.ofChar ';') segment).2.isEmpty then u.path.dropLast else u.path := by
    have hdef : (u.withPort p).path =
        if schemesWithParameters.contains u.scheme &&
            (afterLast (CodePoint.ofChar '/') u.path).contains (CodePoint.ofChar ';') &&
            (cut (CodePoint.ofChar ';') (afterLast (CodePoint.ofChar '/') u.path)).2.isEmpty then
          u.path.dropLast
        else u.path := rfl
    rw [hdef, hasParameters h, hpath, afterLast_of_endsAt hfront hsegment, Bool.true_and]
  have hhttp : (u.withPort p).IsHttp := h
  rw [pathAndParameters_eq h hpath hfront hsegment]
  split at hkept
  · next hempty =>
    obtain ⟨hmem, hbehind⟩ := Bool.and_eq_true_iff.mp hempty
    obtain ⟨name, rest, heq, hname⟩ := List.eq_append_cons_of_mem (List.contains_iff_mem.mp hmem)
    obtain rfl : rest = [] := by
      rw [heq, cut_append hname] at hbehind
      exact List.isEmpty_iff.mp hbehind
    have hnew : (u.withPort p).path = front ++ name := by
      rw [hkept, hpath, heq, ← List.append_assoc, List.dropLast_concat]
    have hinside : CodePoint.ofChar '/' ∉ name :=
      fun hslash ↦ hsegment (heq ▸ List.mem_append_left _ hslash)
    rw [pathAndParameters_eq hhttp hnew hfront hinside, cut_of_not_mem hname, heq,
      cut_append hname]
  · rw [pathAndParameters_eq hhttp (hkept.trans hpath) hfront hsegment]

/-! ### The authority -/

theorem withPort_authority (hhost : u.host ≠ []) (p : Nat) :
    (u.withPort p).authority = u.host ++ CodePoint.ofChar ':' :: Text.ofNat p := by
  have hdef : (u.withPort p).authority =
      Text.concat [if u.host.isEmpty then defaultHost else u.host, [CodePoint.ofChar ':'],
        Text.ofNat p] := rfl
  rw [hdef, if_neg (by simpa using hhost)]
  simp [Text.concat]

/-- Of the marks, an authority with another port holds those of the host, and a colon. -/
theorem mem_withPort_authority (hhost : u.host ≠ []) (h : c ∈ (u.withPort p).authority)
    (hmark : c.val ∈ marks) : c ∈ rawHost u.authority ∨ c = CodePoint.ofChar ':' := by
  rw [withPort_authority hhost, List.mem_append, List.mem_cons] at h
  rcases h with hmem | hcolon | hdigit
  · exact .inl (mem_rawHost_of_mark hmem hmark)
  · exact .inr hcolon
  · have hnone : ∀ n ∈ marks, ¬ (0x30 ≤ n ∧ n ≤ 0x39) := by decide
    have hbetween := isDigit_of_mem_ofNat hdigit
    simp only [CodePoint.isDigit, Bool.and_eq_true, decide_eq_true_eq] at hbetween
    exact absurd hbetween (hnone c.val hmark)

/-- What holds of the code points of a host and of all that are no marks holds of an authority with
another port. -/
theorem forall_mem_withPort_authority {q : CodePoint → Prop} (hhost : u.host ≠ [])
    (hmarks : ∀ c, ¬ q c → c.val ∈ marks) (hcolon : q (CodePoint.ofChar ':'))
    (h : ∀ c ∈ rawHost u.authority, q c) : ∀ c ∈ (u.withPort p).authority, q c := by
  intro c hc
  by_contra hnot
  rcases mem_withPort_authority hhost hc (hmarks c hnot) with hmem | rfl
  · exact hnot (h c hmem)
  · exact hnot hcolon

/-- The parts of a URL with another port can be told apart. -/
theorem isParted_withPort (hhost : u.host ≠ []) (h : u.IsParted) : (u.withPort p).IsParted := by
  have hprefix : (u.withPort p).path <+: u.path := u.pathWithoutEmptyParameters_prefix
  have hpath : ∀ c ∈ (u.withPort p).path, c ∈ u.path := fun c hc ↦ hprefix.subset hc
  obtain ⟨hauthority, hkept, hquery, hfragment⟩ := h.kept
  have hends : ∀ c, ¬ isEnd c = false → c.val ∈ marks := by
    intro c hc
    simp only [isEnd, Bool.not_eq_false, Bool.or_eq_true, beq_iff_eq] at hc
    rcases hc with (rfl | rfl) | rfl <;> decide
  have hcleaned : ∀ c, ¬ isKept c = true → c.val ∈ marks := by
    intro c hc
    simp only [isKept, Bool.and_eq_true, bne_iff_ne, not_and_or, not_not] at hc
    rcases hc with (hc | hc) | hc <;> rw [hc] <;> decide
  refine ⟨?_, ?_, ⟨fun hc ↦ h.path.1 (hpath _ hc), fun hc ↦ h.path.2 (hpath _ hc)⟩, h.query, ?_⟩
  · exact forall_mem_withPort_authority hhost hends rfl
      fun c hc ↦ h.authority c (mem_of_mem_rawHost_authority hc)
  · intro c hc
    obtain ⟨more, hmore⟩ := hprefix
    refine h.path_start c ?_
    rw [← hmore, List.head?_append, Option.mem_def.mp hc, Option.some_or]
    rfl
  · exact ⟨forall_mem_withPort_authority hhost hcleaned rfl
      fun c hc ↦ hauthority c (mem_of_mem_rawHost_authority hc),
      fun c hc ↦ hkept c (hpath c hc), hquery, hfragment⟩

/-! ### What changes with the port -/

/-- A URL of pages with a host. Brackets are around an address of the longer kind, and no name and
no shorter address has them. -/
structure IsServer (u : Url) : Prop where
  isHttp : u.IsHttp
  host : u.host ≠ []
  address : u.IsBracketed → Address.isIpv6 (rawHost u.authority) = true

/-- Two URLs are the same apart from their ports. -/
structure SameButPort (u v : Url) : Prop where
  scheme : v.scheme = u.scheme
  userInfo : v.userInfo = u.userInfo
  host : v.host = u.host
  path : v.pathAndParameters = u.pathAndParameters
  query : v.query = u.query
  fragment : v.fragment = u.fragment

/-- User information is never kept. -/
theorem userInfo_withPort (hhost : u.host ≠ []) : (u.withPort p).userInfo = none := by
  refine userInfo_eq_none_iff.mpr fun h ↦ ?_
  rcases mem_withPort_authority hhost h (by decide) with hmem | heq
  · exact not_mem_afterLast _ _ (mem_of_mem_rawHost hmem)
  · exact absurd heq (by decide)

/-- Without brackets around the host, an authority with another port has none either, and it is
accepted. -/
theorem isAccepted_withPort (hhost : u.host ≠ []) (haccepted : IsAccepted u.authority)
    (huser : u.userInfo = none) (hplain : ¬ u.IsBracketed) :
    IsAccepted (u.withPort p).authority ∧ ¬ (u.withPort p).IsBracketed := by
  have hopen : CodePoint.ofChar '[' ∉ u.authority := hostAndPort_of_userInfo huser ▸ hplain
  have hclose : CodePoint.ofChar ']' ∉ u.authority := fun h ↦ hopen (haccepted.mem_iff.mpr h)
  have hbrackets : ∀ c ∈ (u.withPort p).authority,
      ¬ (c = CodePoint.ofChar '[' ∨ c = CodePoint.ofChar ']') := by
    refine forall_mem_withPort_authority hhost (fun c hc ↦ ?_) (by decide) fun c hc ↦ ?_
    · rcases not_not.mp hc with rfl | rfl <;> decide
    · rintro (rfl | rfl)
      · exact hopen (mem_of_mem_rawHost_authority hc)
      · exact hclose (mem_of_mem_rawHost_authority hc)
  have hopen' : CodePoint.ofChar '[' ∉ (u.withPort p).authority :=
    fun h ↦ hbrackets _ h (.inl rfl)
  have hclose' : CodePoint.ofChar ']' ∉ (u.withPort p).authority :=
    fun h ↦ hbrackets _ h (.inr rfl)
  have hhidden : ∀ c ∈ (u.withPort p).authority, c.val ∉ hiddenDelimiters :=
    forall_mem_withPort_authority hhost
      (fun c hc ↦ List.mem_append_right _ (not_not.mp hc)) (by decide)
      fun c hc ↦ haccepted.2 c (mem_of_mem_rawHost_authority hc)
  refine ⟨isAccepted_of_not_mem hopen' hclose' hhidden, ?_⟩
  unfold IsBracketed
  rwa [hostAndPort_of_userInfo (userInfo_withPort hhost)]

/-- Without user information and brackets, host and port are read as they are set. -/
theorem sameButPort_withPort (hu : u.IsServer) (haccepted : IsAccepted u.authority)
    (huser : u.userInfo = none) (hplain : ¬ u.IsBracketed) (hp : p ≤ 65535) :
    (u.withPort p).port? = some p ∧ u.SameButPort (u.withPort p) := by
  have hraw : rawHost u.authority = (cut (CodePoint.ofChar ':') u.authority).1 := by
    rw [rawHost_of_plain hplain, hostAndPort_of_userInfo huser]
  have hcolon : CodePoint.ofChar ':' ∉ u.host := fun h ↦
    not_mem_cut _ _ (hraw ▸ mem_rawHost_of_mark h (by decide))
  have huser' : (u.withPort p).userInfo = none := userInfo_withPort hu.host
  have hplain' := (isAccepted_withPort (p := p) hu.host haccepted huser hplain).2
  have hcut : cut (CodePoint.ofChar ':') (hostAndPort (u.withPort p).authority) =
      (u.host, Text.ofNat p) := by
    rw [hostAndPort_of_userInfo huser', withPort_authority hu.host, cut_append hcolon]
  have hhost : rawHost (u.withPort p).authority = u.host := by
    rw [rawHost_of_plain hplain', hcut]
  have hport : rawPort (u.withPort p).authority = Text.ofNat p := by
    rw [rawPort_of_plain hplain', hcut]
  have hlower : (u.withPort p).host = u.host := by
    rw [host_eq, hhost, host_eq, lowerToZone_lowerToZone]
  exact ⟨port?_of_rawPort hport hp, rfl, huser'.trans huser.symm, hlower,
    pathAndParameters_withPort hu.isHttp p, rfl, rfl⟩

/-- The host of a URL in brackets is not read again without them. -/
theorem host_withPort_ne (hu : u.IsServer) (hbracketed : u.IsBracketed)
    (haccepted : IsAccepted (u.withPort p).authority) : (u.withPort p).host ≠ u.host := by
  have hsettled : IsSettled (CodePoint.ofChar ':') := isSettled_of_ascii (by decide) (by decide)
  have hcolon : CodePoint.ofChar ':' ∈ u.host :=
    mem_lowerToZone hsettled (Address.colon_mem_of_isIpv6 (hu.address hbracketed))
  -- Since no closing bracket is left, no opening one is, and the host ends at its first colon.
  have hopen : CodePoint.ofChar '[' ∉ (u.withPort p).authority := by
    rw [haccepted.mem_iff]
    intro hclose
    rcases mem_withPort_authority hu.host hclose (by decide) with hmem | heq
    · exact not_mem_cut _ _ (rawHost_of_bracketed hbracketed ▸ hmem)
    · exact absurd heq (by decide)
  have hplain' : ¬ (u.withPort p).IsBracketed := by
    unfold IsBracketed
    rwa [hostAndPort_of_userInfo (userInfo_withPort hu.host)]
  intro heq
  have hmem := mem_rawHost_of_mark (heq ▸ hcolon) (by decide)
  exact not_mem_cut _ _ (rawHost_of_plain hplain' ▸ hmem)

end Url

/-! ### The URL of the settings -/

namespace Settings

variable {s : Settings} {u : Url} {p : Nat}

/-- The URL that is used for the server is read as the one that is set, with another port. -/
def ChangesOnlyPort (s : Settings) (u : Url) (p : Nat) : Prop :=
  ∃ v, (s.effectiveUrl >>= Url.ofText) = .ok v ∧ v.port? = some p ∧ u.SameButPort v

/-- What the effective URL is read as, if it is a URL. -/
theorem read_effectiveUrl_eq_ok_iff {v : Url} (hurl : Url.ofText s.url = .ok u) (hhttp : u.IsHttp)
    (hhost : u.host ≠ []) (hport : s.port = some p) :
    (s.effectiveUrl >>= Url.ofText) = .ok v ↔
      v = u.withPort p ∧ Url.IsAccepted (u.withPort p).authority := by
  have hparts := (Url.ofText_eq_ok_iff.mp hurl).1
  have hauthority : u.authority ≠ [] := fun h ↦ hhost (by rw [Url.host_eq, h]; rfl)
  have hparted : u.IsParted := hparts ▸ Url.isParted_parts (hparts ▸ hauthority)
  have hauthority' : (u.withPort p).authority ≠ [] := by
    rw [Url.withPort_authority hhost]
    exact List.append_ne_nil_of_left_ne_nil hhost _
  have heffective : (s.effectiveUrl >>= Url.ofText) = Url.ofText (u.withPort p).text := by
    rw [effectiveUrl, hport]
    simp only [hurl]
    rfl
  rw [heffective]
  exact Url.ofText_text_eq_ok_iff hhttp (Url.isParted_withPort hhost hparted) hauthority'

/-- With a port that is set, only the port of the URL of a server is changed exactly if the URL has
no user information and its host is not in brackets. -/
theorem changesOnlyPort_iff (hurl : Url.ofText s.url = .ok u) (hu : u.IsServer)
    (hport : s.port = some p) (hp : p ≤ 65535) :
    s.ChangesOnlyPort u p ↔ u.userInfo = none ∧ ¬ u.IsBracketed := by
  have haccepted := (Url.ofText_eq_ok_iff.mp hurl).2
  constructor
  · rintro ⟨v, hv, -, hsame⟩
    obtain ⟨rfl, haccepted'⟩ := (read_effectiveUrl_eq_ok_iff hurl hu.isHttp hu.host hport).mp hv
    exact ⟨hsame.userInfo.symm.trans (Url.userInfo_withPort hu.host),
      fun hbracketed ↦ Url.host_withPort_ne hu hbracketed haccepted' hsame.host⟩
  · rintro ⟨huser, hplain⟩
    obtain ⟨hnumber, hsame⟩ := Url.sameButPort_withPort hu haccepted huser hplain hp
    exact ⟨u.withPort p, (read_effectiveUrl_eq_ok_iff hurl hu.isHttp hu.host hport).mpr
      ⟨rfl, (Url.isAccepted_withPort hu.host haccepted huser hplain).1⟩, hnumber, hsame⟩

/-- The settings that a URL and a port make. -/
def settingsOfServer (url : Text) (port : Nat) : Checked Settings :=
  ofValues [("url", .string url), ("port", .int port)]

/-- Letter case and empty parameters are no part of what a URL is read as. -/
theorem changesOnlyPort_mixedCase : ∃ s u,
    settingsOfServer "HTTP://Example.test:6006/a;?q=1#f" 9009 = .ok s ∧ Url.ofText s.url = .ok u ∧
      s.ChangesOnlyPort u 9009 := by
  refine ⟨_, _, rfl, rfl, (changesOnlyPort_iff rfl ⟨.inl rfl, by decide, ?_⟩ rfl ?_).mpr ?_⟩
  · exact fun hbracketed ↦ absurd hbracketed (by decide)
  · decide
  · decide

/-- The brackets of an address are lost with the port, and so is user information. -/
theorem not_changesOnlyPort_bracketed :
    (∃ s u, settingsOfServer "http://[::1]:6006" 6007 = .ok s ∧ Url.ofText s.url = .ok u ∧
      u.IsServer ∧ s.port = some 6007 ∧ ¬ s.ChangesOnlyPort u 6007) ∧
    ∃ s u, settingsOfServer "http://user:pw@host:6006" 6007 = .ok s ∧ Url.ofText s.url = .ok u ∧
      u.IsServer ∧ s.port = some 6007 ∧ ¬ s.ChangesOnlyPort u 6007 := by
  constructor
  · refine ⟨_, _, rfl, rfl, ⟨.inl rfl, by decide, fun _ ↦ rfl⟩, rfl, ?_⟩
    rintro ⟨v, hv, -, hsame⟩
    obtain rfl := Except.ok.inj hv
    exact absurd hsame.host (by decide)
  · refine ⟨_, _, rfl, rfl, ⟨.inl rfl, by decide, fun hbracketed ↦ ?_⟩, rfl, ?_⟩
    · exact absurd hbracketed (by decide)
    · rintro ⟨v, hv, -, hsame⟩
      obtain rfl := Except.ok.inj hv
      exact absurd hsame.userInfo (by decide)

end Settings

end StoryCatalog
