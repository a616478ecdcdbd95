import Mathlib.Data.List.TakeWhile
import StoryCatalog.Url.Basic

/-!
# Taking URLs apart

A text is a URL if its authority is accepted (`ofText_eq_ok_iff`), and then no part holds the
delimiter that ends it (`isParted_parts`). Parts of that kind are found again in the text that they
make (`parts_text`).
-/

namespace StoryCatalog.Url

variable {c d : CodePoint} {s t : Text} {u : Url}

/-! ### Cutting -/

theorem bne_of_not_mem (h : c ∉ t) : ∀ d ∈ t, (d != c) = true :=
  fun _ hd ↦ bne_iff_ne.mpr (ne_of_mem_of_not_mem hd h)

theorem cut_of_not_mem (h : c ∉ t) : cut c t = (t, []) := by
  have hall := bne_of_not_mem h
  rw [cut, List.takeWhile_eq_self_iff.mpr hall, List.dropWhile_eq_nil_iff.mpr hall]
  rfl

theorem cut_append (h : c ∉ s) (t : Text) : cut c (s ++ c :: t) = (s, t) := by
  have hall := bne_of_not_mem h
  rw [cut, List.takeWhile_append_of_pos hall, List.dropWhile_append_of_pos hall]
  simp

theorem not_mem_cut (c : CodePoint) (t : Text) : c ∉ (cut c t).1 := by
  unfold cut
  intro h
  have hne := List.mem_takeWhile_imp h
  exact bne_iff_ne.mp hne rfl

theorem mem_of_mem_cut (h : d ∈ (cut c t).1) : d ∈ t := List.takeWhile_subset _ h

theorem mem_of_mem_behind (h : d ∈ (cut c t).2) : d ∈ t :=
  List.dropWhile_subset _ (List.drop_subset _ _ h)

/-- A text behind the delimiter that leads to it, unless it is empty. -/
def led (c : CodePoint) (t : Text) : Text := if t.isEmpty then [] else c :: t

theorem mem_of_mem_led (h : d ∈ led c t) : d = c ∨ d ∈ t := by
  unfold led at h
  split at h
  · exact absurd h List.not_mem_nil
  · exact List.mem_cons.mp h

theorem eq_of_mem_head?_led (h : d ∈ (led c t).head?) : d = c := by
  cases t with
  | nil => exact nomatch h
  | cons first t => exact (Option.mem_some.mp h).symm

theorem cut_append_led (h : c ∉ s) (t : Text) : cut c (s ++ led c t) = (s, t) := by
  cases t with
  | nil => simpa [led] using cut_of_not_mem h
  | cons d t => exact cut_append h (d :: t)

/-! ### The parts of a text -/

/-- Whether a code point ends an authority. -/
def isEnd (c : CodePoint) : Bool :=
  c == CodePoint.ofChar '/' || c == CodePoint.ofChar '?' || c == CodePoint.ofChar '#'

/-- Whether a code point is neither a tab nor a line break, and so stays in a URL. -/
def isKept (c : CodePoint) : Bool := c.val != 0x09 && c.val != 0x0A && c.val != 0x0D

/-- The parts of a text, whatever its authority is. -/
def parts (t : Text) : Url :=
  let (scheme, rest) := takeScheme (clean t)
  let (authority, rest) := takeAuthority rest
  let (rest, fragment) := cut (CodePoint.ofChar '#') rest
  let (path, query) := cut (CodePoint.ofChar '?') rest
  { scheme, authority, path, query, fragment }

/-- What an authority has to be: its brackets are around an address, and it hides no delimiter. -/
def IsAccepted (authority : Text) : Prop :=
  checkAuthority authority = .ok () ∧ ∀ c ∈ authority, c.val ∉ hiddenDelimiters

theorem ofText_eq (t : Text) : ofText t = (do
    checkAuthority (parts t).authority
    if (parts t).authority.any fun c ↦ hiddenDelimiters.contains c.val then
      throw (.hiddenDelimiter (parts t).authority)
    return parts t) := rfl

/-- A text is a URL exactly if its authority is accepted. -/
theorem ofText_eq_ok_iff : ofText t = .ok u ↔ parts t = u ∧ IsAccepted u.authority := by
  have hhidden : ∀ authority : Text,
      (authority.any fun c ↦ hiddenDelimiters.contains c.val) = true ↔
        ¬ ∀ c ∈ authority, c.val ∉ hiddenDelimiters := by
    simp
  rw [ofText_eq, IsAccepted]
  cases hcheck : checkAuthority (parts t).authority with
  | error fault =>
    constructor
    · rintro ⟨⟩
    · rintro ⟨rfl, haccepted, -⟩
      exact nomatch hcheck.symm.trans haccepted
  | ok checked =>
    simp only [bind, Except.bind]
    split
    · next hany =>
      constructor
      · rintro ⟨⟩
      · rintro ⟨rfl, -, hnone⟩
        exact absurd hnone ((hhidden _).mp hany)
    · next hany =>
      constructor
      · rintro ⟨⟩
        exact ⟨rfl, hcheck, not_not.mp fun h ↦ hany ((hhidden _).mpr h)⟩
      · rintro ⟨rfl, -, -⟩
        rfl

/-- Parts that can be told apart when they stand one behind another. -/
structure IsParted (u : Url) : Prop where
  authority : ∀ c ∈ u.authority, isEnd c = false
  path_start : ∀ c ∈ u.path.head?, c = CodePoint.ofChar '/'
  path : CodePoint.ofChar '?' ∉ u.path ∧ CodePoint.ofChar '#' ∉ u.path
  query : CodePoint.ofChar '#' ∉ u.query
  kept : (∀ c ∈ u.authority, isKept c = true) ∧ (∀ c ∈ u.path, isKept c = true) ∧
    (∀ c ∈ u.query, isKept c = true) ∧ ∀ c ∈ u.fragment, isKept c = true

theorem isKept_of_mem_clean (h : c ∈ clean t) : isKept c = true := (List.mem_filter.mp h).2

theorem mem_of_mem_takeScheme (h : c ∈ (takeScheme t).2) : c ∈ t := by
  unfold takeScheme at h
  dsimp only at h
  split at h
  · exact mem_of_mem_behind h
  · exact h

/-- An authority stands in front of the first code point that ends one. -/
theorem takeAuthority_of_ne_nil (h : (takeAuthority t).1 ≠ []) :
    ∃ rest : Text, (∀ c ∈ rest, c ∈ t) ∧
      takeAuthority t = (rest.takeWhile (!isEnd ·), rest.dropWhile (!isEnd ·)) := by
  unfold takeAuthority at h ⊢
  split
  · exact ⟨t.drop 2, fun c ↦ List.mem_of_mem_drop, rfl⟩
  · next hstart => exact absurd rfl (by rwa [if_neg hstart] at h)

/-- What is left behind an authority begins with a code point that ends it. -/
theorem isEnd_of_mem_head? (hfirst : s <+: t.dropWhile (!isEnd ·)) (h : c ∈ s.head?) :
    isEnd c = true := by
  obtain ⟨after, hafter⟩ := hfirst
  have hfind : t.find? isEnd = some c := by
    rw [List.find?_eq_head?_dropWhile_not, ← hafter, List.head?_append, Option.mem_def.mp h,
      Option.some_or]
  exact List.find?_some hfind

/-- A text is made of parts that can be told apart. -/
theorem isParted_parts (h : (parts t).authority ≠ []) : (parts t).IsParted := by
  obtain ⟨rest, hrest, htake⟩ := takeAuthority_of_ne_nil (t := (takeScheme (clean t)).2) h
  let behind := rest.dropWhile (!isEnd ·)
  let front := (cut (CodePoint.ofChar '#') behind).1
  have hparts : parts t =
      { scheme := (takeScheme (clean t)).1
        authority := rest.takeWhile (!isEnd ·)
        path := (cut (CodePoint.ofChar '?') front).1
        query := (cut (CodePoint.ofChar '?') front).2
        fragment := (cut (CodePoint.ofChar '#') behind).2 } := by
    simp only [parts, htake, behind, front]
  have hkept : ∀ c ∈ rest, isKept c = true :=
    fun c hc ↦ isKept_of_mem_clean (mem_of_mem_takeScheme (hrest c hc))
  have hbehind : ∀ c ∈ behind, c ∈ rest := fun c hc ↦ List.dropWhile_subset _ hc
  have hfront : ∀ c ∈ front, c ∈ behind := fun c ↦ mem_of_mem_cut
  rw [hparts]
  refine ⟨fun c hc ↦ ?_, fun c hc ↦ ?_, ⟨not_mem_cut _ _, fun hmem ↦ ?_⟩, fun hmem ↦ ?_, ?_⟩
  · simpa using List.mem_takeWhile_imp hc
  · -- The path begins where the authority ends, and not with one of the other two delimiters.
    have hprefix : (cut (CodePoint.ofChar '?') front).1 <+: behind :=
      (List.takeWhile_prefix _).trans (List.takeWhile_prefix _)
    have hend : isEnd c = true := isEnd_of_mem_head? hprefix hc
    have hmem : c ∈ (cut (CodePoint.ofChar '?') front).1 := List.mem_of_mem_head? hc
    have hquestion : c ≠ CodePoint.ofChar '?' := ne_of_mem_of_not_mem hmem (not_mem_cut _ _)
    have hhash : c ≠ CodePoint.ofChar '#' :=
      ne_of_mem_of_not_mem (mem_of_mem_cut hmem) (not_mem_cut _ _)
    simpa [isEnd, hquestion, hhash] using hend
  · exact not_mem_cut _ _ (mem_of_mem_cut hmem)
  · exact not_mem_cut _ _ (mem_of_mem_behind hmem)
  · exact ⟨fun c hc ↦ hkept c (List.takeWhile_subset _ hc),
      fun c hc ↦ hkept c (hbehind c (hfront c (mem_of_mem_cut hc))),
      fun c hc ↦ hkept c (hbehind c (hfront c (mem_of_mem_behind hc))),
      fun c hc ↦ hkept c (hbehind c (mem_of_mem_behind hc))⟩

/-! ### The text of parts -/

theorem takeAuthority_append (h : ∀ c ∈ s, isEnd c = false)
    (hrest : ∀ c ∈ t.head?, isEnd c = true) :
    takeAuthority (CodePoint.ofChar '/' :: CodePoint.ofChar '/' :: (s ++ t)) = (s, t) := by
  have htake : takeAuthority (CodePoint.ofChar '/' :: CodePoint.ofChar '/' :: (s ++ t)) =
      ((s ++ t).takeWhile (!isEnd ·), (s ++ t).dropWhile (!isEnd ·)) := rfl
  have hs : ∀ c ∈ s, (!isEnd c) = true := fun c hc ↦ by rw [h c hc, Bool.not_false]
  rw [htake, List.takeWhile_append_of_pos hs, List.dropWhile_append_of_pos hs]
  cases t with
  | nil => simp
  | cons c t => simp [hrest c rfl]

/-- The scheme is one of those that pages are served with. -/
def IsHttp (u : Url) : Prop := u.scheme = "http" ∨ u.scheme = "https"

theorem takeScheme_eq (t : Text) : takeScheme t =
    if t.contains (CodePoint.ofChar ':') &&
        ((cut (CodePoint.ofChar ':') t).1.head?.map isLetter).getD false &&
        (cut (CodePoint.ofChar ':') t).1.all isSchemePoint then
      ((cut (CodePoint.ofChar ':') t).1.lower, (cut (CodePoint.ofChar ':') t).2)
    else ([], t) := rfl

theorem takeScheme_append (h : u.IsHttp) (t : Text) :
    takeScheme (u.scheme ++ CodePoint.ofChar ':' :: t) = (u.scheme, t) := by
  have hcolon : CodePoint.ofChar ':' ∉ u.scheme := by
    rcases h with h | h <;> rw [h] <;> decide
  have hletters : (u.scheme.head?.map isLetter).getD false = true ∧
      u.scheme.all isSchemePoint = true ∧ u.scheme.lower = u.scheme := by
    rcases h with h | h <;> rw [h] <;> decide
  have hmem : (u.scheme ++ CodePoint.ofChar ':' :: t).contains (CodePoint.ofChar ':') = true := by
    simp
  rw [takeScheme_eq, cut_append hcolon, hmem, hletters.1, hletters.2.1, hletters.2.2]
  rfl

theorem text_eq (hscheme : u.IsHttp) (hparted : u.IsParted) (hauthority : u.authority ≠ []) :
    u.text = u.scheme ++ CodePoint.ofChar ':' :: CodePoint.ofChar '/' :: CodePoint.ofChar '/' ::
      (u.authority ++ (u.path ++ led (CodePoint.ofChar '?') u.query ++
        led (CodePoint.ofChar '#') u.fragment)) := by
  have htext : u.text = Text.concat
      [if u.scheme.isEmpty then [] else u.scheme ++ [CodePoint.ofChar ':'],
        if u.authority.isEmpty then u.path
        else Text.concat ["//", u.authority,
          if u.path.isEmpty || u.path.head? = some (CodePoint.ofChar '/') then u.path
          else CodePoint.ofChar '/' :: u.path],
        led (CodePoint.ofChar '?') u.query, led (CodePoint.ofChar '#') u.fragment] := rfl
  have hne : u.scheme.isEmpty = false := by
    rcases hscheme with h | h <;> rw [h] <;> rfl
  have hslashes : Text.ofString "//" = [CodePoint.ofChar '/', CodePoint.ofChar '/'] := rfl
  have hpath : (u.path.isEmpty || u.path.head? = some (CodePoint.ofChar '/')) = true := by
    cases hpath : u.path with
    | nil => rfl
    | cons c path => simpa [hpath] using hparted.path_start
  rw [htext, hne, if_neg Bool.false_ne_true, if_neg (by simpa using hauthority), if_pos hpath,
    hslashes]
  simp [Text.concat]

theorem clean_of_forall (hhead : ∀ c ∈ t.head?, 0x20 < c.val) (h : ∀ c ∈ t, isKept c = true) :
    clean t = t := by
  have hfilter : clean t = (t.dropWhile (·.val ≤ 0x20)).filter isKept := rfl
  rw [hfilter]
  cases t with
  | nil => rfl
  | cons c t =>
    have hlarge : ¬ c.val ≤ 0x20 := not_le.mpr (hhead c rfl)
    rw [List.dropWhile_cons_of_neg (by simpa using hlarge), List.filter_eq_self.mpr h]

/-- Nothing is cleaned away from a text that is made of parts. -/
theorem clean_text (hscheme : u.IsHttp) (hparted : u.IsParted) (hauthority : u.authority ≠ []) :
    clean u.text = u.text := by
  obtain ⟨hauthority', hpath, hquery, hfragment⟩ := hparted.kept
  obtain ⟨hletters, first, more, hfirst, hlarge⟩ : (∀ c ∈ u.scheme, isKept c = true) ∧
      ∃ first more, u.scheme = first :: more ∧ 0x20 < first.val := by
    rcases hscheme with h | h <;> rw [h] <;> exact ⟨by decide, _, _, rfl, by decide⟩
  have hled : ∀ {c : CodePoint} {t : Text}, isKept c = true → (∀ d ∈ t, isKept d = true) →
      ∀ d ∈ led c t, isKept d = true := by
    intro c t hc ht d hd
    rcases mem_of_mem_led hd with rfl | hd
    · exact hc
    · exact ht d hd
  rw [text_eq hscheme hparted hauthority]
  refine clean_of_forall ?_ ?_
  · rw [hfirst]
    rintro c ⟨⟩
    exact hlarge
  · simp only [List.forall_mem_append, List.forall_mem_cons]
    exact ⟨hletters, rfl, rfl, rfl, hauthority', ⟨hpath, hled rfl hquery⟩, hled rfl hfragment⟩

/-- The parts are found again in their text. -/
theorem parts_text (hscheme : u.IsHttp) (hparted : u.IsParted) (hauthority : u.authority ≠ []) :
    parts u.text = u := by
  have hstart : ∀ c ∈ (u.path ++ led (CodePoint.ofChar '?') u.query ++
      led (CodePoint.ofChar '#') u.fragment).head?, isEnd c = true := by
    intro c hc
    rw [List.head?_append, List.head?_append, Option.mem_def, Option.or_eq_some_iff,
      Option.or_eq_some_iff] at hc
    rcases hc with (hpath | ⟨-, hquery⟩) | ⟨-, hfragment⟩
    · rw [hparted.path_start c hpath]
      rfl
    · rw [eq_of_mem_head?_led hquery]
      rfl
    · rw [eq_of_mem_head?_led hfragment]
      rfl
  have hhash : CodePoint.ofChar '#' ∉ u.path ++ led (CodePoint.ofChar '?') u.query := by
    rw [List.mem_append]
    rintro (hpath | hquery)
    · exact hparted.path.2 hpath
    · exact (mem_of_mem_led hquery).elim (by decide) hparted.query
  unfold parts
  rw [clean_text hscheme hparted hauthority, text_eq hscheme hparted hauthority,
    takeScheme_append hscheme]
  simp only [takeAuthority_append hparted.authority hstart, cut_append_led hhash,
    cut_append_led hparted.path.1]

/-- What parts make is read as them, if it is a URL. -/
theorem ofText_text_eq_ok_iff {v : Url} (hscheme : u.IsHttp) (hparted : u.IsParted)
    (hauthority : u.authority ≠ []) : ofText u.text = .ok v ↔ v = u ∧ IsAccepted u.authority := by
  rw [ofText_eq_ok_iff, parts_text hscheme hparted hauthority]
  constructor <;>
  · rintro ⟨rfl, haccepted⟩
    exact ⟨rfl, haccepted⟩

end StoryCatalog.Url
