import Mathlib.Data.List.Nodup
import StoryCatalog.Catalog.Search
import StoryCatalog.Proofs.Timestamp.RoundTrip
import StoryCatalog.Proofs.Text.Case

/-!
# What a search finds

A search gives stories of the catalog in their order, and only such that hold the text in lower
case. A story in which the text stands as it was typed is found wherever lower case writes the text
as it writes it alone. For a text without exposed sigmas this is always so, and for others there are
stories that are missed (`Catalog.finds_iff`).
-/

namespace StoryCatalog

open Text (strip lower lowerBetween ExposesSigma)

/-- The texts of a story in which a search looks: its title, its name, its identifier and its
tags. -/
def StoryRecord.searchedTexts (r : StoryRecord) : List Text := r.title :: r.name :: r.id :: r.tags

theorem StoryRecord.mentions_iff {r : StoryRecord} {needle : Text} :
    r.mentions needle = true ↔ ∃ t ∈ r.searchedTexts, needle <:+: lower t := by
  simp only [mentions, searchedTexts, kind, story, holdsFolded, List.any_cons, List.any_nil,
    Bool.or_eq_true, Bool.or_false, List.any_eq_true, Text.holds_iff, List.mem_cons,
    exists_eq_or_imp]
  tauto

namespace Catalog

variable {c : Catalog} {query : Text} {found : Fields StoryRecord}

/-- A search for a text comes to some entries of the catalog: they stand in it in this order, none
of them twice, and hold the text, both in lower case. -/
structure Finds (c : Catalog) (query : Text) (found : Fields StoryRecord) : Prop where
  search_eq : c.search query = .ok (Fields.values found)
  sublist : found.Sublist c.stories.fields
  nodup_keys : (Fields.keys found).Nodup
  holds : ∀ entry ∈ found, ∃ t ∈ entry.2.searchedTexts, lower (strip query) <:+: lower t

/-- Every story in which a text stands as it is, is among some entries. -/
def HasAll (c : Catalog) (needle : Text) (found : Fields StoryRecord) : Prop :=
  ∀ entry ∈ c.stories.fields, (∃ t ∈ entry.2.searchedTexts, needle <:+: t) → entry ∈ found

/-- The entries that a search gives. -/
private def foundIn (c : Catalog) (query : Text) : Fields StoryRecord :=
  c.stories.fields.filter (·.2.mentions (lower (strip query)))

private theorem mem_foundIn {entry : Text × StoryRecord} :
    entry ∈ c.foundIn query ↔ entry ∈ c.stories.fields ∧
      ∃ t ∈ entry.2.searchedTexts, lower (strip query) <:+: lower t := by
  rw [foundIn, List.mem_filter, StoryRecord.mentions_iff]

private theorem finds_foundIn (hpos : 1 ≤ (strip query).length)
    (hmax : (strip query).length ≤ 200) (c : Catalog) : c.Finds query (c.foundIn query) where
  search_eq := by
    have hempty : (strip query).isEmpty = false := by
      rw [List.isEmpty_eq_false_iff, ← List.length_pos_iff]
      exact hpos
    have hlong : ¬ longestQuery < (strip query).length := Nat.not_lt.mpr hmax
    rw [search, hempty, if_neg (by simpa using hlong), foundIn, records, OrderedMap.values,
      Fields.values, Fields.values, List.filter_map]
    rfl
  sublist := List.filter_sublist
  nodup_keys := c.stories.nodup_keys.sublist (List.filter_sublist.map _)
  holds := fun entry hentry ↦ (mem_foundIn.mp hentry).2

/-- A catalog whose only story has a given title and no other texts. -/
def ofTitle (title : Text) : Catalog where
  extractedFrom := .unknown
  stories := ⟨[([], { id := [], title, name := [] })], List.nodup_singleton _⟩
  generatedAt := .secondOfJanuary

/-- A text that is written otherwise inside a title is not found in it. -/
private theorem not_finds_ofTitle {title : Text} (hne : strip query ≠ [])
    (hwithin : strip query <:+: title) (hnot : ¬ lower (strip query) <:+: lower title) :
    ¬ ∃ found, (ofTitle title).Finds query found ∧ (ofTitle title).HasAll (strip query) found := by
  rintro ⟨found, hfinds, hall⟩
  have hmem := hall _ List.mem_cons_self ⟨title, List.mem_cons_self, hwithin⟩
  obtain ⟨t, ht, hlower⟩ := hfinds.holds _ hmem
  rcases List.mem_cons.mp ht with rfl | hempty
  · exact hnot hlower
  · have hnil : t = [] := by simpa using hempty
    rw [hnil] at hlower
    exact Text.lower_ne_nil hne (List.infix_nil.mp hlower)

/-- A search for a text of one to 200 code points, white space around it apart, finds the stories
that hold it where it is written as alone. It finds all stories that hold it, in every catalog,
exactly if the text exposes no sigma. -/
theorem finds_iff (hpos : 1 ≤ (strip query).length) (hmax : (strip query).length ≤ 200) :
    (∀ c : Catalog, ∃ found, c.Finds query found ∧
      ∀ entry ∈ c.stories.fields, ∀ before after,
        before ++ strip query ++ after ∈ entry.2.searchedTexts →
        lowerBetween before.reverse (strip query) after = lower (strip query) → entry ∈ found) ∧
    ((∀ c : Catalog, ∃ found, c.Finds query found ∧ c.HasAll (strip query) found) ↔
      ¬ ExposesSigma (strip query)) := by
  refine ⟨fun c ↦ ⟨c.foundIn query, finds_foundIn hpos hmax c, ?_⟩, fun h hexposed ↦ ?_,
    fun h c ↦ ?_⟩
  · intro entry hentry before after hmem halone
    exact mem_foundIn.mpr ⟨hentry, _, hmem, Text.lower_infix_of_eq halone⟩
  · obtain ⟨whole, hwithin, hnot⟩ := Text.exists_not_infix hexposed
    refine not_finds_ofTitle ?_ hwithin hnot (h (ofTitle whole))
    exact List.length_pos_iff.mp hpos
  · refine ⟨c.foundIn query, finds_foundIn hpos hmax c, ?_⟩
    rintro entry hentry ⟨t, ht, hwithin⟩
    exact mem_foundIn.mpr ⟨hentry, t, ht, Text.lower_infix_iff.mpr h t hwithin⟩

/-- A text of two words, whose sigmas are settled by the other letters and the blank between the
words, is found wherever it stands. -/
theorem finds_settledSigmas : 1 ≤ (strip " ΣΟΦΟΣ Α ").length ∧ (strip " ΣΟΦΟΣ Α ").length ≤ 200 ∧
    ∀ c : Catalog, ∃ found, c.Finds " ΣΟΦΟΣ Α " found ∧ c.HasAll (strip " ΣΟΦΟΣ Α ") found := by
  have hpos : 1 ≤ (strip " ΣΟΦΟΣ Α ").length := by decide
  have hmax : (strip " ΣΟΦΟΣ Α ").length ≤ 200 := by decide
  have hsettled : ¬ ExposesSigma (strip " ΣΟΦΟΣ Α ") := by decide +kernel
  exact ⟨hpos, hmax, (finds_iff hpos hmax).2.mpr hsettled⟩

/-- A word that ends in a sigma is not found in a longer word that begins with it. -/
theorem not_finds_lastSigma : 1 ≤ (strip "ΟΔΟΣ").length ∧ (strip "ΟΔΟΣ").length ≤ 200 ∧
    strip "ΟΔΟΣ" <:+: ("ΟΔΟΣΗΜΑΝΣΗ" : Text) ∧
    ¬ ∃ found, (ofTitle "ΟΔΟΣΗΜΑΝΣΗ").Finds "ΟΔΟΣ" found ∧
      (ofTitle "ΟΔΟΣΗΜΑΝΣΗ").HasAll (strip "ΟΔΟΣ") found := by
  have hwithin : strip "ΟΔΟΣ" <:+: ("ΟΔΟΣΗΜΑΝΣΗ" : Text) := by decide
  exact ⟨by decide, by decide, hwithin,
    not_finds_ofTitle (by decide) hwithin (by decide +kernel)⟩

end Catalog

end StoryCatalog
