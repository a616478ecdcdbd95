import StoryCatalog.Catalog.Search
import StoryCatalog.Proofs.Catalog.Components
import StoryCatalog.Proofs.Timestamp.RoundTrip
import StoryCatalog.Proofs.Story.Tags
import StoryCatalog.Proofs.Text.Case

/-!
# What filters keep

A criterion is taken without the white space at its ends, and one without other text keeps every
story. The statistics list titles and tags as they are: a listed title that is asked for keeps the
stories with it, a listed tag those that have it without that white space. Criteria that are given
together keep what each of them keeps (`Catalog.filter_of_listed`).
-/

namespace StoryCatalog.Catalog

open Text (strip lower)

variable {c : Catalog} {t : Text} {r : StoryRecord}

/-! ### Single criteria -/

namespace Filter

variable {holds : Text → Bool}

/-- A criterion is met by what has the property that it asks for, or if it is blank. -/
theorem meets_some : meets (some t) holds = true ↔ strip t = [] ∨ holds (strip t) = true := by
  by_cases hblank : strip t = []
  · simp [meets, asked?, hblank]
  · simp [meets, asked?, hblank]

/-- No criterion is always met. -/
theorem meets_none : meets none holds = true := rfl

theorem accepts_title :
    accepts { title := some t } r = true ↔ strip t = [] ∨ lower (strip t) <:+: lower r.title := by
  simp [accepts, meets_some, meets_none, StoryRecord.holdsFolded, Text.holds_iff]

theorem accepts_tag : accepts { tag := some t } r = true ↔ strip t = [] ∨ strip t ∈ r.tags := by
  simp [accepts, meets_some, meets_none]

/-- A story meets all criteria if it meets each. -/
theorem accepts_iff {f : Filter} : f.accepts r = true ↔
    accepts { title := f.title } r = true ∧ accepts { tag := f.tag } r = true ∧
      accepts { kind := f.kind } r = true := by
  simp [accepts, meets_none, and_assoc]

end Filter

/-- What is kept are the stories that meet all criteria. -/
theorem mem_filter {f : Filter} : r ∈ c.filter f ↔ r ∈ c.records ∧ f.accepts r = true :=
  List.mem_filter

/-! ### Listed tags -/

private theorem mem_items_textArray {texts : List Text} :
    .string t ∈ (StoryRecord.textArray texts).items ↔ t ∈ texts := by
  simp [StoryRecord.textArray, Json.items]

theorem mem_tags : .string t ∈ (c.stats.field "tags").items ↔ ∃ r ∈ c.records, t ∈ r.tags := by
  have hfield : c.stats.field "tags" = StoryRecord.textArray c.tags := rfl
  rw [hfield, mem_items_textArray, tags, mem_dedupeTags, List.mem_flatMap]

/-- The stories that have a tag. -/
def withTag (c : Catalog) (tag : Text) : List StoryRecord :=
  c.records.filter (·.tags.contains tag)

/-- Filtering by a tag keeps the stories with it, white space at its ends apart, and all stories if
nothing else is left of it. -/
theorem filter_tag (c : Catalog) (t : Text) : c.filter { tag := some t } =
    if strip t = [] then c.records else c.withTag (strip t) := by
  split
  · next hblank => exact List.filter_eq_self.mpr fun r _ ↦ Filter.accepts_tag.mpr (.inl hblank)
  · next htext =>
    refine List.filter_congr fun r _ ↦ Bool.eq_iff_iff.mpr ?_
    rw [Filter.accepts_tag, or_iff_right htext, List.contains_iff_mem]

open Classical in
/-- The filters keep, in the order of the catalog: by a listed tag the stories with it, where it has
no white space at its ends, and otherwise those with what is left without it, all stories if that is
nothing; by a listed title that is not blank at least the stories with that title; by several
criteria the stories that each of these keeps. -/
theorem filter_of_listed (c : Catalog) :
    (∀ t, .string t ∈ (c.stats.field "tags").items →
      (t ≠ [] → strip t = t → c.filter { tag := some t } = c.withTag t) ∧
      c.filter { tag := some t } = if strip t = [] then c.records else c.withTag (strip t)) ∧
    (∀ u, .string u ∈ (c.stats.field "storyTitles").items → strip u ≠ [] →
      ∀ r ∈ c.records, r.title = u → r ∈ c.filter { title := some u }) ∧
    ∀ f : Filter, c.filter f = c.records.filter fun r ↦
      r ∈ c.filter { title := f.title } ∧ r ∈ c.filter { tag := f.tag } ∧
        r ∈ c.filter { kind := f.kind } := by
  refine ⟨fun t _ ↦ ⟨fun hne hstrip ↦ ?_, filter_tag c t⟩, fun u _ _ r hr htitle ↦ ?_, fun f ↦ ?_⟩
  · rw [filter_tag, hstrip, if_neg hne]
  · subst htitle
    exact mem_filter.mpr ⟨hr, Filter.accepts_title.mpr (.inr (Text.lower_strip_infix r.title))⟩
  · refine List.filter_congr fun r hr ↦ Bool.eq_iff_iff.mpr ?_
    simp only [mem_filter, hr, true_and, decide_eq_true_iff]
    exact Filter.accepts_iff

/-- A catalog of two stories, of which only the first has tags. -/
def ofTags (tags : List Text) : Catalog where
  extractedFrom := .unknown
  stories := .ofList [("a--b", { id := "a--b", title := "A", name := "B", tags }),
    ("a--c", { id := "a--c", title := "A", name := "C" })]
  generatedAt := .secondOfJanuary

/-- A blank tag that is listed keeps also the story without it, and one with white space at its ends
not even the story with it. -/
theorem not_filter_listed_blank :
    .string "  " ∈ ((ofTags ["  ", " beta "]).stats.field "tags").items ∧
    (ofTags ["  ", " beta "]).filter { tag := some "  " } ≠
      (ofTags ["  ", " beta "]).withTag "  " ∧
    .string " beta " ∈ ((ofTags ["  ", " beta "]).stats.field "tags").items ∧
    (ofTags ["  ", " beta "]).filter { tag := some " beta " } ≠
      (ofTags ["  ", " beta "]).withTag " beta " := by
  have hlisted : ∀ t ∈ (["  ", " beta "] : List Text),
      .string t ∈ ((ofTags ["  ", " beta "]).stats.field "tags").items :=
    fun t ht ↦ mem_tags.mpr ⟨_, List.mem_cons_self, ht⟩
  have hcounts : ∀ t ∈ (["  ", " beta "] : List Text),
      ((ofTags ["  ", " beta "]).filter { tag := some t }).length ≠
        ((ofTags ["  ", " beta "]).withTag t).length := by decide
  exact ⟨hlisted _ (by simp), fun h ↦ hcounts _ (by simp) (congrArg List.length h),
    hlisted _ (by simp), fun h ↦ hcounts _ (by simp) (congrArg List.length h)⟩

end StoryCatalog.Catalog
