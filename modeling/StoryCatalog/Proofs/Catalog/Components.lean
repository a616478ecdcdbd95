import Mathlib.Data.List.Forall2
import StoryCatalog.Catalog.Search
import StoryCatalog.Proofs.Catalog.Grouping
import StoryCatalog.Proofs.Json.Printing

/-!
# Views of components

What a listing says about a component, and what its detail, its documentation and its examples say,
is all about the same stories (`Catalog.components_agree`).
-/

namespace StoryCatalog

/-! ### Values of the last story -/

namespace Fields

variable {β : Type} {fields : Fields β}

/-- Of fields that are merged one after another, the last with a key count. -/
theorem get?_foldl_merge {α : Type} (fieldsOf : α → Fields β) (items : List α) (key : Text) :
    get? (items.foldl (fun fields item ↦ fields.merge (fieldsOf item)) []) key =
      items.reverse.findSome? fun item ↦ (ofList (fieldsOf item)).get? key := by
  induction items using List.reverseRecOn with
  | nil => rfl
  | append_singleton items item ih =>
    rw [List.foldl_concat, get?_merge, ih, List.reverse_append, List.reverse_singleton,
      List.singleton_append, List.findSome?_cons]
    cases (ofList (fieldsOf item)).get? key <;> rfl

end Fields

/-! ### Snippets -/

section

variable {ε α β : Type} {f : α → Except ε β} {items : List α}

/-- What a reader gives for a list is what it gives for the items. -/
theorem forall₂_of_mapM {results : List β} (h : items.mapM f = .ok results) :
    List.Forall₂ (fun item result ↦ f item = .ok result) items results := by
  induction items generalizing results with
  | nil =>
    cases h
    exact .nil
  | cons item rest ih =>
    rw [List.mapM_cons] at h
    cases hitem : f item with
    | error e => rw [hitem] at h; cases h
    | ok result =>
      cases hrest : rest.mapM f with
      | error e => rw [hitem, hrest] at h; cases h
      | ok more =>
        rw [hitem, hrest] at h
        cases h
        exact .cons hitem (ih hrest)

theorem mapM_ok_iff :
    (∃ results, items.mapM f = .ok results) ↔ ∀ item ∈ items, ∃ result, f item = .ok result := by
  induction items with
  | nil => exact iff_of_true ⟨[], rfl⟩ (by simp)
  | cons item rest ih =>
    rw [List.forall_mem_cons, ← ih, List.mapM_cons]
    cases f item with
    | error e => simp [bind, Except.bind]
    | ok result =>
      cases rest.mapM f with
      | error e => simp [bind, Except.bind]
      | ok more => simp [bind, Except.bind, pure, Except.pure]

end

namespace StoryRecord

/-- An argument has an attribute exactly if its integers can be written. -/
theorem usageProp_ok_iff {key : Text} {value : Json} :
    (∃ t, usageProp key value = .ok t) ↔ value.FitsLimit := by
  have hprint : (∃ t, (do return bracedProp key (← Json.print .compact value) :
      Except TooManyDigits Text) = .ok t) ↔ value.FitsLimit := by
    rw [← @Json.print_ok_iff .compact]
    cases Json.print .compact value <;> simp [bind, Except.bind, pure, Except.pure]
  cases value with
  | null => exact hprint
  | array items => exact hprint
  | object fields => exact hprint
  | string t => exact iff_of_true ⟨_, rfl⟩ Json.fitsLimit_string
  | bool b => exact iff_of_true ⟨_, rfl⟩ (Json.everywhere_bool.mpr trivial)
  | number n =>
    rw [Json.FitsLimit, Json.everywhere_number]
    cases n with
    | int n =>
      by_cases h : Number.fitsLimit n = true <;>
        simp [usageProp, usageNumber, Json.FitsPart, h, bind, Except.bind, pure, Except.pure]
    | float x => exact iff_of_true ⟨_, rfl⟩ trivial

/-- A story has a snippet exactly if the integers among its arguments can be written. -/
theorem usage_ok_iff {r : StoryRecord} :
    (∃ t, r.usage = .ok t) ↔ (Json.object r.args).FitsLimit := by
  have hprops : (∃ t, r.usage = .ok t) ↔
      ∃ props, (r.args.mapM fun field ↦ usageProp field.1 field.2) = .ok props := by
    rw [usage]
    cases r.args.mapM fun field ↦ usageProp field.1 field.2 <;>
      simp [bind, Except.bind, pure, Except.pure]
  rw [hprops, mapM_ok_iff, Json.fitsLimit_object]
  exact forall₂_congr fun field _ ↦ usageProp_ok_iff

end StoryRecord

/-! ### Views -/

/-- The items of an array, none of other values. -/
def Json.items : Json → List Json
  | .array items => items
  | _ => []

/-- The stories that a view lists, each by its identifier, its name and its name of old. -/
def storiesIn (view : Json) : List (Json × Json × Json) :=
  (view.field "stories").items.map fun item ↦
    (item.field "id", item.field "name", item.field "story")

theorem storiesIn_summary (listed : ListedComponent) :
    storiesIn listed.summary =
      listed.stories.map fun s ↦ (.string s.id, .string s.name, .string s.story) := by
  change (listed.stories.map StoryRecord.listItem).map _ = _
  rw [List.map_map]
  rfl

theorem storiesIn_detail (comp : Component) :
    storiesIn comp.detail =
      comp.stories.map fun s ↦ (.string s.id, .string s.name, .string s.story) := by
  change (comp.stories.map StoryRecord.detailItem).map _ = _
  rw [List.map_map]
  rfl

/-- An item of a view is about a story. -/
structure StoryRecord.IsIn (s : StoryRecord) (item : Json) : Prop where
  name : item.field "name" = .string s.name
  args : item.field "args" = .object s.args
  argTypes : item.field "argTypes" = .object s.argTypes

theorem StoryRecord.isIn_docsItem (s : StoryRecord) : s.IsIn s.docsItem := ⟨rfl, rfl, rfl⟩

theorem StoryRecord.exampleItem_ok_iff {s : StoryRecord} :
    (∃ item, s.exampleItem = .ok item) ↔ (Json.object s.args).FitsLimit := by
  rw [← usage_ok_iff, exampleItem]
  cases s.usage <;> simp [bind, Except.bind, pure, Except.pure]

theorem StoryRecord.isIn_of_exampleItem {s : StoryRecord} {item : Json}
    (h : s.exampleItem = .ok item) : s.IsIn item := by
  rw [exampleItem] at h
  cases husage : s.usage with
  | error e => rw [husage] at h; cases h
  | ok usage =>
    rw [husage] at h
    cases h
    exact ⟨rfl, rfl, rfl⟩

namespace Component

variable {comp : Component} {view : Json}

/-- The documentation is about the stories of the component. -/
theorem forall₂_documentation (comp : Component) :
    List.Forall₂ StoryRecord.IsIn comp.stories (comp.documentation.field "stories").items := by
  have hitems : (comp.documentation.field "stories").items =
      comp.stories.map StoryRecord.docsItem := rfl
  rw [hitems, List.forall₂_map_right_iff, List.forall₂_same]
  intro s _
  exact s.isIn_docsItem

/-- There are examples exactly if the integers among the arguments can be written. -/
theorem examples_ok_iff :
    (∃ view, comp.examples = .ok view) ↔ ∀ s ∈ comp.stories, (Json.object s.args).FitsLimit := by
  have hitems : (∃ view, comp.examples = .ok view) ↔
      ∃ items, comp.stories.mapM StoryRecord.exampleItem = .ok items := by
    rw [examples]
    cases comp.stories.mapM StoryRecord.exampleItem <;> simp [bind, Except.bind, pure, Except.pure]
  rw [hitems, mapM_ok_iff]
  exact forall₂_congr fun s _ ↦ StoryRecord.exampleItem_ok_iff

/-- The examples are about the stories of the component. -/
theorem forall₂_examples (h : comp.examples = .ok view) :
    List.Forall₂ StoryRecord.IsIn comp.stories (view.field "examples").items := by
  rw [examples] at h
  cases hitems : comp.stories.mapM StoryRecord.exampleItem with
  | error e => rw [hitems] at h; cases h
  | ok items =>
    rw [hitems] at h
    cases h
    exact (forall₂_of_mapM hitems).imp fun s item ↦ StoryRecord.isIn_of_exampleItem

end Component

/-! ### Listing and components -/

/-- The views of a component say of its stories what the listing says. -/
structure ListedComponent.IsViewedBy (listed : ListedComponent) (comp : Component) : Prop where
  detail_field : ∀ key ∈ (["id", "name", "title", "kind", "importPath", "tags", "storyCount"] :
    List Text), comp.detail.field key = listed.summary.field key
  detail_stories : storiesIn comp.detail = storiesIn listed.summary
  documentation : List.Forall₂ StoryRecord.IsIn listed.stories
    (comp.documentation.field "stories").items
  /-- Only an integer that is too long to be written keeps the examples away. -/
  examples_ok : (∃ view, comp.examples = .ok view) ↔
    ∀ s ∈ listed.stories, (Json.object s.args).FitsLimit
  examples : ∀ view, comp.examples = .ok view →
    List.Forall₂ StoryRecord.IsIn listed.stories (view.field "examples").items
  /-- Of the stories with an argument the last one counts. -/
  args : ∀ key, (comp.detail.field "args").fields.get? key =
    listed.stories.reverse.findSome? fun s ↦ (Fields.ofList s.args).get? key
  argTypes : ∀ key, (comp.detail.field "argTypes").fields.get? key =
    listed.stories.reverse.findSome? fun s ↦ (Fields.ofList s.argTypes).get? key

namespace Catalog

variable {c : Catalog} {listed : ListedComponent} {comp : Component}

theorem isViewedBy (hlisted : listed ∈ c.components) (h : c.component? listed.id = some comp) :
    listed.IsViewedBy comp := by
  have hcovers := (isListing_components c).covers listed hlisted
  have hid : comp.id = listed.id := (component?_eq_some_iff.mp h).1
  have hstories : comp.stories = listed.stories := stories_eq_of_component? hlisted h
  obtain ⟨first, others, hfirst, htitle, hkind, himport⟩ := hcovers.first
  have hcomp : comp.first = first := (List.cons.inj (hstories.trans hfirst)).1
  rw [← hcomp] at htitle hkind himport
  have htags : comp.tags = listed.tags := by
    rw [Component.tags, hstories, hcovers.tags_eq]
  constructor
  · intro key hkey
    simp only [List.mem_cons, List.not_mem_nil, or_false] at hkey
    rcases hkey with rfl | rfl | rfl | rfl | rfl | rfl | rfl
    · exact congrArg Json.string hid
    · exact congrArg Json.string htitle.symm
    · exact congrArg Json.string htitle.symm
    · exact congrArg Json.string hkind.symm
    · exact congrArg Json.string himport.symm
    · exact congrArg StoryRecord.textArray htags
    · exact congrArg (fun stories : List StoryRecord ↦ Json.nat stories.length) hstories
  · rw [storiesIn_detail, storiesIn_summary, hstories]
  · rw [← hstories]
    exact comp.forall₂_documentation
  · rw [← hstories]
    exact Component.examples_ok_iff
  · intro view hview
    rw [← hstories]
    exact Component.forall₂_examples hview
  · intro key
    rw [← hstories]
    exact Fields.get?_foldl_merge (·.args) comp.stories key
  · intro key
    rw [← hstories]
    exact Fields.get?_foldl_merge (·.argTypes) comp.stories key

/-- A listing parts stories into components: their identifiers are different and stand in the order
of the first stories, every story is in one component, and a component has its stories in their
order. -/
structure IsPartition (stories : List StoryRecord) (components : List ListedComponent) : Prop where
  nodup_ids : (components.map (·.id)).Nodup
  pairwise_ids : (components.map (·.id)).Pairwise fun id id' ↦
    (stories.map (·.componentId)).idxOf id < (stories.map (·.componentId)).idxOf id'
  existsUnique : ∀ s ∈ stories, ∃! listed, listed ∈ components ∧ s ∈ listed.stories
  perm : (components.flatMap (·.stories)).Perm stories
  stories_eq : ∀ listed ∈ components,
    listed.stories ≠ [] ∧ listed.stories = stories.filter (·.componentId == listed.id)

theorem isPartition_components (c : Catalog) : IsPartition c.records c.components := by
  have hlisting := isListing_components c
  have hnodup : (c.components.map (·.id)).Nodup := by
    rw [hlisting.ids_eq]
    exact nodup_dedupeTags _
  have hmem : ∀ listed ∈ c.components, ∀ s,
      s ∈ listed.stories ↔ s ∈ c.records ∧ s.componentId = listed.id := by
    intro listed hlisted s
    rw [(hlisting.covers listed hlisted).stories_eq, List.mem_filter, beq_iff_eq]
  constructor
  · exact hnodup
  · rw [hlisting.ids_eq]
    exact pairwise_idxOf_dedupeTags _
  · intro s hs
    have hid : s.componentId ∈ c.components.map (·.id) := by
      rw [hlisting.ids_eq, mem_dedupeTags]
      exact List.mem_map.mpr ⟨s, hs, rfl⟩
    obtain ⟨listed, hlisted, heq⟩ := List.mem_map.mp hid
    refine ⟨listed, ⟨hlisted, (hmem listed hlisted s).mpr ⟨hs, heq.symm⟩⟩, ?_⟩
    rintro other ⟨hother, hshown⟩
    have hsame : other.id = listed.id := ((hmem other hother s).mp hshown).2.symm.trans heq.symm
    exact List.inj_on_of_nodup_map hnodup hother hlisted hsame
  · exact perm_flatMap_stories c
  · intro listed hlisted
    obtain ⟨first, others, hfirst, -⟩ := (hlisting.covers listed hlisted).first
    refine ⟨?_, (hlisting.covers listed hlisted).stories_eq⟩
    rw [hfirst]
    exact List.cons_ne_nil _ _

/-- The components of a catalog, as they are listed and as they are looked up by their identifiers,
agree: the listing parts the stories, its counts sum up to all of them, the statistics count the
components; a component is found exactly for the identifiers that are listed, and its views say of
its stories what the listing says. -/
theorem components_agree (c : Catalog) :
    IsPartition c.records c.components ∧
      (c.components.map (·.stories.length)).sum = c.size ∧
      (∀ listed ∈ c.components, listed.summary.field "id" = .string listed.id ∧
        listed.summary.field "storyCount" = .nat listed.stories.length) ∧
      c.stats.field "totalStories" = .nat c.size ∧
      c.stats.field "totalComponents" = .nat c.components.length ∧
      (∀ id, (c.component? id).isSome = true ↔ ∃ listed ∈ c.components, listed.id = id) ∧
      ∀ listed ∈ c.components, ∀ comp, c.component? listed.id = some comp →
        listed.IsViewedBy comp := by
  have hsize : c.records.length = c.size := List.length_map _
  refine ⟨isPartition_components c, ?_, fun _ _ ↦ ⟨rfl, rfl⟩, rfl, ?_,
    fun _ ↦ isSome_component?_iff, fun _ hlisted _ ↦ isViewedBy hlisted⟩
  · rw [← hsize, ← (perm_flatMap_stories c).length_eq, List.length_flatMap]
  · have hcount : c.components.length = (dedupeTags (c.records.map (·.componentId))).length := by
      rw [← (isListing_components c).ids_eq, List.length_map]
    rw [hcount]
    rfl

end Catalog

end StoryCatalog
