import StoryCatalog.Catalog.Component
import StoryCatalog.Proofs.Story.Tags

/-!
# Grouping stories into components

`Catalog.addStory` puts one story into its component. What a listing of stories is like is kept with
every story (`IsListing.addStory`), so it holds of the listing of all of them
(`isListing_components`): a component has exactly the stories that `Catalog.component?` collects for
its identifier.
-/

namespace StoryCatalog

/-- A listed component shows those of the stories that have its identifier: all of them, their tags
without repetitions, and the texts of the first. -/
structure ListedComponent.Covers (stories : List StoryRecord) (c : ListedComponent) : Prop where
  stories_eq : c.stories = stories.filter (·.componentId == c.id)
  tags_eq : c.tags = dedupeTags (c.stories.flatMap (·.tags))
  first : ∃ first others, c.stories = first :: others ∧
    c.title = first.title ∧ c.kind = first.kind ∧ c.importPath = first.importPath

/-- The components of a listing have the identifiers of the stories, in the order in which they
first come, and show the stories with them. -/
structure IsListing (stories : List StoryRecord) (components : List ListedComponent) : Prop where
  ids_eq : components.map (·.id) = dedupeTags (stories.map (·.componentId))
  covers : ∀ c ∈ components, c.Covers stories

namespace ListedComponent

variable {stories : List StoryRecord} {r : StoryRecord} {c : ListedComponent}

@[simp] theorem id_add : (c.add r).id = c.id := rfl

@[simp] theorem stories_add : (c.add r).stories = c.stories ++ [r] := rfl

/-- A component goes on to show its stories when one of another component comes. -/
theorem Covers.of_ne (h : c.Covers stories) (hne : c.id ≠ r.componentId) :
    c.Covers (stories ++ [r]) := by
  refine ⟨?_, h.tags_eq, h.first⟩
  rw [List.filter_append, ← h.stories_eq]
  simp [hne.symm]

/-- A component shows one more story when that is added. -/
theorem Covers.add (h : c.Covers stories) (hid : c.id = r.componentId) :
    (c.add r).Covers (stories ++ [r]) := by
  constructor
  · rw [id_add, stories_add, List.filter_append, ← h.stories_eq]
    simp [hid]
  · have htags : (c.add r).tags = dedupeTags (c.tags ++ r.tags) := rfl
    rw [htags, h.tags_eq, dedupeTags_dedupeTags_append, stories_add, List.flatMap_append]
    simp
  · obtain ⟨first, others, hstories, htexts⟩ := h.first
    refine ⟨first, others ++ [r], ?_, htexts⟩
    rw [stories_add, hstories, List.cons_append]

/-- A component shows its first story. -/
theorem covers_ofFirst (hnew : r.componentId ∉ stories.map (·.componentId)) :
    ((ofFirst r).add r).Covers (stories ++ [r]) := by
  have hnone : stories.filter (·.componentId == r.componentId) = [] := by
    rw [List.filter_eq_nil_iff]
    intro s hs hid
    exact hnew (List.mem_map.mpr ⟨s, hs, eq_of_beq hid⟩)
  constructor
  · rw [id_add, stories_add, List.filter_append]
    simp [ofFirst, hnone]
  · simp [add, ofFirst]
  · exact ⟨r, [], rfl, rfl, rfl, rfl⟩

end ListedComponent

namespace Catalog

open ListedComponent

variable {stories : List StoryRecord} {components : List ListedComponent} {r : StoryRecord}
  {listed : ListedComponent}

/-! ### One story -/

/-- The identifier of a story's component is added if it is new. -/
theorem ids_addStory (components : List ListedComponent) (r : StoryRecord) :
    (addStory components r).map (·.id) =
      if r.componentId ∈ components.map (·.id) then components.map (·.id)
      else components.map (·.id) ++ [r.componentId] := by
  induction components with
  | nil => rfl
  | cons c rest ih =>
    by_cases hid : c.id = r.componentId
    · simp [addStory, hid]
    · have hne : r.componentId ≠ c.id := Ne.symm hid
      simp only [addStory, hid, if_false, List.map_cons, List.mem_cons, hne, false_or, ih]
      split <;> rfl

/-- A component after a story has come: one of another identifier, the one that the story was added
to, or a new one. -/
theorem mem_addStory (hnodup : (components.map (·.id)).Nodup)
    (h : listed ∈ addStory components r) :
    (listed ∈ components ∧ listed.id ≠ r.componentId) ∨
      (∃ old ∈ components, old.id = r.componentId ∧ listed = old.add r) ∨
      (r.componentId ∉ components.map (·.id) ∧ listed = (ofFirst r).add r) := by
  induction components with
  | nil => exact .inr (.inr ⟨List.not_mem_nil, List.mem_singleton.mp h⟩)
  | cons c rest ih =>
    obtain ⟨hc, hrest⟩ := List.nodup_cons.mp hnodup
    rw [addStory] at h
    split at h
    · next hid =>
      rcases List.mem_cons.mp h with rfl | hmem
      · exact .inr (.inl ⟨c, List.mem_cons_self, hid, rfl⟩)
      · have hne : listed.id ≠ r.componentId := by
          rw [← hid]
          rintro heq
          exact hc (List.mem_map.mpr ⟨listed, hmem, heq⟩)
        exact .inl ⟨List.mem_cons_of_mem _ hmem, hne⟩
    · next hid =>
      rcases List.mem_cons.mp h with rfl | hmem
      · exact .inl ⟨List.mem_cons_self, hid⟩
      · rcases ih hrest hmem with ⟨hold, hne⟩ | ⟨old, hold, heq⟩ | ⟨hnew, heq⟩
        · exact .inl ⟨List.mem_cons_of_mem _ hold, hne⟩
        · exact .inr (.inl ⟨old, List.mem_cons_of_mem _ hold, heq⟩)
        · refine .inr (.inr ⟨?_, heq⟩)
          rw [List.map_cons, List.mem_cons, not_or]
          exact ⟨Ne.symm hid, hnew⟩

/-- Every story is shown once, the new one too. -/
theorem perm_addStory (components : List ListedComponent) (r : StoryRecord) :
    ((addStory components r).flatMap (·.stories)).Perm
      (components.flatMap (·.stories) ++ [r]) := by
  induction components with
  | nil => exact .refl _
  | cons c rest ih =>
    rw [addStory, List.flatMap_cons, List.append_assoc]
    split
    · rw [List.flatMap_cons, stories_add, List.append_assoc]
      exact List.perm_append_comm.append_left c.stories
    · rw [List.flatMap_cons]
      exact ih.append_left c.stories

/-- With one more story, a listing of stories is one of all of them. -/
theorem isListing_addStory (h : IsListing stories components) (r : StoryRecord) :
    IsListing (stories ++ [r]) (addStory components r) := by
  have hmem : r.componentId ∈ components.map (·.id) ↔
      r.componentId ∈ stories.map (·.componentId) := by
    rw [h.ids_eq, mem_dedupeTags]
  constructor
  · rw [ids_addStory, List.map_append, List.map_singleton, dedupeTags_concat, ← h.ids_eq]
    simp only [hmem]
  · intro listed hlisted
    have hnodup : (components.map (·.id)).Nodup := by
      rw [h.ids_eq]
      exact nodup_dedupeTags _
    rcases mem_addStory hnodup hlisted with ⟨hold, hne⟩ | ⟨old, hold, hid, rfl⟩ | ⟨hnew, rfl⟩
    · exact (h.covers listed hold).of_ne hne
    · exact (h.covers old hold).add hid
    · exact covers_ofFirst (mt hmem.mpr hnew)

/-! ### All stories -/

/-- The components of stories that come one after another. -/
theorem isListing_foldl (stories : List StoryRecord) :
    IsListing stories (stories.foldl addStory []) := by
  induction stories using List.reverseRecOn with
  | nil => exact ⟨rfl, by simp⟩
  | append_singleton stories r ih =>
    rw [List.foldl_concat]
    exact isListing_addStory ih r

theorem isListing_components (c : Catalog) : IsListing c.records c.components :=
  isListing_foldl c.records

/-- The components of a catalog show every story of it once. -/
theorem perm_flatMap_stories (c : Catalog) :
    (c.components.flatMap (·.stories)).Perm c.records := by
  rw [components]
  induction c.records using List.reverseRecOn with
  | nil => exact .refl _
  | append_singleton stories r ih =>
    rw [List.foldl_concat]
    exact (perm_addStory _ r).trans (ih.append_right [r])

/-! ### One component -/

variable {c : Catalog} {comp : Component} {id : Text}

/-- The component with an identifier has the stories with it, of which there are some. -/
theorem component?_eq_some_iff :
    c.component? id = some comp ↔ comp.id = id ∧ comp.stories = c.storiesOf id := by
  unfold component? Component.stories
  cases hstories : c.storiesOf id with
  | nil => simp
  | cons first others =>
    cases comp
    simp [eq_comm]

/-- There is a component with an identifier exactly if some story has it. -/
theorem isSome_component?_iff :
    (c.component? id).isSome = true ↔ ∃ listed ∈ c.components, listed.id = id := by
  have hids : (∃ listed ∈ c.components, listed.id = id) ↔ ∃ r ∈ c.records, r.componentId = id := by
    rw [← List.mem_map (f := fun c : ListedComponent ↦ c.id), (isListing_components c).ids_eq,
      mem_dedupeTags, List.mem_map]
  rw [hids, component?]
  cases hstories : c.storiesOf id with
  | nil =>
    apply iff_of_false (by simp)
    rintro ⟨r, hr, hid⟩
    have hmem : r ∈ c.storiesOf id := List.mem_filter.mpr ⟨hr, beq_iff_eq.mpr hid⟩
    rw [hstories] at hmem
    cases hmem
  | cons first others =>
    apply iff_of_true rfl
    have hmem : first ∈ c.storiesOf id := by
      rw [hstories]
      exact List.mem_cons_self
    obtain ⟨hr, hid⟩ := List.mem_filter.mp hmem
    exact ⟨first, hr, eq_of_beq hid⟩

/-- The listing and the component with an identifier have the same stories. -/
theorem stories_eq_of_component? (hlisted : listed ∈ c.components)
    (h : c.component? listed.id = some comp) : comp.stories = listed.stories := by
  have hcovers := (isListing_components c).covers listed hlisted
  exact (component?_eq_some_iff.mp h).2.trans hcovers.stories_eq.symm

end Catalog

end StoryCatalog
