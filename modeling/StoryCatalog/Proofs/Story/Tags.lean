import Mathlib.Data.List.Basic
import StoryCatalog.Proofs.Story.Restoring

/-!
# Texts without repetitions

`dedupeTags` keeps of every text its first occurrence: the same texts are left
(`mem_dedupeTags`), in the order in which they first came (`pairwise_idxOf_dedupeTags`), and texts
that come in several batches may be freed of repetitions after each of them
(`dedupeTags_dedupeTags_append`).
-/

namespace StoryCatalog

variable {tags : List Text} {tag : Text}

private theorem dedupeTags_concat_eq (tags : List Text) (tag : Text) :
    dedupeTags (tags ++ [tag]) =
      if (dedupeTags tags).contains tag then dedupeTags tags else dedupeTags tags ++ [tag] :=
  List.foldl_concat ..

@[simp] theorem mem_dedupeTags : tag ∈ dedupeTags tags ↔ tag ∈ tags := by
  apply Iff.intro mem_of_mem_dedupeTags
  induction tags using List.reverseRecOn with
  | nil => exact id
  | append_singleton tags last ih =>
    intro hmem
    rw [dedupeTags_concat_eq]
    rcases List.mem_append.mp hmem with hold | hlast
    · split
      · exact ih hold
      · exact List.mem_append_left _ (ih hold)
    · rw [List.mem_singleton.mp hlast]
      split
      · next hcontains => exact List.contains_iff_mem.mp hcontains
      · exact List.mem_append_right _ (List.mem_singleton_self last)

/-- A text that comes last is left only if it is new. -/
theorem dedupeTags_concat (tags : List Text) (tag : Text) :
    dedupeTags (tags ++ [tag]) =
      if tag ∈ tags then dedupeTags tags else dedupeTags tags ++ [tag] := by
  rw [dedupeTags_concat_eq]
  by_cases hmem : tag ∈ tags <;> simp [hmem]

/-- Repetitions may be taken away before more texts come. -/
theorem dedupeTags_dedupeTags_append (tags more : List Text) :
    dedupeTags (dedupeTags tags ++ more) = dedupeTags (tags ++ more) := by
  induction more using List.reverseRecOn with
  | nil => rw [List.append_nil, List.append_nil, dedupeTags_of_nodup (nodup_dedupeTags tags)]
  | append_singleton more last ih =>
    rw [← List.append_assoc, ← List.append_assoc, dedupeTags_concat, dedupeTags_concat, ih]
    simp only [List.mem_append, mem_dedupeTags]

/-- The texts that are left stand in the order in which they first come. -/
theorem pairwise_idxOf_dedupeTags (tags : List Text) :
    (dedupeTags tags).Pairwise fun s t ↦ tags.idxOf s < tags.idxOf t := by
  induction tags using List.reverseRecOn with
  | nil => exact List.Pairwise.nil
  | append_singleton tags last ih =>
    have hold : (dedupeTags tags).Pairwise fun s t ↦
        (tags ++ [last]).idxOf s < (tags ++ [last]).idxOf t := by
      apply ih.imp_of_mem
      intro s t hs ht h
      rwa [List.idxOf_append_of_mem (mem_dedupeTags.mp hs),
        List.idxOf_append_of_mem (mem_dedupeTags.mp ht)]
    rw [dedupeTags_concat]
    split
    · exact hold
    · next hnew =>
      rw [List.pairwise_append]
      refine ⟨hold, List.pairwise_singleton _ _, ?_⟩
      intro s hs t ht
      rw [List.mem_singleton.mp ht, List.idxOf_append_of_mem (mem_dedupeTags.mp hs),
        List.idxOf_append_of_notMem hnew]
      have hlt : tags.idxOf s < tags.length := List.idxOf_lt_length_of_mem (mem_dedupeTags.mp hs)
      omega

/-- The keys of fields from a list are those of the list, each in the place where it first
comes. -/
theorem Fields.keys_ofList {β : Type} (pairs : List (Text × β)) :
    keys (ofList pairs) = dedupeTags (keys pairs) := by
  induction pairs using List.reverseRecOn with
  | nil => rfl
  | append_singleton pairs pair ih =>
    obtain ⟨key, value⟩ := pair
    have hput : ofList (pairs ++ [(key, value)]) = put (ofList pairs) key value :=
      List.foldl_concat ..
    rw [hput, keys_put, ih, keys_append, keys_cons, keys_nil, dedupeTags_concat]
    simp only [mem_dedupeTags]

end StoryCatalog
