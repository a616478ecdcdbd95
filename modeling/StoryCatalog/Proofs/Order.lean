import Mathlib.Data.List.Lex
import StoryCatalog.Path

/-!
# The order of texts and of paths

Texts are ordered as lists of code points and paths as lists of texts. Both orders are strict and
total, so a list of paths below one directory has only one sorted form (`Path.sorted_eq_of_perm`).
-/

namespace StoryCatalog

/-- Lists are totally ordered as their items are. -/
private theorem isStrictTotalOrder_lex {α : Type} {r : α → α → Prop} [IsStrictTotalOrder α r] :
    IsStrictTotalOrder (List α) (List.Lex r) :=
  { isStrictWeakOrder_of_isOrderConnected with }

/-! ### Texts -/

private instance isStrictTotalOrder_codePoint :
    IsStrictTotalOrder CodePoint fun c d ↦ c.val < d.val where
  trichotomous c d h h' := CodePoint.ext (by omega)
  irrefl c := Nat.lt_irrefl c.val
  trans _ _ _ := Nat.lt_trans

theorem Text.isBefore_iff_lex {s t : Text} :
    Text.isBefore s t = true ↔ List.Lex (fun c d : CodePoint ↦ c.val < d.val) s t := by
  induction s generalizing t with
  | nil => cases t <;> simp [Text.isBefore]
  | cons c s ih =>
    cases t with
    | nil => simp [Text.isBefore]
    | cons d t =>
      have hval : c.val = d.val ↔ c = d := ⟨CodePoint.ext, congrArg CodePoint.val⟩
      simp [Text.isBefore, List.cons_lex_cons_iff, hval, ih]

private instance isStrictTotalOrder_text :
    IsStrictTotalOrder Text fun s t ↦ Text.isBefore s t = true := by
  have heq : (fun s t ↦ Text.isBefore s t = true) =
      List.Lex fun c d : CodePoint ↦ c.val < d.val := by
    funext s t
    exact propext Text.isBefore_iff_lex
  rw [heq]
  exact isStrictTotalOrder_lex

/-! ### Paths -/

namespace Path

variable {p q r : Path}

theorem ext (hroot : p.root = q.root) (hnames : p.names = q.names) : p = q := by
  cases p
  cases q
  simp_all

theorem isBefore_iff_lex :
    p.isBefore q = true ↔ List.Lex (fun s t ↦ Text.isBefore s t = true) p.names q.names := by
  have hgo : ∀ names names' : List Text, isBefore.go names names' = true ↔
      List.Lex (fun s t ↦ Text.isBefore s t = true) names names' := by
    intro names
    induction names with
    | nil =>
      intro names'
      cases names' <;> simp [isBefore.go]
    | cons name rest ih =>
      intro names'
      cases names' with
      | nil => simp [isBefore.go]
      | cons name' rest' => simp [isBefore.go, List.cons_lex_cons_iff, ih]
  exact hgo p.names q.names

@[simp] theorem isBefore_irrefl (p : Path) : p.isBefore p = false := by
  rw [Bool.eq_false_iff, ne_eq, isBefore_iff_lex]
  exact isStrictTotalOrder_lex.irrefl p.names

theorem isBefore_trans (h : p.isBefore q = true) (h' : q.isBefore r = true) :
    p.isBefore r = true := by
  rw [isBefore_iff_lex] at h h' ⊢
  exact isStrictTotalOrder_lex.trans _ _ _ h h'

theorem isBefore_asymm (h : p.isBefore q = true) : q.isBefore p = false := by
  rw [Bool.eq_false_iff]
  intro h'
  have hself : p.isBefore p = true := isBefore_trans h h'
  rw [isBefore_irrefl] at hself
  cases hself

/-- Of two paths with different names one comes before the other. -/
theorem names_eq_of_not_isBefore (h : p.isBefore q = false) (h' : q.isBefore p = false) :
    p.names = q.names := by
  rw [Bool.eq_false_iff, ne_eq, isBefore_iff_lex] at h h'
  exact isStrictTotalOrder_lex.trichotomous _ _ h h'

/-! ### Sorting -/

/-- A path that does not come after a second one, which does not come after a third, does not come
after the third. -/
theorem not_isBefore_trans (h : q.isBefore p = false) (h' : r.isBefore q = false) :
    r.isBefore p = false := by
  rw [Bool.eq_false_iff]
  intro hrp
  by_cases hqr : q.isBefore r = true
  · have hqp : q.isBefore p = true := isBefore_trans hqr hrp
    rw [h] at hqp
    cases hqp
  · have hnames : q.names = r.names := names_eq_of_not_isBefore (Bool.eq_false_iff.mpr hqr) h'
    have hqp : q.isBefore p = true := by
      rw [isBefore_iff_lex, hnames, ← isBefore_iff_lex]
      exact hrp
    rw [h] at hqp
    cases hqp

/-- The paths in their order. -/
def sorted (paths : List Path) : List Path := paths.mergeSort fun p q ↦ !q.isBefore p

variable {paths paths' : List Path}

@[simp] theorem mem_sorted : p ∈ sorted paths ↔ p ∈ paths := List.mem_mergeSort

theorem pairwise_sorted (paths : List Path) :
    (sorted paths).Pairwise fun p q ↦ q.isBefore p = false := by
  have htrans : ∀ p q r : Path, (!q.isBefore p) = true → (!r.isBefore q) = true →
      (!r.isBefore p) = true := by
    intro p q r h h'
    rw [Bool.not_eq_true'] at h h' ⊢
    exact not_isBefore_trans h h'
  have htotal : ∀ p q : Path, ((!q.isBefore p) || !p.isBefore q) = true := by
    intro p q
    by_cases h : q.isBefore p = true
    · simp [isBefore_asymm h]
    · simp [h]
  apply (List.pairwise_mergeSort htrans htotal paths).imp
  intro p q h
  simpa using h

theorem sorted_of_pairwise (h : paths.Pairwise fun p q ↦ q.isBefore p = false) :
    sorted paths = paths := by
  apply List.mergeSort_of_pairwise
  apply h.imp
  intro p q hqp
  rw [hqp]
  rfl

/-- Paths under one root have only one sorted form. -/
theorem sorted_eq_of_perm (root : Text) (hperm : paths.Perm paths')
    (hroot : ∀ p ∈ paths, p.root = root) : sorted paths = sorted paths' := by
  have hsorted : (sorted paths).Perm (sorted paths') :=
    (List.mergeSort_perm _ _).trans (hperm.trans (List.mergeSort_perm _ _).symm)
  apply hsorted.eq_of_pairwise _ (pairwise_sorted paths) (pairwise_sorted paths')
  intro p q hp hq hqp hpq
  have hroots : p.root = q.root := by
    rw [hroot p (mem_sorted.mp hp), hroot q (hperm.mem_iff.mpr (mem_sorted.mp hq))]
  exact ext hroots (names_eq_of_not_isBefore hpq hqp)

/-- Different paths under one root come strictly one after another. -/
theorem pairwise_isBefore_sorted (root : Text) (hnodup : paths.Nodup)
    (hroot : ∀ p ∈ paths, p.root = root) :
    (sorted paths).Pairwise fun p q ↦ p.isBefore q = true := by
  have hdistinct : (sorted paths).Nodup := (List.mergeSort_perm _ _).nodup_iff.mpr hnodup
  apply ((pairwise_sorted paths).and hdistinct).imp_of_mem
  rintro p q hp hq ⟨hqp, hne⟩
  by_contra hpq
  have hroots : p.root = q.root := by
    rw [hroot p (mem_sorted.mp hp), hroot q (mem_sorted.mp hq)]
  exact hne (ext hroots (names_eq_of_not_isBefore (Bool.eq_false_iff.mpr hpq) hqp))

end Path

end StoryCatalog
