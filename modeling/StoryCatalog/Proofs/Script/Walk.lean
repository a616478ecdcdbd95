import StoryCatalog.Script.Grammar

/-!
# Walks through trees

A walk through the expressions of a module keeps a stack of the trees that are still to come. It
takes the first one off, visits it, and puts the expressions right below it in its place. What it
visits, in this order, are the expressions of the module in document order (`visits_iff`).
-/

namespace StoryCatalog.Script

/-- The expressions right below a member of an object. -/
def Member.children : Member → List Tree
  | .pair key value => Grammar.keyParts key ++ [value]
  | .shorthand _ => []
  | .method key parts => Grammar.keyParts key ++ parts
  | .spread operand => [operand]

namespace Tree

/-- The expressions right below an expression, in source order. -/
def children : Tree → List Tree
  | .template _ substitutions => substitutions
  | .object members => members.flatMap Member.children
  | .array elements => elements
  | .function _ parts => parts
  | .markup _ parts => parts
  | .assertion form operand types =>
    if form = .typePrefixed then types ++ [operand] else operand :: types
  | .unary _ operand _ => [operand]
  | .property target _ _ => [target]
  | .assignment target value _ => [target, value]
  | .other _ _ parts => parts
  | _ => []

variable {t : Tree} {pending visited : List Tree}

theorem preorderAll_append (ts us : List Tree) :
    preorderAll (ts ++ us) = preorderAll ts ++ preorderAll us := by
  induction ts with
  | nil => rfl
  | cons t ts ih => rw [List.cons_append, preorderAll, preorderAll, ih, List.append_assoc]

theorem preorderAll_singleton (t : Tree) : preorderAll [t] = preorder t :=
  List.append_nil (preorder t)

private theorem preorderKey_eq (key : Key) :
    preorderKey key = preorderAll (Grammar.keyParts key) := by
  cases key with
  | computed expression => exact (preorderAll_singleton expression).symm
  | _ => rfl

private theorem preorderMember_eq (member : Member) :
    preorderMember member = preorderAll member.children := by
  cases member with
  | pair key value =>
    rw [preorderMember, Member.children, preorderAll_append, preorderKey_eq, preorderAll_singleton]
  | shorthand name => rfl
  | method key parts => rw [preorderMember, Member.children, preorderAll_append, preorderKey_eq]
  | spread operand => exact (preorderAll_singleton operand).symm

private theorem preorderMembers_eq (members : List Member) :
    preorderMembers members = preorderAll (members.flatMap Member.children) := by
  induction members with
  | nil => rfl
  | cons member members ih =>
    rw [preorderMembers, List.flatMap_cons, preorderAll_append, preorderMember_eq, ih]

/-- An expression stands before everything below it. -/
theorem preorder_eq (t : Tree) : preorder t = t :: preorderAll t.children := by
  cases t with
  | object members => rw [preorder, children, preorderMembers_eq]
  | assertion form operand types =>
    rw [preorder, children]
    split
    · rw [preorderAll_append, preorderAll_singleton]
    · rw [preorderAll]
  | unary operator operand text => rw [preorder, children, preorderAll_singleton]
  | property target name text => rw [preorder, children, preorderAll_singleton]
  | assignment target value text =>
    rw [preorder, children, preorderAll, preorderAll_singleton]
  | _ => rfl

/-- The walk with a stack of trees that are still to come, and what it visits. -/
inductive Visits : List Tree → List Tree → Prop
  | done : Visits [] []
  | next {t : Tree} {pending visited : List Tree} :
    Visits (t.children ++ pending) visited → Visits (t :: pending) (t :: visited)

/-- One step of the walk: the first tree is visited, and its children come before the others. -/
theorem preorderAll_cons (t : Tree) (pending : List Tree) :
    preorderAll (t :: pending) = t :: preorderAll (t.children ++ pending) := by
  rw [preorderAll, preorder_eq, preorderAll_append, List.cons_append]

/-- A walk comes to an end, and visits the expressions of its trees in document order. -/
theorem visits_iff : Visits pending visited ↔ visited = preorderAll pending := by
  constructor
  · intro h
    induction h with
    | done => rfl
    | next _ ih => rw [preorderAll_cons, ih]
  · -- Each step takes one expression off those still to come.
    intro h
    induction visited generalizing pending with
    | nil =>
      cases pending with
      | nil => exact .done
      | cons t pending =>
        rw [preorderAll_cons] at h
        cases h
    | cons u visited ih =>
      cases pending with
      | nil => cases h
      | cons t pending =>
        rw [preorderAll_cons] at h
        cases h
        apply Visits.next
        exact ih rfl

end Tree

namespace Module

/-- The expressions at the top of the statements of a module. -/
def roots (m : Module) : List Tree := m.flatMap Statement.parts

/-- A walk from the top of a module visits all its expressions in document order. -/
theorem visits_roots (m : Module) : Tree.Visits m.roots m.expressions := by
  rw [Tree.visits_iff, roots, expressions]
  induction m with
  | nil => rfl
  | cons statement m ih =>
    rw [List.flatMap_cons, List.flatMap_cons, Tree.preorderAll_append, ih]

end Module

end StoryCatalog.Script
