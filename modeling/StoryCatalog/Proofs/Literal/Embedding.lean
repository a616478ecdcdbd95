import StoryCatalog.Literal.Plain
import StoryCatalog.Proofs.Literal.Module
import StoryCatalog.Proofs.Script.Export

/-!
# Documents in story files

A story file that exports a value, written as a document is, comes to the value again, but for what
an array loses: expressions drop the null elements of arrays (`Json.withoutNulls`).
-/

namespace StoryCatalog

open Script Reading

namespace Json

mutual

/-- A value without the null elements of its arrays, at every depth. -/
def withoutNulls : Json → Json
  | .array items => .array (itemsWithoutNulls items)
  | .object fields => .object (fieldsWithoutNulls fields)
  | value => value

/-- Items other than null, without the null elements of their arrays. -/
def itemsWithoutNulls : List Json → List Json
  | [] => []
  | item :: rest =>
    if item.isNull then itemsWithoutNulls rest else withoutNulls item :: itemsWithoutNulls rest

/-- Fields without the null elements of the arrays in them. -/
def fieldsWithoutNulls : List (Text × Json) → List (Text × Json)
  | [] => []
  | (key, value) :: rest => (key, withoutNulls value) :: fieldsWithoutNulls rest

end

variable {value : Json} {fields : List (Text × Json)}

/-- Objects keep their keys, in order. -/
theorem fieldsWithoutNulls_eq_mapValues :
    fieldsWithoutNulls fields = Fields.mapValues withoutNulls fields := by
  induction fields with
  | nil => rfl
  | cons field rest ih =>
    rw [fieldsWithoutNulls, ih]
    rfl

theorem isNull_withoutNulls : value.withoutNulls.isNull = value.isNull := by
  cases value <;> rfl

end Json

/-! ### What the tree of a document stands for -/

/-- A tree stands for a value. -/
def Script.Tree.StandsFor (tree : Tree) (value : Json) : Prop :=
  ∃ e, Expression.ofTree tree = .ok e ∧ e.plain = value

private theorem standsFor_numeral {n : Number} (h : (Json.number n).IsEmbeddable) :
    (treeOfNumeral (numeralOf n)).StandsFor (.number n) := by
  obtain ⟨negative, body, k, htext, hbody, hread, hk⟩ := h.exists_numeral
  rw [htext, treeOfNumeral_signed hbody]
  cases negative with
  | true =>
    refine ⟨.number n, ?_, rfl⟩
    rw [if_pos rfl] at hk
    rw [if_pos rfl, Expression.ofTree, hread, Option.bind_some, Expression.signed?, ← hk]
    rfl
  | false =>
    refine ⟨.number n, ?_, rfl⟩
    rw [if_neg Bool.false_ne_true] at hk ⊢
    rw [Expression.ofTree, hread, hk]

variable {value : Json} {items : List Json} {fields : List (Text × Json)}

private theorem standsFor_array (h : ∀ item ∈ items, item.tree.StandsFor item.withoutNulls) :
    (Json.array items).tree.StandsFor (.array (Json.itemsWithoutNulls items)) := by
  have hitems : ∃ es, Expression.ofTrees (Json.treesOf items) = .ok es ∧
      Expression.plainElements es = Json.itemsWithoutNulls items := by
    induction items with
    | nil => exact ⟨[], rfl, rfl⟩
    | cons item rest ih =>
      obtain ⟨⟨e, htree, hplain⟩, hrest⟩ := List.forall_mem_cons.mp h
      obtain ⟨es, htrees, hplains⟩ := ih hrest
      refine ⟨e :: es, ?_, ?_⟩
      · rw [Json.treesOf, Expression.ofTrees, htree, htrees]
        rfl
      · rw [Expression.plainElements, hplain, hplains, Json.isNull_withoutNulls,
          Json.itemsWithoutNulls]
  obtain ⟨es, htrees, hplains⟩ := hitems
  refine ⟨.array es, ?_, congrArg Json.array hplains⟩
  rw [Json.tree, Expression.ofTree, htrees]
  rfl

private theorem standsFor_object (hkeys : (Fields.keys fields).Nodup)
    (h : ∀ field ∈ fields, field.2.tree.StandsFor field.2.withoutNulls) :
    (Json.object fields).tree.StandsFor (.object (Json.fieldsWithoutNulls fields)) := by
  have hfields : ∃ properties, Expression.ofMembers (Json.membersOf fields) = .ok properties ∧
      Expression.plainProperties properties = Json.fieldsWithoutNulls fields := by
    clear hkeys
    induction fields with
    | nil => exact ⟨[], rfl, rfl⟩
    | cons field rest ih =>
      obtain ⟨key, value⟩ := field
      obtain ⟨⟨e, htree, hplain⟩, hrest⟩ := List.forall_mem_cons.mp h
      obtain ⟨properties, hmembers, hplains⟩ := ih hrest
      have hkey : Expression.keyOf (.string (piecesOf key)) = .ok (some key) := by
        rw [Expression.keyOf, Escape.decodePieces_piecesOf]
        rfl
      refine ⟨(some key, e) :: properties, ?_, ?_⟩
      · rw [Json.membersOf, Expression.ofMembers, hkey, htree, hmembers]
        rfl
      · rw [Expression.plainProperties, hplain, hplains, Json.fieldsWithoutNulls]
  obtain ⟨properties, hmembers, hplains⟩ := hfields
  refine ⟨.object properties, ?_, ?_⟩
  · rw [Json.tree, Expression.ofTree, hmembers]
    rfl
  · have hkeys' : (Fields.keys (Json.fieldsWithoutNulls fields)).Nodup := by
      rwa [Json.fieldsWithoutNulls_eq_mapValues, Fields.keys_mapValues]
    rw [Expression.plain, hplains, Fields.ofList_of_nodup hkeys']

/-- The tree of a document stands for its value without the null elements of arrays. -/
theorem standsFor_tree (h : value.IsEmbeddable) : value.tree.StandsFor value.withoutNulls := by
  induction value using Json.induction with
  | null => exact ⟨.null, rfl, rfl⟩
  | bool b => exact ⟨.boolean b, rfl, rfl⟩
  | number n => exact standsFor_numeral h
  | string t =>
    refine ⟨.string t, ?_, rfl⟩
    rw [Json.tree, Expression.ofTree, Escape.decodePieces_piecesOf]
    rfl
  | array items ih =>
    exact standsFor_array fun item hitem ↦ ih item hitem (Json.isEmbeddable_array.mp h item hitem)
  | object fields ih =>
    obtain ⟨hkeys, -, hvalues⟩ := Json.isEmbeddable_object.mp h
    exact standsFor_object hkeys fun field hfield ↦ ih field hfield (hvalues field hfield)

/-! ### No assignments -/

/-- A tree is an assignment. -/
def Script.Tree.IsAssignment : Tree → Prop
  | .assignment _ _ _ => True
  | _ => False

/-- Nothing is assigned in the tree of a document. -/
theorem not_isAssignment_of_mem_tree (value : Json) :
    ∀ tree ∈ value.tree.preorder, ¬ tree.IsAssignment := by
  induction value using Json.induction with
  | null => simp [Json.tree, Tree.preorder, Tree.IsAssignment]
  | bool b => simp [Json.tree, Tree.preorder, Tree.IsAssignment]
  | number n =>
    rw [Json.tree, treeOfNumeral]
    split <;> simp [Tree.preorder, Tree.IsAssignment]
  | string t => simp [Json.tree, Tree.preorder, Tree.IsAssignment]
  | array items ih =>
    have hitems : ∀ tree ∈ Tree.preorderAll (Json.treesOf items), ¬ tree.IsAssignment := by
      induction items with
      | nil => exact List.forall_mem_nil _
      | cons item rest ih' =>
        obtain ⟨hitem, hrest⟩ := List.forall_mem_cons.mp ih
        exact List.forall_mem_append.mpr ⟨hitem, ih' hrest⟩
    exact List.forall_mem_cons.mpr ⟨id, hitems⟩
  | object fields ih =>
    have hfields : ∀ tree ∈ Tree.preorderMembers (Json.membersOf fields),
        ¬ tree.IsAssignment := by
      induction fields with
      | nil => exact List.forall_mem_nil _
      | cons field rest ih' =>
        obtain ⟨hfield, hrest⟩ := List.forall_mem_cons.mp ih
        exact List.forall_mem_append.mpr ⟨hfield, ih' hrest⟩
    exact List.forall_mem_cons.mpr ⟨id, hfields⟩

namespace StoryFile

theorem assignments_eq_nil {m : Module} (h : ∀ tree ∈ m.expressions, ¬ tree.IsAssignment) :
    assignments m = [] := by
  rw [assignments, List.filterMap_eq_nil_iff]
  intro tree htree
  have hnot := h tree htree
  split
  · exact absurd trivial hnot
  · rfl

/-! ### The file -/

variable {document : Text}

/-- The module of one exported value is a story file with one candidate. -/
theorem ofModule_export (path : Option Path) (line : Nat) {tree : Tree} {e : Expression}
    (hnot : ∀ t ∈ tree.preorder, ¬ t.IsAssignment) (h : Expression.ofTree tree = .ok e) :
    ofModule path [.exportDeclaration (.binding [⟨line, some "X", some tree, []⟩])] =
      .ok { path, stories := .ofList [("X", { exportName := "X", line, initializer := e })] } := by
  have hassignments : assignments
      [.exportDeclaration (.binding [⟨line, some "X", some tree, []⟩])] = [] := by
    refine assignments_eq_nil fun t ht ↦ hnot t ?_
    simpa [Module.expressions, Statement.parts, Declaration.parts, Tree.preorderAll] using ht
  rw [ofModule_eq, hassignments]
  have hexports : exports [.exportDeclaration (.binding [⟨line, some "X", some tree, []⟩])] =
      .ok (.ofList [("X", { exportName := "X", line, initializer := e })]) := by
    have hvalue : expressionOf (some tree) = .ok e := h
    simp only [exports, List.mapM_cons, candidatesOf, exportedBy, List.filterMap_cons,
      Option.map_some, hvalue]
    rfl
  rw [hexports]
  rfl

/-- A source that exports what is read as an expression is a story file with one candidate. -/
theorem read_exportOf (path : Option Path) {tree : Tree} {e : Expression}
    (hscalar : document.IsScalar) (hnot : ∀ t ∈ tree.preorder, ¬ t.IsAssignment)
    (htree : Expression.ofTree tree = .ok e) {line : Nat}
    (hmodule : Module.read (dialectOf path) (Text.chars (Module.exportOf document)) =
      .ok [.exportDeclaration (.binding [⟨line, some "X", some tree, []⟩])]) :
    read path (Module.exportOf document) = .ok
      { path, stories := .ofList [("X", { exportName := "X", line, initializer := e })] } := by
  have hsource : (Module.exportOf document).IsScalar := by
    simp [Module.exportOf, hscalar]
  rw [read, EncodeFault.find?_eq_none_iff.mpr hsource]
  dsimp only
  rw [Text.toChars?_of_isScalar hsource, Option.getD_some, hmodule]
  dsimp only
  rw [ofModule_export path line hnot htree]

/-- A source that exports a literal, read as an expression, is a story file with one candidate. -/
theorem exists_read_exportOf_literal (path : Option Path) {literal : List Char} {tree : Tree}
    {e : Expression} (hne : literal ≠ [])
    (hreads : ∀ (scope : Scope) (levels : Nat),
      Reads (Grammar.ofDepth (levels + 2)).expression scope (' ' :: (literal ++ [';'])) [';'] tree)
    (hnot : ∀ t ∈ tree.preorder, ¬ t.IsAssignment) (htree : Expression.ofTree tree = .ok e) :
    ∃ line, read path (Module.exportOf (Text.ofChars literal)) = .ok
      { path, stories := .ofList [("X", { exportName := "X", line, initializer := e })] } := by
  have hvalue : ∀ (scope : Scope) (levels : Nat), 2 * (Text.ofChars literal).length ≤ levels →
      Reads (Grammar.ofDepth (levels + 1)).expression scope
        (' ' :: (Text.chars (Text.ofChars literal) ++ [';'])) [';'] tree := by
    intro scope levels hlevels
    -- A literal of one character leaves a level for the operand below the expression.
    obtain ⟨levels, rfl⟩ : ∃ k, levels = k + 1 := by
      have hlength := List.length_pos_iff.mpr hne
      refine ⟨levels - 1, ?_⟩
      rw [Text.ofChars, List.length_map] at hlevels
      omega
    rw [Text.chars_ofChars]
    exact hreads scope levels
  obtain ⟨line, hmodule⟩ := Module.exists_read_exportOf (dialectOf path) hvalue
  exact ⟨line, read_exportOf path (Text.isScalar_ofChars literal) hnot htree hmodule⟩

/-- A story file that exports the document of a value has a candidate of this name, and the plain
value of what it is initialized with is the value without the null elements of arrays. -/
theorem read_export_of_isEmbeddable (path : Option Path) {value : Json} (h : value.IsEmbeddable) :
    ∃ document file candidate, value.print .spaced = .ok document ∧
      read path (("export const X = " : Text) ++ document ++ ";") = .ok file ∧
      file.stories.get? "X" = some candidate ∧
      candidate.initializer.plain = value.withoutNulls := by
  have hstandard : Json.Layout.spaced.IsStandard := ⟨⟨1, rfl⟩, 1, rfl⟩
  obtain ⟨document, content, hprint, hencode⟩ :=
    (Json.encode_print_ok_iff hstandard).mpr h.isWritable
  obtain ⟨line, hmodule⟩ := Module.exists_read_exportOf_print (dialectOf path) h hprint
  obtain ⟨e, htree, hplain⟩ := standsFor_tree h
  have hfile := read_exportOf path (Utf8.isScalar_of_encode hencode).1
    (not_isAssignment_of_mem_tree value) htree hmodule
  exact ⟨document, _, _, hprint, hfile, rfl, hplain⟩

/-- An array with nulls at two depths, a negative integer, a text in need of escapes, an empty key
with a null, and a number that is written with a power of ten. -/
def assortedObject : Json :=
  .object [("a", .array [.null, .number (.int (-7)), .array [.null], .string "\"\n/\\"]),
    ("", .null), ("x", .number (.float (.finite true 5000000000000000 1)))]

theorem read_export_assortedObject :
    assortedObject.IsEmbeddable ∧
      ∃ document file candidate, assortedObject.print .spaced = .ok document ∧
        read none (("export const X = " : Text) ++ document ++ ";") = .ok file ∧
        file.stories.get? "X" = some candidate ∧
        candidate.initializer.plain =
          .object [("a", .array [.number (.int (-7)), .array [], .string "\"\n/\\"]),
            ("", .null), ("x", .number (.float (.finite true 5000000000000000 1)))] := by
  have hvalue : assortedObject.IsEmbeddable := by
    have hfloat : (Binary64.finite true 5000000000000000 1).IsCanonical := by
      simp [Binary64.IsCanonical, Binary64.leastExponent, Binary64.greatestExponent]
    have hint : Number.fitsLimit (-7) = true := Number.fitsLimit_iff.mpr (by decide)
    have hkeys : (["a", "", "x"] : List Text).Nodup := by decide
    simp [assortedObject, Json.isEmbeddable_object, Json.isEmbeddable_array, Fields.keys, hfloat,
      hint, hkeys]
  exact ⟨hvalue, read_export_of_isEmbeddable none hvalue⟩

end StoryFile

end StoryCatalog
