import Mathlib.Data.List.Basic
import StoryCatalog.Proofs.Fields
import StoryCatalog.Story.Usage

/-!
# What snippets tell of texts

A snippet puts a text between quotation marks as it is. Texts that are given to a component are told
from its snippet unless one of them ends its attribute early, which needs a quotation mark, a blank,
a name and an equals sign in it. Every such text stands in some snippet that also comes from more
arguments, and no other text does (`StoryRecord.usage_determines`).
-/

namespace StoryCatalog

namespace Usage

/-- The code points that count as letters in the name of an attribute, whichever these are: the
marks behind a name are none of them. -/
structure Letters where
  isLetter : CodePoint → Bool
  isLetter_equals : isLetter (.ofChar '=') = false
  isLetter_quote : isLetter (.ofChar '"') = false

/-- The letters of ASCII. -/
def Letters.ascii : Letters where
  isLetter c := c.isLowerAscii || (0x41 ≤ c.val && c.val ≤ 0x5A)
  isLetter_equals := by decide
  isLetter_quote := by decide

abbrev blank : CodePoint := .ofChar ' '
abbrev equals : CodePoint := .ofChar '='
abbrev quote : CodePoint := .ofChar '"'

namespace Letters

variable (L : Letters)

/-- The name of an attribute: letters, digits, hyphens and underscores, at least one. -/
structure IsName (name : Text) : Prop where
  ne_nil : name ≠ []
  forall_mem : ∀ c ∈ name,
    L.isLetter c = true ∨ c.isDigit = true ∨ c = .ofChar '-' ∨ c = .ofChar '_'

/-- A text that ends its attribute early and begins another one: in quotation marks it goes on
behind one of them with a blank, a name and an equals sign, and the next mark opens a value. -/
def EndsAttribute (value : Text) : Prop :=
  ∃ name, L.IsName name ∧ quote :: blank :: name ++ [equals, quote] <:+: value ++ [quote]

variable {L} {name : Text}

instance : Decidable (L.IsName name) :=
  decidable_of_iff (name ≠ [] ∧ ∀ c ∈ name,
      L.isLetter c = true ∨ c.isDigit = true ∨ c = .ofChar '-' ∨ c = .ofChar '_')
    ⟨fun h ↦ ⟨h.1, h.2⟩, fun h ↦ ⟨h.ne_nil, h.forall_mem⟩⟩

/-- Only an equals sign can begin another attribute. -/
theorem not_endsAttribute_of_not_mem {value : Text} (h : equals ∉ value) :
    ¬ L.EndsAttribute value := by
  rintro ⟨other, -, hwithin⟩
  have hmem : equals ∈ value ++ [quote] := hwithin.subset (by simp)
  rcases List.mem_append.mp hmem with hvalue | hquote
  · exact h hvalue
  · exact absurd (List.mem_singleton.mp hquote) (by decide)

theorem IsName.equals_not_mem (h : L.IsName name) : equals ∉ name := fun hmem ↦ by
  have hletter := h.forall_mem _ hmem
  rw [L.isLetter_equals] at hletter
  revert hletter
  decide

theorem IsName.quote_not_mem (h : L.IsName name) : quote ∉ name := fun hmem ↦ by
  have hletter := h.forall_mem _ hmem
  rw [L.isLetter_quote] at hletter
  revert hletter
  decide

/-- The opening of an attribute has no quotation mark before its last one. -/
private theorem IsName.quote_not_mem_opening (h : L.IsName name) :
    quote ∉ blank :: name ++ [equals] := by
  have hquote := h.quote_not_mem
  simp only [List.cons_append, List.mem_cons, List.mem_append, List.not_mem_nil, or_false, not_or]
  exact ⟨by decide, hquote, by decide⟩

theorem IsName.append {more : Text} (h : L.IsName name) (hmore : L.IsName more) :
    L.IsName (name ++ more) where
  ne_nil := List.append_ne_nil_of_left_ne_nil h.ne_nil more
  forall_mem := fun c hc ↦ (List.mem_append.mp hc).elim (h.forall_mem c) (hmore.forall_mem c)

end Letters

/-! ### Marks in texts -/

section

variable {α : Type} {mark : α} {a b x y : List α}

/-- Two places of a mark in one list: the same place, or one behind the other. -/
private theorem append_mark_eq (h : a ++ mark :: x = b ++ mark :: y) :
    (a = b ∧ x = y) ∨ (∃ m, b = a ++ mark :: m ∧ x = m ++ mark :: y) ∨
      ∃ m, a = b ++ mark :: m ∧ y = m ++ mark :: x := by
  rcases List.append_eq_append_iff.mp h with ⟨m, hb, hx⟩ | ⟨m, ha, hy⟩
  · cases m with
    | nil => exact .inl ⟨by simpa using hb.symm, by simpa using hx⟩
    | cons c m =>
      obtain ⟨rfl, hbehind⟩ := List.cons.inj hx
      exact .inr (.inl ⟨m, hb, hbehind⟩)
  · cases m with
    | nil => exact .inl ⟨by simpa using ha, by simpa using hy.symm⟩
    | cons c m =>
      obtain ⟨rfl, hbehind⟩ := List.cons.inj hy
      exact .inr (.inr ⟨m, ha, hbehind⟩)

/-- The first place of a mark in a list comes before every other. -/
private theorem append_mark_eq_of_not_mem (ha : mark ∉ a) (h : a ++ mark :: x = b ++ mark :: y) :
    (b = a ∧ x = y) ∨ ∃ m, b = a ++ mark :: m ∧ x = m ++ mark :: y := by
  rcases append_mark_eq h with ⟨hab, hxy⟩ | hbehind | ⟨m, hm, -⟩
  · exact .inl ⟨hab.symm, hxy⟩
  · exact .inr hbehind
  · exact absurd (hm ▸ List.mem_append_right b List.mem_cons_self) ha

/-- The first place of a mark is the same if neither part before it holds it. -/
private theorem append_mark_inj (ha : mark ∉ a) (hb : mark ∉ b)
    (h : a ++ mark :: x = b ++ mark :: y) : a = b ∧ x = y := by
  rcases append_mark_eq_of_not_mem ha h with ⟨hba, hxy⟩ | ⟨m, hm, -⟩
  · exact ⟨hba.symm, hxy⟩
  · exact absurd (hm ▸ List.mem_append_right a List.mem_cons_self) hb

end

/-! ### Snippets of texts -/

/-- What stands behind the name of the component in a snippet: the attributes of texts, and the end
of the element. -/
def attributes : Fields Text → Text
  | [] => [blank, .ofChar '/', .ofChar '>']
  | (name, value) :: rest =>
    blank :: (name ++ equals :: quote :: (value ++ quote :: attributes rest))

/-- An attribute of a text. -/
private def textProp (field : Text × Text) : Text :=
  Text.concat [field.1, "=\"", field.2, "\""]

private theorem textProp_eq (name value : Text) :
    textProp (name, value) = name ++ equals :: quote :: (value ++ [quote]) := by
  simp [textProp, Text.concat, Text.ofString]

private theorem join_attributes (head : Text) (texts : Fields Text) :
    Text.join " " (head :: texts.map textProp) ++ " />" = head ++ attributes texts := by
  induction texts generalizing head with
  | nil => rfl
  | cons field rest ih =>
    obtain ⟨name, value⟩ := field
    have hjoin : Text.join " " (head :: textProp (name, value) :: rest.map textProp) =
        head ++ [blank] ++ Text.join " " (textProp (name, value) :: rest.map textProp) := rfl
    rw [List.map_cons, hjoin, List.append_assoc, ih, textProp_eq, attributes]
    simp

/-! ### Reading snippets back -/

section

variable {L : Letters} {texts texts' rest rest' : Fields Text}
  {name value value' before after : Text}

/-- The keys of some texts are names of attributes. -/
def HasNames (L : Letters) (texts : Fields Text) : Prop := ∀ key ∈ Fields.keys texts, L.IsName key

/-- No text ends its attribute early. -/
def StaysInside (L : Letters) (texts : Fields Text) : Prop :=
  ∀ value ∈ Fields.values texts, ¬ L.EndsAttribute value

theorem HasNames.cons_iff :
    HasNames L ((name, value) :: rest) ↔ L.IsName name ∧ HasNames L rest :=
  List.forall_mem_cons

theorem StaysInside.cons_iff :
    StaysInside L ((name, value) :: rest) ↔ ¬ L.EndsAttribute value ∧ StaysInside L rest :=
  List.forall_mem_cons

private theorem quote_not_mem_attributes_nil : quote ∉ attributes [] := by decide

private theorem attributes_nil_ne (field : Text × Text) (rest : Fields Text) :
    attributes [] ≠ attributes (field :: rest) := fun h ↦ by
  refine quote_not_mem_attributes_nil (h ▸ ?_)
  simp [attributes]

private theorem attributes_cons (name value : Text) (rest : Fields Text) :
    attributes ((name, value) :: rest) =
      blank :: (name ++ equals :: quote :: (value ++ quote :: attributes rest)) := rfl

/-- An attribute has its name up to the first equals sign. -/
private theorem attributes_cons_inj {name' : Text} (hname : L.IsName name) (hname' : L.IsName name')
    (h : attributes ((name, value) :: rest) = attributes ((name', value') :: rest')) :
    name = name' ∧ value ++ quote :: attributes rest = value' ++ quote :: attributes rest' := by
  rw [attributes_cons, attributes_cons] at h
  obtain ⟨heq, hrest⟩ := append_mark_inj hname.equals_not_mem hname'.equals_not_mem
    (List.cons.inj h).2
  exact ⟨heq, (List.cons.inj hrest).2⟩

/-- A quotation mark in attributes opens the first value or stands behind that mark. -/
private theorem quote_in_attributes (hnames : HasNames L texts)
    (h : attributes texts = before ++ quote :: after) :
    ∃ name value rest, texts = (name, value) :: rest ∧ L.IsName name ∧
      ((before = blank :: name ++ [equals] ∧ after = value ++ quote :: attributes rest) ∨
        ∃ inside, before = blank :: name ++ equals :: quote :: inside ∧
          value ++ quote :: attributes rest = inside ++ quote :: after) := by
  cases texts with
  | nil =>
    have hmem : quote ∈ attributes [] := h ▸ List.mem_append_right before List.mem_cons_self
    exact absurd hmem quote_not_mem_attributes_nil
  | cons field rest =>
    obtain ⟨name, value⟩ := field
    have hname := (HasNames.cons_iff.mp hnames).1
    have hopening : quote ∉ blank :: name ++ [equals] := hname.quote_not_mem_opening
    have h' : (blank :: name ++ [equals]) ++ quote :: (value ++ quote :: attributes rest) =
        before ++ quote :: after := by
      rw [← h, attributes_cons]
      simp
    refine ⟨name, value, rest, rfl, hname, ?_⟩
    rcases append_mark_eq_of_not_mem hopening h' with ⟨hbefore, hafter⟩ | ⟨inside, hbefore, hafter⟩
    · exact .inl ⟨hbefore, hafter.symm⟩
    · exact .inr ⟨inside, by simpa using hbefore, hafter⟩

/-- A text ends its attribute early if attributes go on behind a quotation mark in it. -/
private theorem endsAttribute_of_attributes (hnames : HasNames L texts)
    (h : attributes texts = before ++ quote :: after) :
    L.EndsAttribute (value ++ quote :: before) := by
  obtain ⟨name, -, -, -, hname, ⟨rfl, -⟩ | ⟨inside, rfl, -⟩⟩ := quote_in_attributes hnames h
  · exact ⟨name, hname, value, [], by simp⟩
  · exact ⟨name, hname, value, inside ++ [quote], by simp⟩

/-- What is behind a part of a text ends its attribute early only if the text does. -/
private theorem Letters.EndsAttribute.append_left (h : L.EndsAttribute value) (before : Text) :
    L.EndsAttribute (before ++ value) := by
  obtain ⟨name, hname, hwithin⟩ := h
  refine ⟨name, hname, hwithin.trans ?_⟩
  rw [List.append_assoc]
  exact (List.suffix_append before _).isInfix

/-- Texts that stay inside their attributes are told from the attributes. -/
theorem texts_eq_of_attributes (hnames : HasNames L texts) (hnames' : HasNames L texts')
    (hinside : StaysInside L texts) (hinside' : StaysInside L texts')
    (h : attributes texts = attributes texts') : texts = texts' := by
  induction texts generalizing texts' with
  | nil =>
    cases texts' with
    | nil => rfl
    | cons field rest' => exact absurd h (attributes_nil_ne field rest')
  | cons field rest ih =>
    obtain ⟨name, value⟩ := field
    cases texts' with
    | nil => exact absurd h.symm (attributes_nil_ne _ rest)
    | cons field' rest' =>
      obtain ⟨name', value'⟩ := field'
      rw [HasNames.cons_iff] at hnames hnames'
      rw [StaysInside.cons_iff] at hinside hinside'
      obtain ⟨rfl, hvalues⟩ := attributes_cons_inj hnames.1 hnames'.1 h
      rcases append_mark_eq hvalues with ⟨rfl, hrest⟩ | ⟨m, rfl, hrest⟩ | ⟨m, rfl, hrest⟩
      · rw [ih hnames.2 hnames'.2 hinside.2 hinside'.2 hrest]
      · exact absurd (endsAttribute_of_attributes hnames.2 hrest) hinside'.1
      · exact absurd (endsAttribute_of_attributes hnames'.2 hrest) hinside.1

/-! ### No further attributes -/

/-- No more attributes can be read in the attributes of some texts than there are, be it from their
beginning or from behind one of their quotation marks. -/
private structure Bounds (L : Letters) (texts : Fields Text) : Prop where
  start : ∀ {rest'}, HasNames L rest' → attributes texts = attributes rest' →
    rest'.length ≤ texts.length
  behind : ∀ {before rest'}, HasNames L rest' →
    attributes texts = before ++ quote :: attributes rest' → rest'.length ≤ texts.length

/-- A text before attributes that stays inside its own is no place for the beginning of others. -/
private theorem Bounds.inside (h : Bounds L rest) (hvalue : ¬ L.EndsAttribute value)
    (hnames : HasNames L rest')
    (heq : value ++ quote :: attributes rest = value' ++ quote :: attributes rest') :
    rest'.length ≤ rest.length := by
  rcases append_mark_eq heq with ⟨-, hrest⟩ | ⟨m, -, hrest⟩ | ⟨m, rfl, hrest⟩
  · exact h.start hnames hrest
  · exact h.behind hnames hrest
  · exact absurd (endsAttribute_of_attributes hnames hrest) hvalue

/-- Read as attributes itself, a text that stays inside its own begins at most one. -/
private theorem Bounds.opened (h : Bounds L rest) (hvalue : ¬ L.EndsAttribute value)
    (hnames : HasNames L rest') (heq : attributes rest' = value ++ quote :: attributes rest) :
    rest'.length ≤ rest.length + 1 := by
  obtain ⟨name, value', more, rfl, hname, hplace⟩ := quote_in_attributes hnames heq
  have hmore : HasNames L more := (HasNames.cons_iff.mp hnames).2
  refine Nat.succ_le_succ ?_
  rcases hplace with ⟨-, hrest⟩ | ⟨inside, rfl, hrest⟩
  · exact h.behind hmore hrest
  · have hinside : ¬ L.EndsAttribute inside := fun hends ↦ hvalue <| by
      have hlonger := hends.append_left (blank :: name ++ [equals, quote])
      simpa using hlonger
    exact h.inside hinside hmore hrest.symm

private theorem bounds_nil : Bounds L [] where
  start := fun {rest'} _ h ↦ by
    cases rest' with
    | nil => exact Nat.le_refl _
    | cons field rest' => exact absurd h (attributes_nil_ne field rest')
  behind := fun _ h ↦
    absurd (h ▸ List.mem_append_right _ List.mem_cons_self) quote_not_mem_attributes_nil

private theorem Bounds.cons (h : Bounds L rest) (hnames : HasNames L ((name, value) :: rest))
    (hvalue : ¬ L.EndsAttribute value) : Bounds L ((name, value) :: rest) where
  start := fun {rest'} hnames' heq ↦ by
    cases rest' with
    | nil => exact Nat.zero_le _
    | cons field more =>
      obtain ⟨name', value'⟩ := field
      rw [HasNames.cons_iff] at hnames hnames'
      obtain ⟨-, hvalues⟩ := attributes_cons_inj hnames.1 hnames'.1 heq
      exact Nat.succ_le_succ (h.inside hvalue hnames'.2 hvalues)
  behind := fun hnames' heq ↦ by
    obtain ⟨name', value', more, hcons, -, hplace⟩ := quote_in_attributes hnames heq
    cases hcons
    rcases hplace with ⟨-, hafter⟩ | ⟨inside, -, hafter⟩
    · exact h.opened hvalue hnames' hafter
    · exact Nat.le_succ_of_le (h.inside hvalue hnames' hafter)

private theorem bounds_of_staysInside (hnames : HasNames L texts) (hinside : StaysInside L texts) :
    Bounds L texts := by
  induction texts with
  | nil => exact bounds_nil
  | cons field rest ih =>
    obtain ⟨name, value⟩ := field
    have hvalues := StaysInside.cons_iff.mp hinside
    exact (ih (HasNames.cons_iff.mp hnames).2 hvalues.2).cons hnames hvalues.1

/-- Where no text ends its attribute early, no more attributes can be read. -/
theorem length_le_of_attributes (hnames : HasNames L texts) (hnames' : HasNames L texts')
    (hinside : StaysInside L texts) (h : attributes texts = attributes texts') :
    texts'.length ≤ texts.length :=
  (bounds_of_staysInside hnames hinside).start hnames' h

/-! ### Texts that end their attribute early -/

/-- The beginning of an attribute does not end another one early: nothing but the closing mark
stands behind its own. -/
private theorem not_endsAttribute_opening (hname : L.IsName name) :
    ¬ L.EndsAttribute (blank :: name ++ [equals, quote]) := by
  rintro ⟨other, -, before, after, h⟩
  have hopening : quote ∉ blank :: name ++ [equals] := hname.quote_not_mem_opening
  have h' : (blank :: name ++ [equals]) ++ quote :: [quote] =
      before ++ quote :: (blank :: other ++ [equals, quote] ++ after) := by
    simpa using h.symm
  rcases append_mark_eq_of_not_mem hopening h' with ⟨-, hend⟩ | ⟨m, -, hend⟩
  · exact absurd (List.cons.inj hend).1 (by decide)
  · have hlength := congrArg List.length hend
    simp at hlength
    omega

/-- A text that ends its attribute early has the opening of another one behind a quotation mark,
with its own closing mark at the latest. -/
private theorem endsAttribute_cases (h : L.EndsAttribute value) :
    ∃ before name, L.IsName name ∧ (value = before ++ quote :: blank :: name ++ [equals] ∨
      ∃ after, value = before ++ quote :: blank :: name ++ equals :: quote :: after) := by
  obtain ⟨name, hname, before, after, hparts⟩ := h
  refine ⟨before, name, hname, ?_⟩
  rcases List.eq_nil_or_concat after with rfl | ⟨after, c, rfl⟩
  · left
    have hclosed : value ++ [quote] =
        (before ++ quote :: blank :: name ++ [equals]) ++ [quote] := by
      rw [← hparts]
      simp
    exact List.append_cancel_right hclosed
  · right
    have hvalue : before ++ (quote :: blank :: name ++ [equals, quote]) ++ after = value := by
      rw [List.concat_eq_append, ← List.append_assoc] at hparts
      exact (List.append_inj' hparts rfl).1
    exact ⟨after, by rw [← hvalue]; simp⟩

/-- A text that ends its attribute early stands in attributes, beside none of its kind, that are
also those of more texts. -/
private theorem exists_longer (h : L.EndsAttribute value) : ∃ texts texts',
    HasNames L texts ∧ HasNames L texts' ∧ (Fields.keys texts).Nodup ∧ (Fields.keys texts').Nodup ∧
      attributes texts = attributes texts' ∧ value ∈ Fields.values texts ∧
      (∀ other ∈ Fields.values texts, other ≠ value → ¬ L.EndsAttribute other) ∧
      texts.length < texts'.length := by
  obtain ⟨before, b, hb, hvalue⟩ := endsAttribute_cases h
  -- repetitions of the name inside the text serve as names of the other attributes
  have hbb := hb.append hb
  have hbbb := hbb.append hb
  have hbbbb := hbbb.append hb
  have hne := hb.ne_nil
  rcases hvalue with rfl | ⟨after, rfl⟩
  · have hopening := not_endsAttribute_opening hbbbb
    refine ⟨[(b ++ b, before ++ quote :: blank :: b ++ [equals]),
        (b ++ b ++ b, blank :: (b ++ b ++ b ++ b) ++ [equals, quote])],
      [(b ++ b, before), (b, blank :: (b ++ b ++ b) ++ [equals]), (b ++ b ++ b ++ b, [])],
      ?_, ?_, ?_, ?_, ?_, List.mem_cons_self, ?_, Nat.lt_succ_self 2⟩
    · simp [HasNames, Fields.keys, hbb, hbbb, -List.append_assoc]
    · simp [HasNames, Fields.keys, hb, hbb, hbbbb, -List.append_assoc]
    · simp [Fields.keys, hne]
    · simp [Fields.keys, hne]
    · simp [attributes]
    · simpa [Fields.values] using fun _ ↦ hopening
  · refine ⟨[(b ++ b, before ++ quote :: blank :: b ++ equals :: quote :: after)],
      [(b ++ b, before), (b, after)], ?_, ?_, ?_, ?_, ?_, List.mem_cons_self, ?_,
      Nat.lt_succ_self 1⟩
    · simp [HasNames, Fields.keys, hbb]
    · simp [HasNames, Fields.keys, hb, hbb]
    · simp [Fields.keys]
    · simp [Fields.keys, hne]
    · simp [attributes]
    · simp [Fields.values]

end

end Usage

open Usage

namespace StoryRecord

variable {L : Letters} {r : StoryRecord} {texts : Fields Text}

/-- The snippet of texts: the attributes stand behind the name of the component. -/
theorem usage_of_texts (h : r.args = Fields.mapValues .string texts) :
    r.usage = .ok ("<" ++ (r.usageName ++ attributes texts)) := by
  have hprops : (r.args.mapM fun field ↦ usageProp field.1 field.2) =
      .ok (texts.map textProp) := by
    rw [h, Fields.mapValues, List.mapM_map]
    exact List.mapM_pure
  have hgiven : (texts.map textProp).filter (!·.isEmpty) = texts.map textProp := by
    rw [List.filter_eq_self]
    intro prop hprop
    obtain ⟨⟨name, value⟩, -, rfl⟩ := List.mem_map.mp hprop
    rw [textProp_eq]
    simp
  have husage : r.usage =
      .ok (Text.concat ["<", Text.join " " (r.usageName :: texts.map textProp), " />"]) := by
    rw [usage]
    simp only [hprops, bind, Except.bind, hgiven, pure, Except.pure]
  rw [husage, ← join_attributes]
  simp [Text.concat]

/-- The arguments of a story are texts under names of attributes. -/
structure HasTexts (L : Letters) (r : StoryRecord) (texts : Fields Text) : Prop where
  args_eq : r.args = Fields.mapValues .string texts
  nodup_keys : (Fields.keys texts).Nodup
  names : HasNames L texts

/-- Two stories have the same component and title and come to the same snippet. -/
structure SharesUsage (r r' : StoryRecord) : Prop where
  component_eq : r.component = r'.component
  title_eq : r.title = r'.title
  usage_eq : r.usage = r'.usage

/-- Stories that share their snippet have attributes that are written in the same way. -/
private theorem attributes_eq_of_sharesUsage {r' : StoryRecord} {texts' : Fields Text}
    (h : r.HasTexts L texts) (h' : r'.HasTexts L texts') (hshared : r.SharesUsage r') :
    attributes texts = attributes texts' := by
  have hname : r.usageName = r'.usageName := by
    rw [usageName, usageName, hshared.component_eq, hshared.title_eq]
  have husage := hshared.usage_eq
  rw [usage_of_texts h.args_eq, usage_of_texts h'.args_eq, hname] at husage
  exact List.append_cancel_left (List.append_cancel_left (Except.ok.inj husage))

/-- A story with nothing but arguments that are texts. -/
def ofTexts (texts : Fields Text) : StoryRecord :=
  { id := [], title := [], name := [], args := Fields.mapValues .string texts }

private theorem sharesUsage_ofTexts {texts' : Fields Text}
    (h : attributes texts = attributes texts') : (ofTexts texts).SharesUsage (ofTexts texts') where
  component_eq := rfl
  title_eq := rfl
  usage_eq := by
    have hname : (ofTexts texts).usageName = (ofTexts texts').usageName := rfl
    have husage : ∀ texts, (ofTexts texts).usage =
        .ok ("<" ++ ((ofTexts texts).usageName ++ attributes texts)) := fun _ ↦ usage_of_texts rfl
    rw [husage, husage, h, hname]

/-- Every story whose arguments are texts has a snippet. It tells the arguments, for a known
component and title, if none of the texts ends its attribute early. A text ends its attribute early
exactly if some story, in which no other text does, shares its snippet with a story of more
arguments. -/
theorem usage_determines (L : Letters) :
    (∀ r texts, HasTexts L r texts → ∃ t, r.usage = .ok t) ∧
    (∀ r r' texts texts', HasTexts L r texts → HasTexts L r' texts' → r.SharesUsage r' →
      StaysInside L texts → StaysInside L texts' → r.args = r'.args) ∧
    ∀ value, L.EndsAttribute value ↔ ∃ r r' texts texts', HasTexts L r texts ∧
      HasTexts L r' texts' ∧ r.SharesUsage r' ∧ value ∈ Fields.values texts ∧
      (∀ other ∈ Fields.values texts, other ≠ value → ¬ L.EndsAttribute other) ∧
      texts.length < texts'.length := by
  refine ⟨fun r texts h ↦ ⟨_, usage_of_texts h.args_eq⟩, ?_, fun value ↦ ⟨fun hends ↦ ?_, ?_⟩⟩
  · intro r r' texts texts' h h' hshared hinside hinside'
    rw [h.args_eq, h'.args_eq, texts_eq_of_attributes h.names h'.names hinside hinside'
      (attributes_eq_of_sharesUsage h h' hshared)]
  · obtain ⟨texts, texts', hnames, hnames', hkeys, hkeys', heq, hvalue, hothers, hlonger⟩ :=
      exists_longer hends
    exact ⟨ofTexts texts, ofTexts texts', texts, texts', ⟨rfl, hkeys, hnames⟩,
      ⟨rfl, hkeys', hnames'⟩, sharesUsage_ofTexts heq, hvalue, hothers, hlonger⟩
  · rintro ⟨r, r', texts, texts', h, h', hshared, -, hothers, hlonger⟩
    by_contra hstays
    have hinside : StaysInside L texts := fun other hother ↦ by
      by_cases heq : other = value
      · exact heq ▸ hstays
      · exact hothers other hother heq
    exact absurd (length_le_of_attributes h.names h'.names hinside
      (attributes_eq_of_sharesUsage h h' hshared)) (Nat.not_le.mpr hlonger)

/-- Arguments with quotation marks, none of which ends its attribute early. -/
def quotedTexts : Fields Text := [("a", "say \"hi\" b"), ("b-1", "\" c")]

/-- Another story with the same snippet as these arguments has the same arguments, and the text
`x" b="y` shares its snippet with more of them. -/
theorem usage_determines_quoted :
    (∃ t, (ofTexts quotedTexts).usage = .ok t) ∧
    ({ ofTexts quotedTexts with id := "a--b", name := "B" }).SharesUsage (ofTexts quotedTexts) ∧
    StaysInside .ascii quotedTexts ∧
    ({ ofTexts quotedTexts with id := "a--b", name := "B" }).args = (ofTexts quotedTexts).args ∧
    Letters.ascii.EndsAttribute "x\" b=\"y" ∧
    ∃ r r' texts texts', HasTexts .ascii r texts ∧ HasTexts .ascii r' texts' ∧
      r.SharesUsage r' ∧ ("x\" b=\"y" : Text) ∈ Fields.values texts ∧
      texts.length < texts'.length := by
  have hnames : HasNames .ascii quotedTexts := by
    unfold HasNames
    decide
  have htexts : HasTexts .ascii (ofTexts quotedTexts) quotedTexts := ⟨rfl, by decide, hnames⟩
  have hother : HasTexts .ascii { ofTexts quotedTexts with id := "a--b", name := "B" }
      quotedTexts := ⟨rfl, by decide, hnames⟩
  have hshared : ({ ofTexts quotedTexts with id := "a--b", name := "B" }).SharesUsage
      (ofTexts quotedTexts) := ⟨rfl, rfl, rfl⟩
  have hinside : StaysInside .ascii quotedTexts := by
    have hvalues : ∀ value ∈ Fields.values quotedTexts, Usage.equals ∉ value := by decide
    exact fun value hvalue ↦ Letters.not_endsAttribute_of_not_mem (hvalues value hvalue)
  have hends : Letters.ascii.EndsAttribute "x\" b=\"y" :=
    ⟨"b", by decide, "x", "y\"", by decide⟩
  obtain ⟨hsnippet, hargs, hlonger⟩ := usage_determines .ascii
  obtain ⟨r, r', texts, texts', h, h', hsame, hvalue, -, hlength⟩ := (hlonger _).mp hends
  exact ⟨hsnippet _ _ htexts, hshared, hinside,
    hargs _ _ _ _ hother htexts hshared hinside hinside, hends,
    r, r', texts, texts', h, h', hsame, hvalue, hlength⟩

/-- A text with the opening of an attribute in it comes to the same snippet as two texts. -/
theorem usage_ambiguous :
    HasTexts .ascii (ofTexts [("a", "x\" b=\"y")]) [("a", "x\" b=\"y")] ∧
    HasTexts .ascii (ofTexts [("a", "x"), ("b", "y")]) [("a", "x"), ("b", "y")] ∧
    (ofTexts [("a", "x\" b=\"y")]).SharesUsage (ofTexts [("a", "x"), ("b", "y")]) ∧
    (ofTexts [("a", "x\" b=\"y")]).args ≠ (ofTexts [("a", "x"), ("b", "y")]).args := by
  have hnames : ∀ name ∈ (["a", "b"] : List Text), Letters.ascii.IsName name := by decide
  refine ⟨⟨rfl, by decide, fun name hkey ↦ hnames name ?_⟩, ⟨rfl, by decide, hnames⟩,
    sharesUsage_ofTexts (by decide), fun h ↦ absurd (congrArg List.length h) (by decide)⟩
  exact List.mem_cons.mpr (.inl (List.mem_singleton.mp hkey))

end StoryRecord

end StoryCatalog
