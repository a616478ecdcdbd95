import Mathlib.Data.Bool.AllAny
import StoryCatalog.Proofs.Script.Reads

/-!
# What readers of tokens read

The laws of the readers of blank space, punctuation and words, and of the items between commas. A
reader of a token looks past the blank space in front of it: `LeadsTo` says which characters the
next token begins with.
-/

namespace StoryCatalog.Script

variable {scope : Scope} {left cs rest : List Char} {c : Char}

/-! ### Runs and blank space -/

private theorem drop_eq_cons {source : Array Char} {position : Nat}
    (h : source[position]? = some c) :
    source.toList.drop position = c :: source.toList.drop (position + 1) := by
  obtain ⟨hlt, hget⟩ := Array.getElem?_eq_some_iff.mp h
  rw [List.drop_eq_getElem_cons hlt, Array.getElem_toList, hget]

theorem endOfRun_eq (source : Array Char) (p : Char → Bool) (position : Nat) :
    endOfRun source p position =
      position + ((source.toList.drop position).takeWhile p).length := by
  fun_induction endOfRun source p position with
  | case1 position hnone =>
    have hsize : source.toList.length ≤ position := by
      rw [Array.length_toList]
      exact Array.getElem?_eq_none_iff.mp hnone
    rw [List.drop_eq_nil_of_le hsize]
    rfl
  | case2 position c hsome hc ih =>
    rw [ih, drop_eq_cons hsome, List.takeWhile_cons_of_pos hc, List.length_cons]
    omega
  | case3 position c hsome hc =>
    rw [drop_eq_cons hsome, List.takeWhile_cons_of_neg hc]
    rfl

/-- A run ends where the first character of another class stands. -/
theorem endOfRun_offset {p : Char → Bool} {run : List Char}
    (h : run ++ rest <:+ scope.source.toList) (hrun : ∀ c ∈ run, p c = true)
    (hrest : ∀ c ∈ rest.head?, p c = false) :
    endOfRun scope.source p (scope.offset (run ++ rest)) = scope.offset rest := by
  have htake : rest.takeWhile p = [] := by
    cases rest with
    | nil => rfl
    | cons c rest => rw [List.takeWhile_cons_of_neg (by rw [hrest c rfl]; exact Bool.false_ne_true)]
  rw [endOfRun_eq, Scope.drop_offset h, List.takeWhile_append_of_pos hrun, htake, List.append_nil,
    Scope.offset_append h]

/-- Only blank space stands in front of the token that begins with given characters. -/
def LeadsTo (left cs : List Char) : Prop :=
  ∃ spaces, (∀ c ∈ spaces, isSpace c = true) ∧ left = spaces ++ cs ∧
    ∀ c ∈ cs.head?, isSpace c = false ∧ c ≠ '/'

theorem LeadsTo.refl (hspace : isSpace c = false) (hslash : c ≠ '/') :
    LeadsTo (c :: cs) (c :: cs) :=
  ⟨[], List.forall_mem_nil _, rfl, by simp [hspace, hslash]⟩

theorem LeadsTo.nil : LeadsTo [] [] := ⟨[], List.forall_mem_nil _, rfl, by simp⟩

theorem LeadsTo.blank (h : LeadsTo left cs) : LeadsTo (' ' :: left) cs := by
  obtain ⟨spaces, hspaces, rfl, hhead⟩ := h
  exact ⟨' ' :: spaces, List.forall_mem_cons.mpr ⟨by decide, hspaces⟩, rfl, hhead⟩

theorem LeadsTo.length_le (h : LeadsTo left cs) : cs.length ≤ left.length := by
  obtain ⟨spaces, -, rfl, -⟩ := h
  rw [List.length_append]
  omega

theorem LeadsTo.isSuffix (h : LeadsTo left cs) (hleft : left <:+ scope.source.toList) :
    cs <:+ scope.source.toList := by
  obtain ⟨spaces, -, rfl, -⟩ := h
  exact (List.suffix_append spaces cs).trans hleft

theorem endOfSpace_offset (h : LeadsTo left cs) (hleft : left <:+ scope.source.toList) :
    endOfSpace scope.source (scope.offset left) = scope.offset cs := by
  have hcs := h.isSuffix hleft
  obtain ⟨spaces, hspaces, rfl, hhead⟩ := h
  have hcomment : endOfComment? scope.source (scope.offset cs) = none := by
    rw [endOfComment?, Scope.head?_offset hcs, if_neg]
    exact fun hslash ↦ (hhead _ hslash).2 rfl
  have hrun := endOfRun_offset hleft hspaces fun c hc ↦ (hhead c hc).1
  rw [endOfSpace, endOfSpaceWith, hrun, hcomment]

theorem matchesAt_offset (token : List Char) (hleft : left <:+ scope.source.toList) :
    matchesAt scope.source (scope.offset left) token = token.isPrefixOf left := by
  induction token generalizing left with
  | nil => simp [matchesAt]
  | cons d token ih =>
    rw [matchesAt, Scope.head?_offset hleft]
    cases left with
    | nil => rfl
    | cons c left =>
      rw [← Scope.offset_cons hleft, ih ((List.suffix_cons c left).trans hleft), List.isPrefixOf,
        List.head?_cons, Option.some_beq_some, Bool.beq_comm]

namespace Reading

/-! ### Punctuation -/

theorem reads_peek : Reads peek scope left left left.head? := by
  intro hleft
  refine ⟨hleft, ?_⟩
  rw [peek, Scope.head?_offset hleft]

theorem reads_space (h : LeadsTo left cs) : Reads space scope left cs () := by
  intro hleft
  refine ⟨h.isSuffix hleft, ?_⟩
  rw [space, endOfSpace_offset h hleft]

theorem reads_lookAhead {α : Type} {f : Array Char → Nat → α} {a : α} (h : LeadsTo left cs)
    (hf : cs <:+ scope.source.toList → f scope.source (scope.offset cs) = a) :
    Reads (lookAhead f) scope left left a := by
  intro hleft
  refine ⟨hleft, ?_⟩
  rw [lookAhead, endOfSpace_offset h hleft, hf (h.isSuffix hleft)]

theorem reads_start (h : LeadsTo left cs) : Reads start scope left left (scope.offset cs) :=
  reads_lookAhead h fun _ ↦ rfl

theorem reads_next (h : LeadsTo left cs) : Reads next scope left left cs.head? :=
  reads_lookAhead h Scope.head?_offset

theorem reads_sees (h : LeadsTo left cs) (token : String) :
    Reads (sees token) scope left left (token.toList.isPrefixOf cs) :=
  reads_lookAhead h (matchesAt_offset token.toList)

theorem reads_exactly {token : String} :
    Reads (exactly token) scope (token.toList ++ rest) rest () := by
  intro hleft
  refine ⟨(List.suffix_append token.toList rest).trans hleft, ?_⟩
  have hmatches :
      matchesAt scope.source (scope.offset (token.toList ++ rest)) token.toList = true := by
    rw [matchesAt_offset _ hleft]
    exact List.isPrefixOf_iff_prefix.mpr (List.prefix_append token.toList rest)
  rw [exactly, if_pos hmatches, Scope.offset_append hleft, String.length_toList]

theorem reads_symbol {token : String} (h : LeadsTo left (token.toList ++ rest)) :
    Reads (symbol token) scope left rest () := (reads_space h).bind reads_exactly

theorem reads_symbolIf {token : String} (h : LeadsTo left (token.toList ++ rest)) :
    Reads (symbolIf token) scope left rest true := by
  have hsees : Reads (sees token) scope _ _ _ := reads_sees h token
  rw [List.isPrefixOf_iff_prefix.mpr (List.prefix_append token.toList rest)] at hsees
  exact hsees.bind ((reads_symbol h).bind .pure)

theorem reads_symbolIf_false {token : String} (h : LeadsTo left cs)
    (htoken : token.toList.isPrefixOf cs = false) :
    Reads (symbolIf token) scope left left false := by
  have hsees : Reads (sees token) scope _ _ _ := reads_sees h token
  rw [htoken] at hsees
  exact hsees.bind .pure

/-- The punctuation at the start of given characters. -/
def punctuation (cs : List Char) : String :=
  match longPunctuation.find? fun token ↦ token.toList.isPrefixOf cs with
  | some token => token
  | none => (cs.head?.map Char.toString).getD ""

theorem reads_peekPunctuation (h : LeadsTo left cs) :
    Reads peekPunctuation scope left left (punctuation cs) := by
  refine reads_lookAhead h fun hcs ↦ ?_
  simp only [matchesAt_offset _ hcs, Scope.head?_offset hcs]
  rfl

/-- The characters that punctuation of several characters begins with. -/
def longHeads : List Char :=
  ['>', '.', '=', '!', '*', '<', '&', '|', '?', '+', '-', '/', '%', '^']

theorem punctuation_of_not_mem (hc : c ∉ longHeads) : punctuation (c :: rest) = c.toString := by
  have hheads : ∀ token ∈ longPunctuation, token.toList.head?.any longHeads.contains = true := by
    decide
  have hnone : (longPunctuation.find? fun token ↦ token.toList.isPrefixOf (c :: rest)) = none := by
    rw [List.find?_eq_none]
    intro token htoken hmatch
    obtain ⟨d, hhead, hd⟩ := (Option.any_eq_true ..).mp (hheads token htoken)
    obtain ⟨more, hmore⟩ := List.head?_eq_some_iff.mp hhead
    rw [hmore, List.isPrefixOf_iff_prefix, List.cons_prefix_cons] at hmatch
    exact hc (hmatch.1 ▸ List.contains_iff_mem.mp hd)
  rw [punctuation, hnone]
  rfl

/-- Line ends may close a statement anywhere, or they do not. -/
theorem exists_reads_lineEndCloses (scope : Scope) (left : List Char) (afterExpression : Bool) :
    ∃ closes, Reads (lineEndCloses afterExpression) scope left left closes :=
  ⟨_, fun hleft ↦ ⟨hleft, rfl⟩⟩

/-- A semicolon ends a statement. -/
theorem reads_endStatement {afterExpression : Bool} (h : LeadsTo left (';' :: rest)) :
    Reads (endStatement afterExpression) scope left rest () := (reads_symbolIf h).bind .pure

/-! ### Words -/

/-- The characters of a word. -/
structure IsWord (word : List Char) : Prop where
  head : ∃ c ∈ word.head?, isWordStart c = true
  all : ∀ c ∈ word, isWordPart c = true

instance (word : List Char) : Decidable (IsWord word) :=
  decidable_of_iff (word.head?.any isWordStart = true ∧ word.all isWordPart = true) <| by
    rw [Option.any_eq_true, List.all_eq_true]
    exact ⟨fun h ↦ ⟨h.1, h.2⟩, fun h ↦ ⟨h.head, h.all⟩⟩

private theorem not_space_of_isWordPart (h : isWordPart c = true) :
    isSpace c = false ∧ c ≠ '/' := by
  have hascii : ∀ n < 0x80, isWordPart (Char.ofNat n) = true →
      isSpace (Char.ofNat n) = false ∧ Char.ofNat n ≠ '/' := by decide
  by_cases hc : c.toNat < 0x80
  · rw [← Char.ofNat_toNat c] at h ⊢
    exact hascii c.toNat hc h
  · rw [isWordPart, if_neg hc, Bool.not_eq_true'] at h
    refine ⟨h, ?_⟩
    rintro rfl
    exact hc (by decide)

theorem IsWord.leadsTo {word : List Char} (h : IsWord word) :
    LeadsTo (word ++ rest) (word ++ rest) := by
  obtain ⟨c, hhead, -⟩ := h.head
  obtain ⟨more, rfl⟩ := List.head?_eq_some_iff.mp hhead
  obtain ⟨hspace, hslash⟩ := not_space_of_isWordPart (h.all c List.mem_cons_self)
  exact .refl hspace hslash

/-- Given characters do not go on with a word in front of them. -/
def EndsWord (cs : List Char) : Prop := ∀ c ∈ cs.head?, isWordPart c = false ∧ c ≠ '\\'

theorem endsWord_cons (hc : isWordPart c = false) (hslash : c ≠ '\\') : EndsWord (c :: cs) := by
  simp [EndsWord, hc, hslash]

variable {word : List Char}

theorem endOfWord_offset (hword : IsWord word) (hrest : EndsWord rest)
    (hleft : word ++ rest <:+ scope.source.toList) :
    endOfWord scope.source (scope.offset (word ++ rest)) = scope.offset rest := by
  obtain ⟨c, hhead, hc⟩ := hword.head
  obtain ⟨more, rfl⟩ := List.head?_eq_some_iff.mp hhead
  have hsuffix := (List.suffix_append (c :: more) rest).trans hleft
  have hrun := endOfRun_offset hleft hword.all fun d hd ↦ (hrest d hd).1
  have hescape : ¬ rest.head? = some '\\' := fun h ↦ (hrest _ h).2 rfl
  rw [endOfWord, Scope.head?_offset hleft, List.cons_append, List.head?_cons]
  dsimp only
  rw [if_pos (by rw [hc]; rfl), endOfWordWith, ← List.cons_append, hrun,
    Scope.head?_offset hsuffix, if_neg (by simp [hescape])]

theorem endOfWord_offset_none (hc : isWordStart c = false) (hslash : c ≠ '\\')
    (hleft : c :: cs <:+ scope.source.toList) :
    endOfWord scope.source (scope.offset (c :: cs)) = scope.offset (c :: cs) := by
  rw [endOfWord, Scope.head?_offset hleft, List.head?_cons]
  dsimp only
  rw [if_neg (by simp [hc, hslash])]

theorem reads_peekWord (h : LeadsTo left (word ++ rest)) (hword : IsWord word)
    (hrest : EndsWord rest) : Reads peekWord scope left left (String.ofList word) := by
  refine reads_lookAhead h fun hcs ↦ ?_
  rw [endOfWord_offset hword hrest hcs, Scope.extract_offset hcs]

theorem reads_peekWord_none (h : LeadsTo left (c :: cs)) (hc : isWordStart c = false)
    (hslash : c ≠ '\\') : Reads peekWord scope left left "" := by
  refine reads_lookAhead h fun hcs ↦ ?_
  rw [endOfWord_offset_none hc hslash hcs, Array.extract_empty_of_stop_le_start (Nat.le_refl _)]

theorem reads_anyWord (h : LeadsTo left (word ++ rest)) (hword : IsWord word)
    (hrest : EndsWord rest) : Reads anyWord scope left rest (Text.ofChars word) := by
  refine (reads_space h).bind fun hleft ↦ ?_
  have hsuffix := (List.suffix_append word rest).trans hleft
  have hlength : 0 < word.length := by
    obtain ⟨c, hhead, -⟩ := hword.head
    obtain ⟨more, rfl⟩ := List.head?_eq_some_iff.mp hhead
    exact Nat.succ_pos _
  have hmoved : ¬ scope.offset rest = scope.offset (word ++ rest) := by
    rw [Scope.offset_append hleft]
    omega
  refine ⟨hsuffix, ?_⟩
  dsimp only
  rw [endOfWord_offset hword hrest hleft, if_neg hmoved, Scope.extract_offset hleft]

variable {expected : String}

theorem reads_seesWord (h : LeadsTo left (word ++ rest)) (hword : IsWord word)
    (hrest : EndsWord rest) (expected : String) :
    Reads (seesWord expected) scope left left (String.ofList word == expected) :=
  (reads_peekWord h hword hrest).bind .pure

theorem reads_seesWordOf (h : LeadsTo left (word ++ rest)) (hword : IsWord word)
    (hrest : EndsWord rest) (words : List String) :
    Reads (seesWordOf words) scope left left (words.contains (String.ofList word)) :=
  (reads_peekWord h hword hrest).bind .pure

theorem reads_word (hexpected : String.ofList word = expected)
    (h : LeadsTo left (word ++ rest)) (hword : IsWord word) (hrest : EndsWord rest) :
    Reads (Reading.word expected) scope left rest () := by
  have hsees : Reads (seesWord expected) scope _ _ _ := reads_seesWord h hword hrest expected
  rw [hexpected, beq_self_eq_true] at hsees
  exact hsees.bind (reads_anyWord h hword hrest).discard

theorem fails_word (hexpected : String.ofList word ≠ expected)
    (h : LeadsTo left (word ++ rest)) (hword : IsWord word) (hrest : EndsWord rest) :
    Fails (Reading.word expected) scope left := by
  have hsees : Reads (seesWord expected) scope _ _ _ := reads_seesWord h hword hrest expected
  rw [beq_eq_false_iff_ne.mpr hexpected] at hsees
  exact hsees.bind_fails fails_fail

theorem reads_wordIf (hexpected : String.ofList word = expected)
    (h : LeadsTo left (word ++ rest)) (hword : IsWord word) (hrest : EndsWord rest) :
    Reads (wordIf expected) scope left rest true := by
  have hsees : Reads (seesWord expected) scope _ _ _ := reads_seesWord h hword hrest expected
  rw [hexpected, beq_self_eq_true] at hsees
  exact hsees.bind ((reads_anyWord h hword hrest).discard.bind .pure)

theorem reads_wordIf_false (hexpected : String.ofList word ≠ expected)
    (h : LeadsTo left (word ++ rest)) (hword : IsWord word) (hrest : EndsWord rest) :
    Reads (wordIf expected) scope left left false := by
  have hsees : Reads (seesWord expected) scope _ _ _ := reads_seesWord h hword hrest expected
  rw [beq_eq_false_iff_ne.mpr hexpected] at hsees
  exact hsees.bind .pure

/-! ### Items between commas -/

/-- Given characters begin with no comma and no closing token. -/
def StartsItem (closing : Char) (left : List Char) : Prop :=
  ∃ c cs, LeadsTo left (c :: cs) ∧ c ≠ ',' ∧ c ≠ closing

/-- The items up to a closing token, with a comma behind each one but the last. -/
inductive Items {α : Type} (item : Reading α) (closing : Char) (scope : Scope) :
    List Char → List Char → List α → Prop where
  | last {left rest : List Char} {a : α} : StartsItem closing left →
    rest.length + 1 < left.length → Reads item scope left (closing :: rest) a →
    Items item closing scope left (closing :: rest) [a]
  | more {left mid rest : List Char} {a : α} {items : List α} : StartsItem closing left →
    mid.length + 1 < left.length → Reads item scope left (',' :: mid) a →
    Items item closing scope mid rest items → Items item closing scope left rest (a :: items)

variable {α : Type} {item : Reading α} {closing : Char} {token : String}

/-- One round of reading items between commas. -/
private def itemRound (token : String) (item : Reading α) : Reading (Option (Option α)) := do
  if ← symbolIf "," then return some none
  else if ← sees token then return none
  else
    let result ← item
    if ← sees token then return some (some result)
    symbol ","
    return some (some result)

private theorem isPrefixOf_mark (d c : Char) : [d].isPrefixOf (c :: cs) = (d == c) := by
  rw [List.isPrefixOf, List.isPrefixOf_nil_left, Bool.and_true]

private theorem reads_seesMark {d : Char} (htoken : token.toList = [d])
    (h : LeadsTo left (c :: cs)) : Reads (sees token) scope left left (d == c) := by
  have hsees : Reads (sees token) scope _ _ _ := reads_sees h token
  rwa [htoken, isPrefixOf_mark] at hsees

private theorem reads_noComma (h : LeadsTo left (c :: cs)) (hc : c ≠ ',') :
    Reads (symbolIf ",") scope left left false := by
  refine reads_symbolIf_false h ?_
  rw [show ",".toList = [','] from rfl, isPrefixOf_mark]
  exact beq_eq_false_iff_ne.mpr hc.symm

variable (htoken : token.toList = [closing]) (hspace : isSpace closing = false)
  (hslash : closing ≠ '/') (hcomma : closing ≠ ',')

include htoken hspace hslash hcomma in
private theorem reads_itemRound_none :
    Reads (itemRound token item) scope (closing :: rest) (closing :: rest) none := by
  have hleads : LeadsTo (closing :: rest) (closing :: rest) := .refl hspace hslash
  have hsees : Reads (sees token) scope _ _ _ := reads_seesMark htoken hleads
  rw [beq_self_eq_true] at hsees
  exact (reads_noComma hleads hcomma).bind (hsees.bind .pure)

include htoken in
private theorem reads_itemRound_item {a : α} (hstart : StartsItem closing left)
    (hitem : Reads item scope left mid a) (hnext : Reads (do
      if ← sees token then return some (some a)
      symbol ","
      return some (some a)) scope mid rest (some (some a))) :
    Reads (itemRound token item) scope left rest (some (some a)) := by
  obtain ⟨c, cs, hleads, hc, hclosing⟩ := hstart
  have hsees : Reads (sees token) scope _ _ _ := reads_seesMark htoken hleads
  rw [beq_eq_false_iff_ne.mpr hclosing.symm] at hsees
  exact (reads_noComma hleads hc).bind (hsees.bind (hitem.bind hnext))

include htoken hspace hslash hcomma in
private theorem Items.repeats {items : List α} (h : Items item closing scope left rest items) :
    Repeats (itemRound token item) scope left rest (items.map some) := by
  induction h with
  | @last left rest a hstart hlength hitem =>
    have hleads : LeadsTo (closing :: rest) (closing :: rest) := .refl hspace hslash
    have hsees : Reads (sees token) scope _ _ _ := reads_seesMark htoken hleads
    rw [beq_self_eq_true] at hsees
    refine .step (reads_itemRound_item htoken hstart hitem (hsees.bind .pure)) hlength ?_
    exact .stop (reads_itemRound_none htoken hspace hslash hcomma)
  | @more left mid rest a items hstart hlength hitem _ ih =>
    have hleads : LeadsTo (',' :: mid) (',' :: mid) := .refl rfl (by decide)
    have hsees : Reads (sees token) scope _ _ _ := reads_seesMark htoken hleads
    rw [beq_eq_false_iff_ne.mpr hcomma] at hsees
    refine .step (reads_itemRound_item htoken hstart hitem ?_) (by omega) ih
    exact hsees.bind ((reads_symbol hleads).bind .pure)

include htoken hspace hslash hcomma in
/-- Items are read up to the closing token. -/
theorem Items.reads {items : List α} (h : Items item closing scope left rest items) :
    Reads (commaItems token item) scope left rest items := by
  refine (h.repeats htoken hspace hslash hcomma).reads.bind ?_
  rw [List.filterMap_map, Function.id_comp, List.filterMap_some]
  exact .pure

include htoken hspace hslash hcomma in
/-- No item stands in front of the closing token. -/
theorem reads_commaItems_nil :
    Reads (commaItems token item) scope (closing :: rest) (closing :: rest) [] :=
  (Repeats.stop (reads_itemRound_none htoken hspace hslash hcomma)).reads.bind .pure

end Reading

end StoryCatalog.Script
