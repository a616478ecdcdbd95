import StoryCatalog.Index.File
import StoryCatalog.Proofs.Files
import StoryCatalog.Proofs.Json.Limit
import StoryCatalog.Proofs.Text.Encoded

/-!
# Files that are read as an index

Whether a file is read as an index is a matter of its bytes (`isIndexFile_iff`), and the search in a
directory asks the same of them as the reader does (`find?_eq_some_iff`). They part in what they do
with other files: the search passes over all of them, the reader refuses them as no index unless
their bytes are foreign, for which it has no error of its own (`refuses_iff`).
-/

namespace StoryCatalog.StoryIndex

variable {fs : FileSystem} {directory p : Path} {content : Bytes} {time : Binary64}
  {index : StoryIndex} {t : Text}

/-- The files of a directory that may hold an index, the preferred one first. -/
def candidates (directory : Path) : List Path := fileNames.map directory.child

/-- The bytes are those of a text that denotes an index. -/
def HoldsIndex (content : Bytes) (index : StoryIndex) : Prop :=
  ∃ t value, Utf8.encode t = .ok content ∧ Json.read (Utf8.unifyLineBreaks t) = .ok value ∧
    ofJson value = .ok index

/-- The bytes are those of no text, or of one with an integer that is too long. -/
inductive IsForeign (content : Bytes) : Prop where
  | bytes (h : ∀ t, Utf8.encode t ≠ .ok content)
  | digits {t : Text} {n : Nat} (ht : Utf8.encode t = .ok content)
      (hread : Json.read (Utf8.unifyLineBreaks t) = .error (.tooManyDigits n))

/-- A path leads to a file that is read as an index. -/
def IsIndexFile (fs : FileSystem) (p : Path) : Prop :=
  fs.isFile p = true ∧ ∃ index, read fs p = .ok index

theorem isIndexFile_iff_isOk :
    IsIndexFile fs p ↔ fs.isFile p = true ∧ (read fs p).isOk = true := by
  rw [IsIndexFile]
  cases read fs p <;> simp [Except.isOk, Except.toBool]

instance (fs : FileSystem) (p : Path) : Decidable (IsIndexFile fs p) :=
  decidable_of_iff' _ isIndexFile_iff_isOk

/-- Reading a file fails with an error of the index. -/
def Refuses (fs : FileSystem) (p : Path) : Prop :=
  ∃ error, read fs p = .error error ∧ error.isIndexError = true

instance (fs : FileSystem) (p : Path) : Decidable (Refuses fs p) :=
  match h : read fs p with
  | .ok _ => isFalse fun ⟨_, herror, _⟩ ↦ by rw [h] at herror; cases herror
  | .error error =>
    decidable_of_iff (error.isIndexError = true)
      ⟨fun herror ↦ ⟨error, h, herror⟩, fun ⟨_, hread, herror⟩ ↦ by
        rw [h] at hread
        cases hread
        exact herror⟩

/-! ### Bytes -/

section Bytes

variable (ht : Utf8.encode t = .ok content)

include ht

theorem holdsIndex_iff_of_text :
    HoldsIndex content index ↔
      ∃ value, Json.read (Utf8.unifyLineBreaks t) = .ok value ∧ ofJson value = .ok index := by
  refine ⟨fun ⟨s, value, hs, hread, hindex⟩ ↦ ?_, fun ⟨value, h⟩ ↦ ⟨t, value, ht, h⟩⟩
  cases Utf8.encode_injective hs ht
  exact ⟨value, hread, hindex⟩

theorem isForeign_iff_of_text :
    IsForeign content ↔ ∃ n, Json.read (Utf8.unifyLineBreaks t) = .error (.tooManyDigits n) := by
  refine ⟨fun h ↦ ?_, fun ⟨n, hread⟩ ↦ .digits ht hread⟩
  cases h with
  | bytes h => exact absurd ht (h t)
  | digits hs hread =>
    cases Utf8.encode_injective hs ht
    exact ⟨_, hread⟩

/-- A text whose bytes are foreign holds a long run of digits. -/
theorem holdsRun_of_isForeign (h : IsForeign content) :
    ∃ n, Json.HoldsRun n (Utf8.unifyLineBreaks t) := by
  obtain ⟨n, hread⟩ := (isForeign_iff_of_text ht).mp h
  exact ⟨n, Json.holdsRun_of_read hread⟩

end Bytes

/-! ### Reading a file -/

section Reading

variable (hfind : fs.find p = .ok (.file content time))

include hfind

theorem read_of_no_text (h : ∀ t, Utf8.encode t ≠ .ok content) :
    ∃ fault, read fs p = .error (.encoding fault) := by
  cases hdecode : Utf8.decode content with
  | ok t => exact absurd (Utf8.decode_ok_iff.mp hdecode) (h t)
  | error fault =>
    refine ⟨fault, ?_⟩
    simp only [read, FileSystem.readJson, FileSystem.readText, FileSystem.read_of_find hfind,
      hdecode]

theorem read_of_text (ht : Utf8.encode t = .ok content) :
    read fs p =
      match Json.read (Utf8.unifyLineBreaks t) with
      | .error fault => .error (.json fault)
      | .ok value =>
        match ofJson value with
        | .error error => .error (.value error)
        | .ok index => .ok index := by
  simp only [read, FileSystem.readJson, FileSystem.readText, FileSystem.read_of_find hfind,
    Utf8.decode_ok_iff.mpr ht]
  cases Json.read (Utf8.unifyLineBreaks t) <;> rfl

/-- What a file comes to: an index that its bytes hold, or an error. The error is one of the index
unless the bytes are foreign. -/
theorem read_of_file :
    (∃ index, read fs p = .ok index ∧ HoldsIndex content index) ∨
    ∃ error, read fs p = .error error ∧ (∀ index, ¬ HoldsIndex content index) ∧
      (error.isIndexError = true ↔ ¬ IsForeign content) := by
  by_cases htext : ∃ t, Utf8.encode t = .ok content
  · obtain ⟨t, ht⟩ := htext
    have hread := read_of_text hfind ht
    simp only [holdsIndex_iff_of_text ht, isForeign_iff_of_text ht]
    cases hjson : Json.read (Utf8.unifyLineBreaks t) with
    | error fault =>
      rw [hjson] at hread
      refine .inr ⟨_, hread, by simp, ?_⟩
      cases fault <;> simp [FileError.isIndexError]
    | ok value =>
      rw [hjson] at hread
      dsimp only at hread
      cases hvalue : ofJson value with
      | ok index =>
        rw [hvalue] at hread
        exact .inl ⟨index, hread, value, rfl, hvalue⟩
      | error error =>
        rw [hvalue] at hread
        exact .inr ⟨_, hread, by simp [hvalue], by simp [FileError.isIndexError]⟩
  · have hno : ∀ t, Utf8.encode t ≠ .ok content := fun t ht ↦ htext ⟨t, ht⟩
    obtain ⟨fault, hread⟩ := read_of_no_text hfind hno
    refine .inr ⟨_, hread, ?_, ?_⟩
    · rintro index ⟨t, -, ht, -⟩
      exact hno t ht
    · exact iff_of_false (by simp [FileError.isIndexError]) fun hnot ↦ hnot (.bytes hno)

/-- A file is read as an index exactly if its bytes hold one. -/
theorem isIndexFile_iff : IsIndexFile fs p ↔ ∃ index, HoldsIndex content index := by
  have hfile : fs.isFile p = true := FileSystem.isFile_iff.mpr ⟨content, time, hfind⟩
  rcases read_of_file hfind with ⟨index, hread, hholds⟩ | ⟨error, hread, hnone, -⟩
  · exact iff_of_true ⟨hfile, index, hread⟩ ⟨index, hholds⟩
  · refine iff_of_false ?_ fun ⟨index, hholds⟩ ↦ hnone index hholds
    rintro ⟨-, index, hok⟩
    rw [hread] at hok
    cases hok

/-- Another file is refused as no index exactly if its bytes are not foreign. -/
theorem refuses_iff (hnot : ¬ IsIndexFile fs p) : Refuses fs p ↔ ¬ IsForeign content := by
  rcases read_of_file hfind with ⟨index, -, hholds⟩ | ⟨error, hread, -, herror⟩
  · exact absurd ((isIndexFile_iff hfind).mpr ⟨index, hholds⟩) hnot
  · rw [← herror]
    refine ⟨fun ⟨error', hread', herror'⟩ ↦ ?_, fun h ↦ ⟨error, hread, h⟩⟩
    rw [hread] at hread'
    cases hread'
    exact herror'

end Reading

/-! ### The search in a directory -/

theorem find?_eq (fs : FileSystem) (directory : Path) :
    find? fs directory = (candidates directory).find? fun p ↦ decide (IsIndexFile fs p) := by
  unfold find? candidates
  congr 1
  funext p
  rw [Bool.eq_iff_iff, decide_eq_true_iff, Bool.and_eq_true, isIndexFile_iff_isOk]
  cases read fs p <;> simp [Except.isOk, Except.toBool]

/-- What is found is the first candidate that is read as an index. -/
theorem find?_eq_some_iff : find? fs directory = some p ↔
    ∃ before after, candidates directory = before ++ p :: after ∧ IsIndexFile fs p ∧
      ∀ q ∈ before, ¬ IsIndexFile fs q := by
  simp only [find?_eq, List.find?_eq_some_iff_append, decide_eq_true_iff, Bool.not_eq_true',
    decide_eq_false_iff_not]
  constructor
  · rintro ⟨hread, before, after, hsplit, hbefore⟩
    exact ⟨before, after, hsplit, hread, hbefore⟩
  · rintro ⟨before, after, hsplit, hread, hbefore⟩
    exact ⟨hread, before, after, hsplit, hbefore⟩

theorem find?_eq_none_iff :
    find? fs directory = none ↔ ∀ q ∈ candidates directory, ¬ IsIndexFile fs q := by
  simp [find?_eq]

/-- The search gives the first candidate that is read as an index, and none exactly if there is no
such candidate. Any other file is refused as no index unless its bytes are foreign. A text with such
bytes holds a run of too many digits. -/
theorem find?_agrees (fs : FileSystem) (directory : Path) :
    (∀ p, find? fs directory = some p ↔
      ∃ before after, candidates directory = before ++ p :: after ∧ IsIndexFile fs p ∧
        ∀ q ∈ before, ¬ IsIndexFile fs q) ∧
    (find? fs directory = none ↔ ∀ q ∈ candidates directory, ¬ IsIndexFile fs q) ∧
    (∀ p content time, fs.find p = .ok (.file content time) → ¬ IsIndexFile fs p →
      (Refuses fs p ↔ ¬ IsForeign content)) ∧
    ∀ content t, Utf8.encode t = .ok content → IsForeign content →
      ∃ n, Json.HoldsRun n (Utf8.unifyLineBreaks t) :=
  ⟨fun _ ↦ find?_eq_some_iff, find?_eq_none_iff, fun _ _ _ ↦ refuses_iff,
    fun _ _ ↦ holdsRun_of_isForeign⟩

/-- A directory whose index file has the given bytes. -/
def withIndexFile (content : Bytes) : FileSystem where
  working := ⟨"/", []⟩
  nodes := [(["out"], .directory), (["out", "index.json"], .file content (.ofInt 0))]

/-- A directory with a document that is no index under the preferred name, and an index under the
other one. -/
def withBothFiles : FileSystem where
  working := ⟨"/", []⟩
  nodes := [(["out"], .directory),
    (["out", "index.json"], .file ((Text.ofString "[1]").flatMap Utf8.encodeCodePoint) (.ofInt 0)),
    (["out", "stories.json"], .file ((Text.ofString
      "\x7b\"v\": 3, \"stories\": \x7b\"a--b\": \x7b\"title\": \"A\"\x7d\x7d\x7d").flatMap
        Utf8.encodeCodePoint) (.ofInt 0))]

/-- An integer of too many digits. -/
def longInteger : Text := List.replicate (Number.digitLimit + 1) (.ofChar '1')

private theorem encode_longInteger :
    Utf8.encode longInteger = .ok (List.replicate (Number.digitLimit + 1) 0x31) := by
  have hscalar : longInteger.IsScalar := fun c hc ↦ by
    rw [List.eq_of_mem_replicate hc]
    decide
  have hbytes : Utf8.encodeCodePoint (.ofChar '1') = [0x31] := rfl
  rw [Utf8.encode_of_isScalar hscalar, longInteger, List.flatMap_replicate, hbytes,
    List.flatten_replicate_singleton]

/-- Its file is no index, and is not refused as such. -/
private theorem not_refuses_longInteger :
    (withIndexFile (List.replicate (Number.digitLimit + 1) 0x31)).isFile
        (Path.ofString "/out/index.json") = true ∧
      ¬ IsIndexFile (withIndexFile (List.replicate (Number.digitLimit + 1) 0x31))
        (Path.ofString "/out/index.json") ∧
      ¬ Refuses (withIndexFile (List.replicate (Number.digitLimit + 1) 0x31))
        (Path.ofString "/out/index.json") := by
  decide +kernel

/-- The search passes over the document that is no index, and reading it is refused. The long
integer is not refused, so it is foreign, and holds a run of too many digits. -/
theorem find?_agrees_bothFiles :
    find? withBothFiles (Path.ofString "/out") = some (Path.ofString "/out/stories.json") ∧
    Refuses withBothFiles (Path.ofString "/out/index.json") ∧
    find? withBothFiles (Path.ofString "/") = none ∧
    IsForeign (List.replicate (Number.digitLimit + 1) 0x31) ∧
    ∃ n, Json.HoldsRun n (Utf8.unifyLineBreaks longInteger) := by
  obtain ⟨hsome, -, hrefuses, hruns⟩ := find?_agrees withBothFiles (Path.ofString "/out")
  obtain ⟨-, hnone, -, -⟩ := find?_agrees withBothFiles (Path.ofString "/")
  have hindex : IsIndexFile withBothFiles (Path.ofString "/out/stories.json") := by decide +kernel
  have hother : ¬ IsIndexFile withBothFiles (Path.ofString "/out/index.json") := by decide +kernel
  have hplain : ¬ IsForeign ((Text.ofString "[1]").flatMap Utf8.encodeCodePoint) := by
    rw [isForeign_iff_of_text (Utf8.encode_of_isScalar (Text.isScalar_ofString "[1]"))]
    rintro ⟨n, hn⟩
    have hread : (Json.read (Utf8.unifyLineBreaks "[1]")).isOk = true := by decide +kernel
    rw [hn] at hread
    cases hread
  have hforeign : IsForeign (List.replicate (Number.digitLimit + 1) 0x31) := by
    obtain ⟨-, hno, hnot⟩ := not_refuses_longInteger
    have hiff := (find?_agrees (withIndexFile (List.replicate (Number.digitLimit + 1) 0x31))
      (Path.ofString "/out")).2.2.1 _ _ _ rfl hno
    exact Classical.not_not.mp fun h ↦ hnot (hiff.mpr h)
  refine ⟨(hsome _).mpr ⟨[Path.ofString "/out/index.json"], [], rfl, hindex, ?_⟩,
    (hrefuses _ _ _ rfl hother).mpr hplain, hnone.mpr (by decide +kernel), hforeign,
    hruns _ _ encode_longInteger hforeign⟩
  intro q hq
  cases List.mem_singleton.mp hq
  exact hother

/-- A byte that begins no code point and an integer of too many digits are no index, but a file
that holds one of them is not refused as such. -/
theorem not_refuses_foreign :
    Path.ofString "/out/index.json" ∈ candidates (Path.ofString "/out") ∧
      ∀ content ∈ [[0xFF], List.replicate (Number.digitLimit + 1) 0x31],
        (withIndexFile content).isFile (Path.ofString "/out/index.json") = true ∧
        ¬ IsIndexFile (withIndexFile content) (Path.ofString "/out/index.json") ∧
        ¬ Refuses (withIndexFile content) (Path.ofString "/out/index.json") := by
  refine ⟨by decide +kernel, ?_⟩
  rw [List.forall_mem_cons, List.forall_mem_singleton]
  exact ⟨by decide +kernel, not_refuses_longInteger⟩

end StoryCatalog.StoryIndex
