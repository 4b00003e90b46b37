import Mathlib.Data.List.DropRight
import PipeShell.Proofs.Text

/-!
# Words of a text

White space belongs to no word, so trimming a text keeps its words (`words_trim`), and a text has a
word just when it is not blank (`words_eq_nil_iff`).  Words that are joined with spaces are read
back as they were (`words_unwords`).
-/

set_option autoImplicit false

namespace PipeShell.Text

/-! ## Words between white space -/

/-- A text with nothing in it but white space. -/
def Blank (text : List Char) : Prop := ∀ c ∈ text, isWhiteSpace c = true

/-- A text without white space. -/
def Dense (text : List Char) : Prop := ∀ c ∈ text, isWhiteSpace c = false

theorem isBlank_iff {text : String} : isBlank text = true ↔ Blank text.toList := by
  rw [isBlank, List.all_eq_true, Blank]

theorem hasWhiteSpace_eq_false_iff {text : String} :
    hasWhiteSpace text = false ↔ Dense text.toList := by
  rw [hasWhiteSpace, List.any_eq_false, Dense]
  simp only [Bool.not_eq_true]

theorem hasWhiteSpace_append (left right : String) :
    hasWhiteSpace (left ++ right) = (hasWhiteSpace left || hasWhiteSpace right) := by
  rw [hasWhiteSpace, String.toList_append, List.any_append]
  rfl

/-- White space separates the words on its left from those on its right. -/
theorem wordChars_append_cons {c : Char} (spaced : isWhiteSpace c = true) (head tail : List Char) :
    wordChars (head ++ c :: tail) = wordChars head ++ wordChars tail := by
  rw [wordChars, List.splitOnP_append_cons head tail spaced, List.filter_append]
  rfl

theorem wordChars_cons {c : Char} (spaced : isWhiteSpace c = true) (text : List Char) :
    wordChars (c :: text) = wordChars text :=
  wordChars_append_cons spaced [] text

theorem wordChars_dense {word : List Char} (written : word ≠ []) (dense : Dense word) :
    wordChars word = [word] := by
  rw [wordChars, List.splitOnP_eq_singleton dense]
  simpa using written

theorem wordChars_blank_append {blank : List Char} (spaced : Blank blank) (text : List Char) :
    wordChars (blank ++ text) = wordChars text := by
  induction blank with
  | nil => rfl
  | cons c blank ih =>
      obtain ⟨first, rest⟩ := List.forall_mem_cons.mp spaced
      rw [List.cons_append, wordChars_cons first, ih rest]

theorem wordChars_append_blank {blank : List Char} (spaced : Blank blank) (text : List Char) :
    wordChars (text ++ blank) = wordChars text := by
  cases blank with
  | nil => rw [List.append_nil]
  | cons c blank =>
      obtain ⟨first, rest⟩ := List.forall_mem_cons.mp spaced
      have none : wordChars blank = [] := by
        rw [← List.append_nil blank, wordChars_blank_append rest]
        rfl
      rw [wordChars_append_cons first, none, List.append_nil]

/-- A word at the beginning of a text is its first word. -/
theorem wordChars_dense_append_cons {word : List Char} (written : word ≠ []) (dense : Dense word)
    {c : Char} (spaced : isWhiteSpace c = true) (text : List Char) :
    wordChars (word ++ c :: text) = word :: wordChars text := by
  rw [wordChars_append_cons spaced, wordChars_dense written dense, List.singleton_append]

/-- The first word of a text that begins densely begins alike. -/
theorem exists_wordChars_dense_append {word : List Char} (written : word ≠ [])
    (dense : Dense word) (text : List Char) :
    ∃ more rest, wordChars (word ++ text) = (word ++ more) :: rest := by
  -- the first word ends at the first white space behind, or with the text
  have parts : text.takeWhile (!isWhiteSpace ·) ++ text.dropWhile (!isWhiteSpace ·) = text :=
    List.takeWhile_append_dropWhile
  have whole : Dense (word ++ text.takeWhile (!isWhiteSpace ·)) := by
    intro c member
    rcases List.mem_append.mp member with first | further
    · exact dense c first
    · simpa using List.mem_takeWhile_imp further
  have begun : word ++ text.takeWhile (!isWhiteSpace ·) ≠ [] :=
    List.append_ne_nil_of_left_ne_nil written _
  refine ⟨text.takeWhile (!isWhiteSpace ·), ?_⟩
  conv => enter [1, _, 1]; rw [← parts, ← List.append_assoc]
  cases behind : text.dropWhile (!isWhiteSpace ·) with
  | nil => exact ⟨[], by rw [List.append_nil, wordChars_dense begun whole]⟩
  | cons c others =>
      have ends := List.head?_dropWhile_not (!isWhiteSpace ·) text
      have spaced : isWhiteSpace c = true := by simpa [behind] using ends
      exact ⟨wordChars others, wordChars_dense_append_cons begun whole spaced others⟩

theorem wordChars_eq_nil_iff {text : List Char} : wordChars text = [] ↔ Blank text := by
  constructor
  · intro none
    induction text with
    | nil => exact List.forall_mem_nil _
    | cons c text ih =>
        cases spaced : isWhiteSpace c with
        | true => exact List.forall_mem_cons.mpr ⟨spaced, ih (wordChars_cons spaced text ▸ none)⟩
        | false =>
            exfalso
            have dense : Dense [c] := List.forall_mem_singleton.mpr spaced
            obtain ⟨more, rest, begun⟩ :=
              exists_wordChars_dense_append (List.cons_ne_nil c []) dense text
            exact List.cons_ne_nil _ _ (begun.symm.trans none)
  · intro blank
    rw [← List.append_nil text, wordChars_blank_append blank]
    rfl

/-! ## Trimming -/

theorem trimRightChars_eq_rdropWhile (text : List Char) :
    trimRightChars text = text.rdropWhile isWhiteSpace := rfl

/-- Trimming takes white space off both ends. -/
theorem exists_trimChars (text : List Char) :
    ∃ before behind, Blank before ∧ Blank behind ∧ text = before ++ trimChars text ++ behind := by
  refine ⟨text.takeWhile isWhiteSpace, (trimLeftChars text).rtakeWhile isWhiteSpace,
    fun c member => List.mem_takeWhile_imp member, fun c member => List.mem_rtakeWhile_imp member,
    ?_⟩
  rw [trimChars, trimRightChars_eq_rdropWhile, List.append_assoc, List.rdropWhile_append_rtakeWhile]
  exact List.takeWhile_append_dropWhile.symm

theorem wordChars_trimChars (text : List Char) : wordChars (trimChars text) = wordChars text := by
  obtain ⟨before, behind, left, right, whole⟩ := exists_trimChars text
  conv_rhs => rw [whole]
  rw [List.append_assoc, wordChars_blank_append left, wordChars_append_blank right]

theorem trimRightChars_append_blank {behind : List Char} (spaced : Blank behind)
    (text : List Char) : trimRightChars (text ++ behind) = trimRightChars text := by
  have gone : behind.reverse.dropWhile isWhiteSpace = [] := by
    rw [List.dropWhile_eq_nil_iff]
    intro c member
    exact spaced c (List.mem_reverse.mp member)
  rw [trimRightChars, List.reverse_append, List.dropWhile_append, gone, trimRightChars]
  rfl

theorem trimChars_blank_append {before : List Char} (spaced : Blank before) (text : List Char) :
    trimChars (before ++ text) = trimChars text := by
  have gone : before.dropWhile isWhiteSpace = [] := List.dropWhile_eq_nil_iff.mpr spaced
  rw [trimChars, trimLeftChars, List.dropWhile_append, gone]
  rfl

theorem trimChars_append_blank {behind : List Char} (spaced : Blank behind) (text : List Char) :
    trimChars (text ++ behind) = trimChars text := by
  rw [trimChars, trimLeftChars, List.dropWhile_append]
  split
  · next empty =>
      -- all of the text is white space, and so is what stands behind it
      have gone : behind.dropWhile isWhiteSpace = [] := List.dropWhile_eq_nil_iff.mpr spaced
      rw [gone, trimChars, trimLeftChars, List.isEmpty_iff.mp empty]
  · rw [trimRightChars_append_blank spaced]
    rfl

theorem trimChars_dense {text : List Char} (dense : Dense text) : trimChars text = text := by
  have start : trimLeftChars text = text := by
    rw [trimLeftChars, List.dropWhile_eq_self_iff]
    intro written
    simpa using dense _ (List.getElem_mem written)
  rw [trimChars, start, trimRightChars_eq_rdropWhile, List.rdropWhile_eq_self_iff]
  intro written
  simpa using dense _ (List.getLast_mem written)

theorem trimChars_idem (text : List Char) : trimChars (trimChars text) = trimChars text := by
  have left : trimLeftChars (trimChars text) = trimChars text := by
    rw [trimLeftChars, List.dropWhile_eq_self_iff]
    intro written spaced
    -- the first character that is left is the first that is no white space
    have start : trimChars text <+: trimLeftChars text := List.rdropWhile_prefix isWhiteSpace _
    have same := start.getElem written
    rw [same] at spaced
    exact List.dropWhile_get_zero_not isWhiteSpace text _ spaced
  rw [trimChars, left, trimRightChars_eq_rdropWhile, trimChars, trimRightChars_eq_rdropWhile,
    List.rdropWhile_idempotent]

/-! ## Texts -/

@[simp]
theorem words_trim (text : String) : words (trim text) = words text := by
  rw [words, trim, String.toList_ofList, wordChars_trimChars, words]

@[simp]
theorem firstWord_trim (text : String) : firstWord (trim text) = firstWord text := by
  rw [firstWord, words_trim, firstWord]

@[simp]
theorem trim_trim (text : String) : trim (trim text) = trim text := by
  rw [trim, trim, String.toList_ofList, trimChars_idem]

theorem trim_of_dense {text : String} (dense : Dense text.toList) : trim text = text := by
  rw [trim, trimChars_dense dense, String.ofList_toList]

/-- White space at the head of a text separates its words from those of the text before it. -/
theorem words_append {left right : String}
    (apart : ∀ c ∈ right.toList.head?, isWhiteSpace c = true) :
    words (left ++ right) = words left ++ words right := by
  simp only [words, String.toList_append]
  cases shape : right.toList with
  | nil => simp [wordChars_eq_nil_iff.mpr (List.forall_mem_nil _)]
  | cons c rest =>
      have spaced : isWhiteSpace c = true := apart c (by simp [shape])
      rw [wordChars_append_cons spaced, wordChars_cons spaced, List.map_append]

/-- The first word of a text that begins densely begins alike. -/
theorem exists_words_append {word : String} (written : word ≠ "") (dense : Dense word.toList)
    (text : String) : ∃ more rest, words (word ++ text) = (word ++ more) :: rest := by
  have written : word.toList ≠ [] := mt String.toList_eq_nil_iff.mp written
  obtain ⟨more, rest, begun⟩ := exists_wordChars_dense_append written dense text.toList
  refine ⟨String.ofList more, rest.map String.ofList, ?_⟩
  rw [words, String.toList_append, begun, List.map_cons, String.ofList_append,
    String.ofList_toList]

theorem words_eq_nil_iff {text : String} : words text = [] ↔ isBlank text = true := by
  rw [words, List.map_eq_nil_iff, wordChars_eq_nil_iff, isBlank_iff]

@[simp]
theorem isBlank_trim (text : String) : isBlank (trim text) = isBlank text := by
  rw [Bool.eq_iff_iff, ← words_eq_nil_iff, words_trim, words_eq_nil_iff]

theorem words_eq_cons {text : String} (written : isBlank text = false) :
    words text = firstWord text :: (words text).tail := by
  cases found : words text with
  | nil =>
      rw [words_eq_nil_iff.mp found] at written
      cases written
  | cons word rest => rw [firstWord, found, List.headD_cons, List.tail_cons]

/-! ## Joined words -/

/-- A word of some text. -/
structure IsWord (word : String) : Prop where
  written : word ≠ ""
  dense : Dense word.toList

theorem isWord_of_mem {text word : String} (member : word ∈ words text) : IsWord word :=
  ⟨(mem_words member).1, hasWhiteSpace_eq_false_iff.mp (mem_words member).2⟩

theorem unwords_cons_cons (word next : String) (rest : List String) :
    (unwords (word :: next :: rest)).toList =
      word.toList ++ ' ' :: (unwords (next :: rest)).toList := by
  rw [unwords, String.intercalate_cons_cons, String.toList_append, String.toList_append,
    List.append_assoc]
  rfl

@[simp]
theorem unwords_singleton (word : String) : unwords [word] = word :=
  String.intercalate_singleton

/-- Joined words begin with the first of them. -/
theorem exists_unwords_cons (word : String) (rest : List String) :
    ∃ behind, unwords (word :: rest) = word ++ behind := by
  cases rest with
  | nil => exact ⟨"", by rw [unwords_singleton, String.append_empty]⟩
  | cons next rest => exact ⟨_, by rw [unwords, String.intercalate_cons_cons, String.append_assoc]⟩

theorem words_of_isWord {word : String} (isWord : IsWord word) : words word = [word] := by
  have written : word.toList ≠ [] := mt String.toList_eq_nil_iff.mp isWord.written
  rw [words, wordChars_dense written isWord.dense, List.map_singleton, String.ofList_toList]

theorem words_append_space {word : String} (isWord : IsWord word) (text : String) :
    words (word ++ " " ++ text) = word :: words text := by
  have written : word.toList ≠ [] := mt String.toList_eq_nil_iff.mp isWord.written
  have whole : (word ++ " " ++ text).toList = word.toList ++ ' ' :: text.toList := by simp
  rw [words, whole, wordChars_dense_append_cons written isWord.dense (by decide), List.map_cons,
    String.ofList_toList, words]

/-- Words that are joined with spaces are read back as they were. -/
theorem words_unwords {list : List String} (each : ∀ word ∈ list, IsWord word) :
    words (unwords list) = list := by
  induction list with
  | nil => rfl
  | cons word list ih =>
      obtain ⟨first, others⟩ := List.forall_mem_cons.mp each
      cases list with
      | nil => rw [unwords_singleton, words_of_isWord first]
      | cons next rest =>
          have written : word.toList ≠ [] := mt String.toList_eq_nil_iff.mp first.written
          rw [words, unwords_cons_cons,
            wordChars_dense_append_cons written first.dense (by decide), List.map_cons,
            String.ofList_toList]
          exact congrArg (word :: ·) (ih others)

/-- Several words that are joined are not a single word. -/
theorem hasWhiteSpace_unwords (word next : String) (rest : List String) :
    hasWhiteSpace (unwords (word :: next :: rest)) = true := by
  rw [hasWhiteSpace, unwords_cons_cons, List.any_append, List.any_cons]
  simp [show isWhiteSpace ' ' = true by decide]

end PipeShell.Text
