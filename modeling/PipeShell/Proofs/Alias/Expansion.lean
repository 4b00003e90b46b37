import PipeShell.Proofs.Alias.Calls

/-!
# What a name stands for

`StandsFor` defines the words of a name by recursion: a name that is no alias stands for itself, and
an alias for what the first word of its value stands for, followed by the other words of the value.
On a table that was built by calls, expanding a name gives just these words
(`expand_gives_what_stands`).  It never comes back to a name, so it never has to stop.
-/

set_option autoImplicit false

namespace PipeShell.AliasTable

open Relation (TransGen)

variable {t : AliasTable} {name value : String} {words : List String}

/-! ## The definition -/

inductive StandsFor (t : AliasTable) : String → List String → Prop
  | itself {name : String} (unbound : t.get? name = none) : StandsFor t name [name]
  | through {name value : String} {words : List String} (bound : t.get? name = some value)
      (first : StandsFor t (Text.firstWord value) words) :
      StandsFor t name (words ++ (Text.words value).tail)

/-- A name stands for one list of words only. -/
theorem StandsFor.unique (stands : StandsFor t name words) {other : List String}
    (stands' : StandsFor t name other) : other = words := by
  induction stands generalizing other with
  | itself unbound =>
      cases stands' with
      | itself => rfl
      | through bound =>
          rw [unbound] at bound
          cases bound
  | through bound _ ih =>
      cases stands' with
      | itself unbound =>
          rw [unbound] at bound
          cases bound
      | through bound' first =>
          obtain rfl := Option.some.inj (bound.symm.trans bound')
          rw [ih first]

/-- The first of the words is no alias. -/
theorem StandsFor.head (stands : StandsFor t name words) :
    ∃ first rest, words = first :: rest ∧ t.get? first = none := by
  induction stands with
  | itself unbound => exact ⟨_, [], rfl, unbound⟩
  | @through name value words bound _ ih =>
      obtain ⟨first, rest, rfl, unbound⟩ := ih
      exact ⟨first, rest ++ (Text.words value).tail, rfl, unbound⟩

theorem Sound.isWord_firstWord (sound : t.Sound) (bound : t.get? name = some value) :
    Text.IsWord (Text.firstWord value) := by
  have first : Text.firstWord value ∈ Text.words value := by
    rw [Text.words_eq_cons (sound.valued name value bound).2]
    exact List.mem_cons_self
  exact Text.isWord_of_mem first

/-- All of the words are words, if the name is one. -/
theorem StandsFor.isWord (stands : StandsFor t name words) (sound : t.Sound)
    (isWord : Text.IsWord name) : ∀ word ∈ words, Text.IsWord word := by
  induction stands with
  | itself _ => exact List.forall_mem_singleton.mpr isWord
  | through bound _ ih =>
      intro word member
      rcases List.mem_append.mp member with first | others
      · exact ih (sound.isWord_firstWord bound) word first
      · exact Text.isWord_of_mem (List.mem_of_mem_tail others)

/-! ## Expansion -/

section Following

variable {seen rest : List String} {word : String}

theorem follow_of_unbound (unbound : t.get? word = none) :
    t.follow seen (word :: rest) = { words := word :: rest } := by
  rw [follow]
  split
  · rfl
  · next bound =>
      rw [unbound] at bound
      cases bound

theorem follow_of_seen (bound : t.get? word = some value) (again : word ∈ seen) :
    t.follow seen (word :: rest) = { words := word :: rest, loopAt := some word } := by
  rw [follow]
  split
  · next unbound =>
      rw [bound] at unbound
      cases unbound
  · rw [dif_pos again]

theorem follow_of_new (bound : t.get? word = some value) (new : word ∉ seen) :
    t.follow seen (word :: rest) = t.follow (word :: seen) (Text.words value ++ rest) := by
  rw [follow]
  split
  · next unbound =>
      rw [bound] at unbound
      cases unbound
  · next bound' =>
      obtain rfl := Option.some.inj (bound.symm.trans bound')
      rw [dif_neg new]

end Following

/-- From a word on, following the first words gives what stands for the word.  The names that were
passed all led here, so meeting one of them again would be a cycle. -/
theorem follow_of_sound (sound : t.Sound) {seen list : List String} {word : String}
    {rest : List String} (shape : list = word :: rest)
    (passed : ∀ old ∈ seen, TransGen t.Leads old word) :
    ∃ words, StandsFor t word words ∧ t.follow seen list = { words := words ++ rest } := by
  fun_induction follow t seen list generalizing word rest with
  | case1 => cases shape
  | case2 seen here behind unbound =>
      cases shape
      exact ⟨[here], .itself unbound, rfl⟩
  | case3 seen here behind value bound again =>
      cases shape
      exact absurd ⟨here, passed here again⟩ sound.acyclic
  | case4 seen here behind value bound new ih =>
      cases shape
      have next : t.Leads here (Text.firstWord value) := (leads_iff_of_get? bound).mpr rfl
      have shape : Text.words value ++ behind =
          Text.firstWord value :: ((Text.words value).tail ++ behind) := by
        rw [← List.cons_append, ← Text.words_eq_cons (sound.valued here value bound).2]
      have passed' : ∀ old ∈ here :: seen, TransGen t.Leads old (Text.firstWord value) := by
        intro old member
        rcases List.mem_cons.mp member with rfl | member
        · exact .single next
        · exact (passed old member).tail next
      obtain ⟨words, stands, follows⟩ := ih shape passed'
      refine ⟨words ++ (Text.words value).tail, .through bound stands, ?_⟩
      rw [follows, List.append_assoc]

theorem expansion_of_sound (sound : t.Sound) (name : String) :
    ∃ words, StandsFor t name words ∧ t.expansion name = { words } := by
  have passed : ∀ old ∈ ([] : List String), TransGen t.Leads old name :=
    fun _ member => by cases member
  obtain ⟨words, stands, follows⟩ := follow_of_sound sound rfl passed
  exact ⟨words, stands, by rw [expansion, follows, List.append_nil]⟩

theorem Sound.words_expand (sound : t.Sound) (isWord : Text.IsWord name) :
    StandsFor t name (Text.words (t.expand name)) := by
  obtain ⟨words, stands, expansion⟩ := expansion_of_sound sound name
  rw [expand, expansion, Text.words_unwords (stands.isWord sound isWord)]
  exact stands

/-- Expansion takes one step from an alias to its value. -/
theorem Sound.words_expand_of_get? (sound : t.Sound) (bound : t.get? name = some value) :
    Text.words (t.expand name) =
      Text.words (t.expand (Text.firstWord value)) ++ (Text.words value).tail := by
  obtain ⟨nonempty, unspaced⟩ := sound.named name value bound
  have isWord : Text.IsWord name := ⟨nonempty, Text.hasWhiteSpace_eq_false_iff.mp unspaced⟩
  have first := sound.words_expand (sound.isWord_firstWord bound)
  exact (StandsFor.through bound first).unique (sound.words_expand isWord)

/-- What is no alias is left as it is. -/
theorem expand_of_unbound (unbound : t.get? name = none) : t.expand name = name := by
  rw [expand, expansion, follow_of_unbound unbound, Text.unwords_singleton]

theorem Sound.unbound_of_spaced (sound : t.Sound) (spaced : Text.hasWhiteSpace name = true) :
    t.get? name = none := by
  cases bound : t.get? name with
  | none => rfl
  | some value =>
      rw [(sound.named name value bound).2] at spaced
      cases spaced

/-- Joined words that begin with no alias are no alias. -/
theorem Sound.unbound_unwords (sound : t.Sound) {first : String} (unbound : t.get? first = none)
    (rest : List String) : t.get? (Text.unwords (first :: rest)) = none := by
  cases rest with
  | nil => rwa [Text.unwords_singleton]
  | cons next rest => exact sound.unbound_of_spaced (Text.hasWhiteSpace_unwords first next rest)

theorem Sound.unbound_empty (sound : t.Sound) : t.get? "" = none := by
  cases bound : t.get? "" with
  | none => rfl
  | some value => exact absurd rfl (sound.named "" value bound).1

/-- How a name expands, in all respects. -/
structure ExpandsAsDefined (t : AliasTable) (name : String) : Prop where
  defined : ∃ words, (∀ other, StandsFor t name other ↔ other = words) ∧
    t.expand name = Text.unwords words
  quiet : (t.expansion name).warnings = []
  /-- The first word of the result is no alias. -/
  final : t.get? (Text.firstWord (t.expand name)) = none
  stable : t.expand (t.expand name) = t.expand name

/-- Expanding a name gives what it stands for, on every table that was built by calls. -/
theorem expand_gives_what_stands (calls : List Call) (name : String)
    (unspaced : Text.hasWhiteSpace name = false) :
    ExpandsAsDefined (empty.afterAll calls) name := by
  have sound : (empty.afterAll calls).Sound := sound_afterAll sound_empty calls
  obtain ⟨words, stands, expansion⟩ := expansion_of_sound sound name
  have expanded : (empty.afterAll calls).expand name = Text.unwords words := by
    rw [expand, expansion]
  obtain ⟨first, rest, rfl, unbound⟩ := stands.head
  refine ⟨⟨first :: rest, fun other => ⟨stands.unique, fun same => same ▸ stands⟩, expanded⟩,
    by rw [expansion]; rfl, ?_, ?_⟩
  · rw [expanded]
    by_cases nameless : name = ""
    -- nothing stands for the empty name but itself, and it has no first word
    · subst nameless
      have alone := stands.unique (.itself sound.unbound_empty)
      rw [← alone, Text.unwords_singleton]
      exact sound.unbound_empty
    · have isWord : Text.IsWord name :=
        ⟨nameless, Text.hasWhiteSpace_eq_false_iff.mp unspaced⟩
      rw [Text.firstWord, Text.words_unwords (stands.isWord sound isWord), List.headD_cons]
      exact unbound
  · rw [expanded]
    exact expand_of_unbound (sound.unbound_unwords unbound rest)

theorem expand_gives_what_stands_for_ll :
    Text.hasWhiteSpace "ll" = false ∧
      ExpandsAsDefined (empty.afterAll [.add "ls" "exa --color", .add "ll" "ls -l"]) "ll" :=
  ⟨by decide, expand_gives_what_stands _ "ll" (by decide)⟩

end PipeShell.AliasTable
