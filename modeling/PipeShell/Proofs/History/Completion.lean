import PipeShell.History
import PipeShell.Proofs.Text.Words

/-!
# Completing what was typed

The scan over the history keeps a line only if it contains what is wanted, and it ends with one as
soon as some line does (`foldl_better_eq_none_iff`, `of_foldl_better`).  What is wanted is the typed
text without its backslashes (`wanted_of_marked`), those of the mark and all others.

So a completion need not contain what was typed: the histories agree that it does only for a text
without backslashes (`completion_contains_what_was_typed`).
-/

set_option autoImplicit false

namespace PipeShell.History

/-! ## The scan -/

section Scan

variable {wanted entry chosen : String} {entries : List String} {best : Option String}

theorem better_eq_none_iff :
    better wanted best entry = none ↔ best = none ∧ Text.contains entry wanted = false := by
  rw [better]
  split
  · next taken => simp_all
  · next refused =>
      cases best with
      | none => simpa using refused
      | some kept => simp

theorem of_better (kept : better wanted best entry = some chosen) :
    (chosen = entry ∧ Text.contains entry wanted = true) ∨ best = some chosen := by
  rw [better] at kept
  split at kept
  · next taken =>
      obtain ⟨contained, -⟩ := Bool.and_eq_true_iff.mp taken
      exact .inl ⟨(Option.some.inj kept).symm, contained⟩
  · exact .inr kept

theorem foldl_better_eq_none_iff : entries.foldl (better wanted) best = none ↔
    best = none ∧ ∀ entry ∈ entries, Text.contains entry wanted = false := by
  induction entries generalizing best with
  | nil => simp
  | cons entry entries ih =>
      rw [List.foldl_cons, ih, better_eq_none_iff, List.forall_mem_cons, and_assoc]

/-- What the scan ends with is what it began with or a line it came across. -/
theorem of_foldl_better (found : entries.foldl (better wanted) best = some chosen) :
    (chosen ∈ entries ∧ Text.contains chosen wanted = true) ∨ best = some chosen := by
  induction entries generalizing best with
  | nil => exact .inr found
  | cons entry entries ih =>
      rw [List.foldl_cons] at found
      rcases ih found with ⟨later, contained⟩ | kept
      · exact .inl ⟨List.mem_cons_of_mem _ later, contained⟩
      · rcases of_better kept with ⟨rfl, contained⟩ | before
        · exact .inl ⟨List.mem_cons_self, contained⟩
        · exact .inr before

end Scan

/-! ## Completion -/

/-- What is looked for in the history. -/
def wanted (fragment : String) : String :=
  Text.without (· = '\\') fragment

section Complete

variable {history : History} {fragment chosen : String}

theorem complete_eq_none_iff : history.complete fragment = none ↔
    wanted fragment = "" ∨
      ∀ entry ∈ history.entries, Text.contains entry (wanted fragment) = false := by
  rw [complete, ← wanted]
  by_cases empty : wanted fragment = ""
  · simp [empty]
  · rw [if_neg empty, foldl_better_eq_none_iff]
    simp [empty]

theorem of_complete (found : history.complete fragment = some chosen) :
    chosen ∈ history.entries ∧ Text.contains chosen (wanted fragment) = true := by
  rw [complete, ← wanted] at found
  split at found
  · cases found
  · rcases of_foldl_better found with ⟨member, contained⟩ | nothing
    · exact ⟨List.mem_reverse.mp member, contained⟩
    · cases nothing

theorem isSome_complete_iff : (history.complete fragment).isSome = true ↔
    wanted fragment ≠ "" ∧
      ∃ entry ∈ history.entries, (wanted fragment).toList <:+: entry.toList := by
  rw [← Option.ne_none_iff_isSome, ne_eq, complete_eq_none_iff]
  simp [← Text.contains_iff]

end Complete

/-! ## The marked line -/

/-- A line that asks for completion: the typed text, the mark, and what stands behind it. -/
def marked (typed behind : String) : String :=
  typed ++ completionMark ++ behind

section Marked

variable {typed behind : String}

/-- Trimming stops at the mark. -/
theorem trimEnd_marked (blank : Text.isBlank behind = true) :
    Text.trimEnd (marked typed behind) = typed ++ completionMark := by
  have ends : Text.trimRightChars (typed ++ completionMark).toList =
      (typed ++ completionMark).toList := by
    have visible : Text.isWhiteSpace '\\' = false := by decide
    simp [Text.trimRightChars, completionMark, visible]
  rw [Text.trimEnd, marked, String.toList_append,
    Text.trimRightChars_append_blank (Text.isBlank_iff.mp blank), ends, String.ofList_toList]

theorem wantsCompletion_marked (blank : Text.isBlank behind = true) :
    wantsCompletion (marked typed behind) = true := by
  have trimmed : (Text.trimEnd (marked typed behind)).toList = (typed ++ completionMark).toList :=
    congrArg String.toList (trimEnd_marked blank)
  rw [Text.trimEnd, String.toList_ofList] at trimmed
  rw [wantsCompletion, trimmed, String.toList_append, List.reverse_append,
    List.isPrefixOf_iff_prefix]
  exact List.prefix_append _ _

/-- The mark is taken off by its character, which takes that character from the typed text too. -/
theorem wanted_of_marked : wanted (typed ++ completionMark) = wanted typed := by
  simp [wanted, Text.without, completionMark]

theorem wanted_sublist : (wanted typed).toList.Sublist typed.toList := by
  rw [wanted, Text.without, String.toList_ofList]
  exact List.filter_sublist

theorem wanted_eq_self_iff : wanted typed = typed ↔ '\\' ∉ typed.toList := by
  rw [← String.toList_inj, wanted, Text.without, String.toList_ofList, List.filter_eq_self]
  constructor
  · intro kept present
    have absent := kept '\\' present
    simp at absent
  · intro absent c member
    have different : c ≠ '\\' := fun same => absent (same ▸ member)
    simp [different]

end Marked

/-! ## The typed text -/

/-- There is a completion just when some line contains the typed text, and it contains that text. -/
def Honors (history : History) (typed behind : String) : Prop :=
  let offered := history.complete (Text.trimEnd (marked typed behind))
  (offered.isSome = true ↔ ∃ entry ∈ history.entries, typed.toList <:+: entry.toList) ∧
    ∀ chosen, offered = some chosen → typed.toList <:+: chosen.toList

section Typed

variable {typed behind : String}

theorem honors_of_notMem (blank : Text.isBlank behind = true) (written : typed ≠ "")
    (absent : '\\' ∉ typed.toList) (history : History) : history.Honors typed behind := by
  have whole : wanted (typed ++ completionMark) = typed :=
    wanted_of_marked.trans (wanted_eq_self_iff.mpr absent)
  rw [Honors, trimEnd_marked blank]
  constructor
  · rw [isSome_complete_iff, whole, and_iff_right written]
  · intro chosen found
    have contained := (of_complete found).2
    rwa [whole, Text.contains_iff] at contained

/-- A history of one line tells a typed text with a backslash from what is looked for. -/
theorem notMem_of_honors (blank : Text.isBlank behind = true)
    (honored : ∀ history : History, history.Honors typed behind) : '\\' ∉ typed.toList := by
  simp only [Honors, trimEnd_marked blank, isSome_complete_iff, wanted_of_marked] at honored
  by_cases empty : wanted typed = ""
  · obtain ⟨answered, -⟩ := honored ⟨[typed]⟩
    have written := (answered.mpr ⟨typed, List.mem_singleton_self _, List.infix_rfl⟩).1
    exact absurd empty written
  · obtain ⟨answered, -⟩ := honored ⟨[wanted typed]⟩
    obtain ⟨entry, member, within⟩ :=
      answered.mp ⟨empty, wanted typed, List.mem_singleton_self _, List.infix_rfl⟩
    obtain rfl := List.mem_singleton.mp member
    have same := wanted_sublist.antisymm within.sublist
    exact wanted_eq_self_iff.mp (String.toList_inj.mp same)

/-- A line that ends in the mark asks for completion, and its completion is some earlier line that
contains the typed text without its backslashes, as long as there is one and something is left of
the text.  That is completion of the typed text itself, whatever the history, just when the text has
no backslash. -/
theorem completion_contains_what_was_typed (written : typed ≠ "")
    (blank : Text.isBlank behind = true) :
    wantsCompletion (marked typed behind) = true ∧
      (∀ history : History,
        let offered := history.complete (Text.trimEnd (marked typed behind))
        (offered.isSome = true ↔ wanted typed ≠ "" ∧
          ∃ entry ∈ history.entries, (wanted typed).toList <:+: entry.toList) ∧
        ∀ chosen, offered = some chosen →
          chosen ∈ history.entries ∧ (wanted typed).toList <:+: chosen.toList) ∧
      ((∀ history : History, history.Honors typed behind) ↔ '\\' ∉ typed.toList) := by
  refine ⟨wantsCompletion_marked blank, fun history => ?_, ?_⟩
  · rw [trimEnd_marked blank]
    constructor
    · rw [isSome_complete_iff, wanted_of_marked]
    · intro chosen found
      obtain ⟨member, contained⟩ := of_complete found
      rw [wanted_of_marked, Text.contains_iff] at contained
      exact ⟨member, contained⟩
  · constructor
    · exact notMem_of_honors blank
    · exact honors_of_notMem blank written

end Typed

theorem completion_contains_what_was_typed_gre :
    "gre" ≠ "" ∧ Text.isBlank "  " = true ∧ wantsCompletion (marked "gre" "  ") = true ∧
      ∀ history : History, history.Honors "gre" "  " := by
  have written : "gre" ≠ "" := by decide
  have blank : Text.isBlank "  " = true := by decide
  have absent : '\\' ∉ "gre".toList := by decide
  obtain ⟨asks, -, whole⟩ := completion_contains_what_was_typed written blank
  exact ⟨written, blank, asks, whole.mpr absent⟩

/-- A line that contains what was typed is passed over for a longer one that does not. -/
theorem completion_offers_another_command :
    let history : History := ⟨["echo a\\tb", "echo atbcd"]⟩
    history.complete (Text.trimEnd (marked "a\\tb" "")) = some "echo atbcd" ∧
      ¬ history.Honors "a\\tb" "" := by
  intro history
  have offered : history.complete (Text.trimEnd (marked "a\\tb" "")) = some "echo atbcd" := by
    decide +kernel
  have apart : Text.contains "echo atbcd" "a\\tb" = false := by decide +kernel
  refine ⟨offered, fun honored => ?_⟩
  rw [Text.contains_iff.mpr (honored.2 _ offered)] at apart
  cases apart

end PipeShell.History
