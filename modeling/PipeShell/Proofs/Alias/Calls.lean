import PipeShell.Proofs.Alias.Chains

/-!
# Tables that were built by calls

A table changes by definitions and removals alone.  `Sound` is what both preserve, whatever order
they come in (`sound_afterAll`): names are words, values are trimmed and hold a word, and first
words never lead back.  On a sound table a definition is refused for a cycle just when it would make
one (`addsExactly_of_sound`).
-/

set_option autoImplicit false

namespace PipeShell.AliasTable

open Relation (ReflTransGen)

variable {t t' full : AliasTable} {name value : String}

/-! ## Calls -/

/-- A call that may change a table. -/
inductive Call where
  | add (name value : String)
  | remove (name : String)

/-- The table after a call.  A call that is refused, or finds nothing to remove, leaves it. -/
def after (t : AliasTable) : Call → AliasTable
  | .add name value =>
    match t.add name value with
    | .ok t' => t'
    | .error _ => t
  | .remove name => (t.remove name).getD t

def afterAll (t : AliasTable) (calls : List Call) : AliasTable :=
  calls.foldl after t

theorem afterAll_append (t : AliasTable) (first second : List Call) :
    t.afterAll (first ++ second) = (t.afterAll first).afterAll second :=
  List.foldl_append

theorem after_of_add (added : t.add name value = .ok t') : t.after (.add name value) = t' := by
  rw [after, added]

theorem after_of_refused {cause : BuiltinError} (refused : t.add name value = .error cause) :
    t.after (.add name value) = t := by
  rw [after, refused]

theorem after_of_remove (removed : t.remove name = some t') : t.after (.remove name) = t' := by
  rw [after, removed, Option.getD_some]

/-! ## What the calls come to -/

theorem isValidName_eq_true_iff :
    isValidName name = true ↔ name ≠ "" ∧ Text.hasWhiteSpace name = false := by
  simp [isValidName]

/-- A valid name and a value with a word in it are refused for nothing but a cycle. -/
theorem add_of_valid (valid : isValidName name = true) (written : Text.isBlank value = false) :
    t.add name value = if t.reaches name [] (Text.firstWord value) = true then
      .error (.aliasCycle name) else .ok (t.define name value) := by
  rw [add, valid, written]
  rfl

theorem add_eq_ok_iff : t.add name value = .ok t' ↔
    isValidName name = true ∧ Text.isBlank value = false ∧
      ¬ ReflTransGen t.Leads (Text.firstWord value) name ∧ t.define name value = t' := by
  rw [← reaches_eq_true_iff]
  cases valid : isValidName name with
  | false => simp [add, valid]
  | true =>
      cases written : Text.isBlank value with
      | true => simp [add, valid, written]
      | false =>
          rw [add_of_valid valid written]
          split <;> simp_all

theorem remove_eq_some_iff :
    t.remove name = some t' ↔ t.get? name ≠ none ∧ t.undefine name = t' := by
  rw [remove]
  cases t.get? name with
  | none => simp
  | some value => simp [undefine]

/-! ## Soundness -/

structure Sound (t : AliasTable) : Prop where
  named : ∀ name value, t.get? name = some value → name ≠ "" ∧ Text.hasWhiteSpace name = false
  valued : ∀ name value, t.get? name = some value →
    Text.trim value = value ∧ Text.isBlank value = false
  acyclic : ¬ t.HasCycle

theorem Sound.within (sound : full.Sound) (within : Within t full) : t.Sound where
  named name value bound := sound.named name value (within name value bound)
  valued name value bound := sound.valued name value (within name value bound)
  acyclic cycle := sound.acyclic (within.hasCycle cycle)

theorem Sound.isValidName (sound : t.Sound) (bound : t.get? name = some value) :
    AliasTable.isValidName name = true :=
  isValidName_eq_true_iff.mpr (sound.named name value bound)

theorem sound_empty : empty.Sound where
  named _ _ bound := by cases bound
  valued _ _ bound := by cases bound
  acyclic := by
    rintro ⟨word, around⟩
    obtain ⟨next, ⟨value, bound, -⟩, -⟩ := Relation.TransGen.head'_iff.mp around
    cases bound

theorem sound_define (sound : t.Sound) (valid : isValidName name = true)
    (written : Text.isBlank value = false)
    (apart : ¬ ReflTransGen t.Leads (Text.firstWord value) name) : (t.define name value).Sound where
  named word found bound := by
    rw [get?_define] at bound
    split at bound
    · next here => exact here ▸ isValidName_eq_true_iff.mp valid
    · exact sound.named word found bound
  valued word found bound := by
    rw [get?_define] at bound
    split at bound
    · obtain rfl := Option.some.inj bound
      exact ⟨Text.trim_trim value, (Text.isBlank_trim value).trans written⟩
    · exact sound.valued word found bound
  acyclic := (hasCycle_define_iff sound.acyclic).not.mpr apart

theorem sound_after (sound : t.Sound) (call : Call) : (t.after call).Sound := by
  cases call with
  | add name value =>
      cases outcome : t.add name value with
      | error cause => rwa [after_of_refused outcome]
      | ok t' =>
          obtain ⟨valid, written, apart, rfl⟩ := add_eq_ok_iff.mp outcome
          rw [after_of_add outcome]
          exact sound_define sound valid written apart
  | remove name =>
      cases outcome : t.remove name with
      | none => rwa [after, outcome, Option.getD_none]
      | some t' =>
          obtain ⟨-, rfl⟩ := remove_eq_some_iff.mp outcome
          rw [after_of_remove outcome]
          exact sound.within (within_undefine t name)

theorem sound_afterAll (sound : t.Sound) (calls : List Call) : (t.afterAll calls).Sound := by
  induction calls generalizing t with
  | nil => exact sound
  | cons call calls ih => exact ih (sound_after sound call)

/-! ## Building a table again -/

/-- Part of a sound table takes in any other definition of that table, just as it stands there. -/
theorem add_of_within (sound : full.Sound) (within : Within t full)
    (bound : full.get? name = some value) :
    t.add name value = .ok (t.define name value) ∧ Within (t.define name value) full := by
  obtain ⟨trimmed, written⟩ := sound.valued name value bound
  constructor
  · refine add_eq_ok_iff.mpr ⟨sound.isValidName bound, written, fun back => ?_, rfl⟩
    have first : full.Leads name (Text.firstWord value) := (leads_iff_of_get? bound).mpr rfl
    have around : ReflTransGen full.Leads (Text.firstWord value) name :=
      ReflTransGen.mono (fun _ _ step => within.leads step) _ _ back
    exact sound.acyclic ⟨name, .head' first around⟩
  · intro word found defined
    rw [get?_define] at defined
    split at defined
    · next here =>
        rw [here, bound, ← defined, trimmed]
    · exact within word found defined

/-- Defines one name after the other, up to the first definition that is refused. -/
def addAll (t : AliasTable) (entries : List (String × String)) : Except BuiltinError AliasTable :=
  entries.foldlM (fun t entry => t.add entry.1 entry.2) t

theorem addAll_of_within {entries : List (String × String)} (sound : full.Sound)
    (within : Within t full) (bound : ∀ entry ∈ entries, full.get? entry.1 = some entry.2) :
    ∃ t', t.addAll entries = .ok t' ∧ Within t' full ∧ Within t t' ∧
      ∀ entry ∈ entries, t'.get? entry.1 = some entry.2 := by
  induction entries generalizing t with
  | nil => exact ⟨t, rfl, within, fun _ _ bound => bound, fun _ member => by cases member⟩
  | cons entry entries ih =>
      obtain ⟨name, value⟩ := entry
      have here : full.get? name = some value := bound (name, value) List.mem_cons_self
      obtain ⟨added, within'⟩ := add_of_within sound within here
      obtain ⟨t', others, within'', kept, rest⟩ :=
        ih within' fun entry member => bound entry (List.mem_cons_of_mem _ member)
      have defined : (t.define name value).get? name = some value := by
        rw [get?_define, if_pos rfl, (sound.valued name value here).1]
      refine ⟨t', ?_, within'', ?_, List.forall_mem_cons.mpr ⟨kept name value defined, rest⟩⟩
      · rw [addAll, List.foldlM_cons, added]
        exact others
      · intro word found bound'
        -- a name that was there already has the value that it is given again
        by_cases same : word = name
        · subst same
          obtain rfl := Option.some.inj (here.symm.trans (within word found bound'))
          exact kept word value defined
        · exact kept word found (by rwa [get?_define, if_neg same])

/-- The definitions of a sound table, taken in the order of the names, build the table again. -/
theorem addAll_toList (sound : full.Sound) : empty.addAll full.toList = .ok full := by
  have nothing : Within empty full := fun _ _ bound => by cases bound
  have bound : ∀ entry ∈ full.toList, full.get? entry.1 = some entry.2 :=
    fun _ member => Dictionary.mem_entries_iff.mp member
  obtain ⟨t', added, within, -, rebuilt⟩ := addAll_of_within sound nothing bound
  have same : t' = full := by
    refine ext_get? fun name => ?_
    cases found : full.get? name with
    | some value => exact rebuilt (name, value) (Dictionary.mem_entries_iff.mpr found)
    | none =>
        cases bound : t'.get? name with
        | none => rfl
        | some value => rw [← found, within name value bound]
  rw [added, same]

/-! ## Definitions on sound tables -/

/-- A definition is refused just when it would make a cycle; else it gives the table with the name
bound to the value, and nothing else changed. -/
structure AddsExactly (t : AliasTable) (name value : String) : Prop where
  refused : t.add name value = .error (.aliasCycle name) ↔ (t.define name value).HasCycle
  accepted : ∀ t', t.add name value = .ok t' ↔
    ¬ (t.define name value).HasCycle ∧ t' = t.define name value
  bound : ∀ word, (t.define name value).get? word =
    if word = name then some (Text.trim value) else t.get? word
  taken : ∀ t', t.add name value = .ok t' → t.after (.add name value) = t'
  kept : ∀ cause, t.add name value = .error cause → t.after (.add name value) = t

theorem addsExactly_of_sound (sound : t.Sound) (valid : isValidName name = true)
    (written : Text.isBlank value = false) : AddsExactly t name value where
  refused := by
    rw [add_of_valid valid written, hasCycle_define_iff sound.acyclic, ← reaches_eq_true_iff]
    split <;> simp_all
  accepted t' := by
    rw [add_eq_ok_iff, hasCycle_define_iff sound.acyclic, eq_comm (a := t')]
    exact ⟨fun ⟨_, _, apart, same⟩ => ⟨apart, same⟩, fun ⟨apart, same⟩ =>
      ⟨valid, written, apart, same⟩⟩
  bound := get?_define t name value
  taken _ := after_of_add
  kept _ := after_of_refused

end PipeShell.AliasTable
