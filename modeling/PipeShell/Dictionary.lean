/-!
# Finite maps from strings, in ascending order

A `Dictionary` holds its entries strictly ascending by key, so two dictionaries
that answer every look-up alike are equal (`Dictionary.ext_get?`), and listing
one gives the order in which the shell prints and saves names.  Strings are
ordered by code point, which is also the order of their UTF-8 bytes.

Each operation is known by what it does to `get?`: `get?_empty`, `get?_insert`
and `get?_erase`.
-/

set_option autoImplicit false

namespace PipeShell

/-- Entries strictly ascending by key. -/
def Ascending {α : Type} (entries : List (String × α)) : Prop :=
  entries.Pairwise fun a b => a.1 < b.1

structure Dictionary (α : Type) where
  entries : List (String × α)
  ascending : Ascending entries

namespace Dictionary

variable {α : Type}

/-! ## Operations -/

def empty : Dictionary α := ⟨[], List.Pairwise.nil⟩

instance : Inhabited (Dictionary α) := ⟨empty⟩

instance : EmptyCollection (Dictionary α) := ⟨empty⟩

def get? (d : Dictionary α) (key : String) : Option α :=
  d.entries.lookup key

def keys (d : Dictionary α) : List String :=
  d.entries.map Prod.fst

def toList (d : Dictionary α) : List (String × α) :=
  d.entries

/-- Binds `key` at its place, in the place of an older binding. -/
def insertEntry (key : String) (value : α) : List (String × α) → List (String × α)
  | [] => [(key, value)]
  | entry :: rest =>
    if key < entry.1 then (key, value) :: entry :: rest
    else if key = entry.1 then (key, value) :: rest
    else entry :: insertEntry key value rest

theorem mem_insertEntry {key : String} {value : α} {entries : List (String × α)}
    {entry : String × α} (h : entry ∈ insertEntry key value entries) :
    entry = (key, value) ∨ entry ∈ entries := by
  induction entries with
  | nil => simpa [insertEntry] using h
  | cons first rest ih =>
    simp only [insertEntry] at h
    split at h
    · simpa using h
    · split at h
      · rcases List.mem_cons.1 h with h | h
        · exact .inl h
        · exact .inr (List.mem_cons_of_mem _ h)
      · rcases List.mem_cons.1 h with h | h
        · exact .inr (h ▸ List.mem_cons_self)
        · exact (ih h).imp_right (List.mem_cons_of_mem _)

theorem ascending_insertEntry {key : String} {value : α} {entries : List (String × α)}
    (h : Ascending entries) : Ascending (insertEntry key value entries) := by
  induction entries with
  | nil => simp [insertEntry, Ascending]
  | cons first rest ih =>
    obtain ⟨hfirst, hrest⟩ := List.pairwise_cons.1 h
    simp only [insertEntry]
    split
    · next hlt =>
      refine List.pairwise_cons.2 ⟨fun entry hmem => ?_, h⟩
      rcases List.mem_cons.1 hmem with rfl | hmem
      · exact hlt
      · exact String.lt_trans hlt (hfirst entry hmem)
    · next hge =>
      split
      · next heq => exact List.pairwise_cons.2 ⟨fun entry hmem => heq ▸ hfirst entry hmem, hrest⟩
      · next hne =>
        refine List.pairwise_cons.2 ⟨fun entry hmem => ?_, ih hrest⟩
        rcases mem_insertEntry hmem with rfl | hmem
        · exact (Std.lt_trichotomy key first.1).resolve_left hge |>.resolve_left hne
        · exact hfirst entry hmem

def insert (d : Dictionary α) (key : String) (value : α) : Dictionary α :=
  ⟨insertEntry key value d.entries, ascending_insertEntry d.ascending⟩

def erase (d : Dictionary α) (key : String) : Dictionary α :=
  ⟨d.entries.filter fun entry => entry.1 ≠ key, d.ascending.filter _⟩

/-- The later of two bindings of one key stands. -/
def ofList (entries : List (String × α)) : Dictionary α :=
  entries.foldl (fun d entry => d.insert entry.1 entry.2) empty

/-! ## What look-ups see -/

@[simp]
theorem get?_empty (key : String) : (empty : Dictionary α).get? key = none := rfl

theorem lookup_cons_ite (key : String) (first : String × α) (rest : List (String × α)) :
    (first :: rest).lookup key = if key = first.1 then some first.2 else rest.lookup key := by
  obtain ⟨name, value⟩ := first
  by_cases h : key = name
  · simp [h]
  · simp [List.lookup_cons, beq_eq_false_iff_ne.2 h, h]

theorem lookup_insertEntry (key other : String) (value : α) (entries : List (String × α)) :
    (insertEntry key value entries).lookup other =
      if other = key then some value else entries.lookup other := by
  induction entries with
  | nil => rw [insertEntry, lookup_cons_ite, List.lookup_nil]
  | cons first rest ih =>
    simp only [insertEntry]
    split
    · rw [lookup_cons_ite]
    · split
      · next heq =>
        rw [lookup_cons_ite, lookup_cons_ite]
        by_cases h : other = key
        · simp [h]
        · have : other ≠ first.1 := fun e => h (e.trans heq.symm)
          simp [h, this]
      · next hne =>
        rw [lookup_cons_ite, lookup_cons_ite, ih]
        by_cases h : other = first.1
        · have : other ≠ key := fun e => hne (e.symm.trans h)
          rw [if_pos h, if_neg this, if_pos h]
        · simp [h]

/-- An insertion changes the look-up of its own key only. -/
@[simp]
theorem get?_insert (d : Dictionary α) (key other : String) (value : α) :
    (d.insert key value).get? other = if other = key then some value else d.get? other :=
  lookup_insertEntry key other value d.entries

theorem lookup_filter_ne (key other : String) (entries : List (String × α)) :
    (entries.filter fun entry => entry.1 ≠ key).lookup other =
      if other = key then none else entries.lookup other := by
  induction entries with
  | nil => simp
  | cons first rest ih =>
    rw [lookup_cons_ite]
    by_cases hf : first.1 = key
    · rw [List.filter_cons_of_neg (by simpa using hf), ih]
      by_cases h : other = key
      · simp [h]
      · have : other ≠ first.1 := fun e => h (e.trans hf)
        simp [h, this]
    · rw [List.filter_cons_of_pos (by simpa using hf), lookup_cons_ite, ih]
      by_cases h : other = first.1
      · have : other ≠ key := fun e => hf (h.symm.trans e)
        rw [if_pos h, if_neg this, if_pos h]
      · simp [h]

/-- An erasure unbinds its own key only. -/
@[simp]
theorem get?_erase (d : Dictionary α) (key other : String) :
    (d.erase key).get? other = if other = key then none else d.get? other :=
  lookup_filter_ne key other d.entries

theorem mem_of_get? {d : Dictionary α} {key : String} {value : α} (h : d.get? key = some value) :
    (key, value) ∈ d.entries := by
  unfold get? at h
  generalize d.entries = entries at h
  induction entries with
  | nil => simp at h
  | cons first rest ih =>
    rw [lookup_cons_ite] at h
    split at h
    · next heq =>
      obtain rfl := Option.some.inj h
      exact heq ▸ List.mem_cons_self
    · exact List.mem_cons_of_mem _ (ih h)

theorem mem_keys_of_get? {d : Dictionary α} {key : String} {value : α}
    (h : d.get? key = some value) : key ∈ d.keys :=
  List.mem_map.2 ⟨_, mem_of_get? h, rfl⟩

theorem lookup_of_ascending {entries : List (String × α)} (h : Ascending entries)
    {entry : String × α} (hmem : entry ∈ entries) : entries.lookup entry.1 = some entry.2 := by
  induction entries with
  | nil => simp at hmem
  | cons first rest ih =>
    obtain ⟨hfirst, hrest⟩ := List.pairwise_cons.1 h
    rcases List.mem_cons.1 hmem with rfl | hmem
    · rw [lookup_cons_ite, if_pos rfl]
    · have hne : entry.1 ≠ first.1 := fun e => String.lt_irrefl _ (e ▸ hfirst entry hmem)
      rw [lookup_cons_ite, if_neg hne, ih hrest hmem]

theorem mem_entries_iff {d : Dictionary α} {key : String} {value : α} :
    (key, value) ∈ d.entries ↔ d.get? key = some value :=
  ⟨fun h => lookup_of_ascending d.ascending h, mem_of_get?⟩

theorem eq_of_ascending : ∀ {left right : List (String × α)}, Ascending left → Ascending right →
    (∀ entry, entry ∈ left ↔ entry ∈ right) → left = right
  | [], [], _, _, _ => rfl
  | [], b :: _, _, _, h => absurd ((h b).2 List.mem_cons_self) (by simp)
  | a :: _, [], _, _, h => absurd ((h a).1 List.mem_cons_self) (by simp)
  | a :: as, b :: bs, ha, hb, h => by
    obtain ⟨hfa, hra⟩ := List.pairwise_cons.1 ha
    obtain ⟨hfb, hrb⟩ := List.pairwise_cons.1 hb
    have hab : a = b := by
      rcases List.mem_cons.1 ((h a).1 List.mem_cons_self) with rfl | hain
      · rfl
      · rcases List.mem_cons.1 ((h b).2 List.mem_cons_self) with rfl | hbin
        · rfl
        · exact absurd (String.lt_trans (hfb a hain) (hfa b hbin)) (String.lt_irrefl _)
    subst hab
    refine congrArg _ (eq_of_ascending hra hrb fun entry => ⟨fun hin => ?_, fun hin => ?_⟩)
    · refine (List.mem_cons.1 ((h entry).1 (List.mem_cons_of_mem _ hin))).resolve_left ?_
      rintro rfl
      exact String.lt_irrefl _ (hfa _ hin)
    · refine (List.mem_cons.1 ((h entry).2 (List.mem_cons_of_mem _ hin))).resolve_left ?_
      rintro rfl
      exact String.lt_irrefl _ (hfb _ hin)

/-- Dictionaries that answer every look-up alike are equal. -/
theorem ext_get? {d e : Dictionary α} (h : ∀ key, d.get? key = e.get? key) : d = e := by
  have hentries : d.entries = e.entries :=
    eq_of_ascending d.ascending e.ascending fun ⟨key, value⟩ => by
      rw [mem_entries_iff, mem_entries_iff, h]
  cases d; cases e; simp_all

instance [DecidableEq α] : DecidableEq (Dictionary α) := fun d e =>
  if h : d.entries = e.entries then
    isTrue (by cases d; cases e; simp_all)
  else isFalse fun heq => h (heq ▸ rfl)

end Dictionary

end PipeShell
