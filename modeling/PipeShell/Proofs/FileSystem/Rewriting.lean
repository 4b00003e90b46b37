import PipeShell.Machine

/-!
# Files that are written and read again

Making a file, or emptying and writing one, loses no entry of a directory and touches no link
(`Extends`), so a path along which a file was opened for writing leads to that file from then on
(`find_of_recreate`).  What is written to a regular file as a whole is therefore what is read from
it (`Machine.readWhole_of_writeWhole`).
-/

set_option autoImplicit false

namespace PipeShell

namespace FileSystem

variable {fs fs₁ fs₂ : FileSystem} {here id mode : Nat} {path : Bytes} {place : Place}

/-! ## Growth -/

/-- Everything a path can pass in `fs` is there in `fs₁`: directories with all of their entries, and
the same links. -/
structure Extends (fs fs₁ : FileSystem) : Prop where
  directory : ∀ id parent entries removed, fs.node? id = some (.directory parent entries removed) →
    ∃ entries₁, fs₁.node? id = some (.directory parent entries₁ removed) ∧
      ∀ name child, entries.lookup name = some child → entries₁.lookup name = some child
  link : ∀ id target, fs₁.node? id = some (.link target) ↔ fs.node? id = some (.link target)

namespace Extends

theorem refl (fs : FileSystem) : Extends fs fs :=
  ⟨fun _ _ entries _ found => ⟨entries, found, fun _ _ entry => entry⟩, fun _ _ => Iff.rfl⟩

theorem trans (first : Extends fs fs₁) (second : Extends fs₁ fs₂) : Extends fs fs₂ where
  directory id parent entries removed found := by
    obtain ⟨entries₁, found₁, kept₁⟩ := first.directory id parent entries removed found
    obtain ⟨entries₂, found₂, kept₂⟩ := second.directory id parent entries₁ removed found₁
    exact ⟨entries₂, found₂, fun name child entry => kept₂ name child (kept₁ name child entry)⟩
  link id target := (second.link id target).trans (first.link id target)

end Extends

theorem lt_size_of_node? {node : Node} (found : fs.node? id = some node) : id < fs.nodes.size :=
  (Array.getElem?_eq_some_iff.mp found).1

theorem node?_set {old : Node} (found : fs.node? id = some old) (node : Node) (other : Nat) :
    (fs.set id node).node? other = if other = id then some node else fs.node? other := by
  rw [node?, set, Array.getElem?_setIfInBounds]
  by_cases same : other = id
  · rw [if_pos same.symm, if_pos (lt_size_of_node? found), if_pos same]
  · rw [if_neg (Ne.symm same), if_neg same, node?]

theorem size_set (fs : FileSystem) (id : Nat) (node : Node) :
    (fs.set id node).nodes.size = fs.nodes.size :=
  Array.size_setIfInBounds

theorem extends_setFile {old new : ByteArray} (found : fs.node? id = some (.file mode old)) :
    Extends fs (fs.set id (.file mode new)) where
  directory other parent entries removed directory := by
    have apart : other ≠ id := by
      rintro rfl
      rw [found] at directory
      cases directory
    exact ⟨entries, by rw [node?_set found, if_neg apart, directory], fun _ _ entry => entry⟩
  link other target := by
    rw [node?_set found]
    split
    · next same => simp [same, found]
    · rfl

theorem extends_truncate (fs : FileSystem) (id : Nat) : Extends fs (fs.truncate id) := by
  unfold truncate
  split
  · next found => exact extends_setFile found
  · exact .refl fs

theorem extends_write (fs : FileSystem) (id offset : Nat) (data : ByteArray) :
    Extends fs (fs.write id offset data) := by
  unfold write
  split
  · next found => exact extends_setFile found
  · exact .refl fs

/-! ## New files -/

section NewFile

variable {directory parent : Nat} {entries : List (Bytes × Nat)} {removed : Bool} {name : Bytes}

theorem node?_link (found : fs.node? directory = some (.directory parent entries removed))
    (name : Bytes) (node : Node) (other : Nat) :
    (fs.link directory name node).1.node? other =
      if other = fs.nodes.size then some node
      else if other = directory then some (.directory parent
        (entries.filter (fun entry => entry.1 ≠ name) ++ [(name, fs.nodes.size)]) removed)
      else fs.node? other := by
  rw [link, found]
  dsimp only
  rw [node?, Array.getElem?_push, size_set, ← node?, node?_set found]

theorem snd_link (found : fs.node? directory = some (.directory parent entries removed))
    (name : Bytes) (node : Node) : (fs.link directory name node).2 = fs.nodes.size := by
  rw [link, found]

theorem lookup_entries (unbound : entries.lookup name = none) (child : Nat) (other : Bytes) :
    (entries.filter (fun entry => entry.1 ≠ name) ++ [(name, child)]).lookup other =
      if other = name then some child else entries.lookup other := by
  induction entries with
  | nil =>
      rw [List.filter_nil, List.nil_append, List.lookup_cons, List.lookup_nil]
      split
      · next here => rw [if_pos (by simpa using here)]
      · next apart => rw [if_neg (by simpa using apart)]
  | cons first entries ih =>
      obtain ⟨word, number⟩ := first
      rw [List.lookup_cons] at unbound
      split at unbound
      · cases unbound
      · next apart =>
          have differs : name ≠ word := by simpa using apart
          rw [List.filter_cons_of_pos (by simpa using differs.symm), List.cons_append,
            List.lookup_cons, List.lookup_cons, ih unbound]
          split
          · next here =>
              have same : other = word := by simpa using here
              rw [if_neg (same ▸ differs.symm)]
          · rfl

/-- A name that nothing had is given to a new file. -/
theorem extends_link (found : fs.node? directory = some (.directory parent entries removed))
    (unbound : entries.lookup name = none) (mode : Nat) (content : ByteArray) :
    Extends fs (fs.link directory name (.file mode content)).1 where
  directory other parent' entries' removed' found' := by
    rw [node?_link found, if_neg (Nat.ne_of_lt (lt_size_of_node? found'))]
    split
    · next same =>
        subst same
        obtain ⟨rfl, rfl, rfl⟩ : parent = parent' ∧ entries = entries' ∧ removed = removed' := by
          simpa using found.symm.trans found'
        refine ⟨_, rfl, fun other child entry => ?_⟩
        rw [lookup_entries unbound, if_neg ?_, entry]
        rintro rfl
        rw [unbound] at entry
        cases entry
    · exact ⟨entries', found', fun _ _ entry => entry⟩
  link other target := by
    rw [node?_link found]
    split
    · next same => simp [same, node?]
    · split
      · next same => simp [same, found]
      · rfl

end NewFile

/-! ## Paths -/

/-- The node that a place has. -/
inductive Holds (fs : FileSystem) : Place → Nat → Prop
  | node (id : Nat) : Holds fs (.node id) id
  | entry {directory parent id : Nat} {entries : List (Bytes × Nat)} {removed : Bool} {name : Bytes}
      (found : fs.node? directory = some (.directory parent entries removed))
      (entry : entries.lookup name = some id)
      (final : ∀ target, fs.node? id ≠ some (.link target)) :
      Holds fs (.vacant directory name) id

theorem Holds.mono (grown : Extends fs fs₁) (holds : fs.Holds place id) : fs₁.Holds place id := by
  cases holds with
  | node => exact .node _
  | entry found entry final =>
      obtain ⟨entries₁, found₁, kept⟩ := grown.directory _ _ _ _ found
      exact .entry found₁ (kept _ _ entry) fun target isLink =>
        final target ((grown.link _ target).mp isLink)

section Entries

variable {parent child links : Nat} {entries : List (Bytes × Nat)} {removed : Bool} {name : Bytes}
  {rest : List Bytes}

/-- The name is looked up where it stands. -/
structure IsEntryName (name : Bytes) : Prop where
  named : ¬ (decide (name = []) || decide (name = [Path.dot])) = true
  onward : name ≠ [Path.dot, Path.dot]
  short : ¬ name.length > Path.nameLimit

instance (name : Bytes) : Decidable (IsEntryName name) :=
  decidable_of_iff
    (¬ (decide (name = []) || decide (name = [Path.dot])) = true ∧ name ≠ [Path.dot, Path.dot] ∧
      ¬ name.length > Path.nameLimit)
    ⟨fun ⟨named, onward, short⟩ => ⟨named, onward, short⟩,
      fun proper => ⟨proper.named, proper.onward, proper.short⟩⟩

/-- An entry that is no link is entered. -/
theorem walk_find_of_entry (found : fs.node? here = some (.directory parent entries removed))
    (proper : IsEntryName name) (entry : entries.lookup name = some child)
    (final : ∀ target, fs.node? child ≠ some (.link target)) :
    fs.walk .find links here (name :: rest) = fs.walk .find links child rest := by
  rw [walk, found]
  dsimp only
  rw [if_neg proper.named, if_neg proper.onward, if_neg (by simp), if_neg proper.short, entry]
  dsimp only
  split
  · next isLink => exact absurd isLink (final _)
  · rfl

/-- A last name that nothing has is a place for a new file. -/
theorem walk_of_absent (found : fs.node? here = some (.directory parent entries removed))
    (proper : IsEntryName name) (absent : entries.lookup name = none) (purpose : Purpose) :
    fs.walk purpose links here [name] = .ok (.vacant here name) := by
  rw [walk, found]
  dsimp only
  rw [if_neg proper.named, if_neg proper.onward, if_neg (by simp), if_neg proper.short, absent]
  rfl

/-- A link is replaced by its target. -/
theorem walk_find_of_link {target : Bytes}
    (found : fs.node? here = some (.directory parent entries removed)) (proper : IsEntryName name)
    (entry : entries.lookup name = some child) (isLink : fs.node? child = some (.link target)) :
    fs.walk .find (links + 1) here (name :: rest) =
      fs.walk .find links (if Path.isAbsolute target then root else here)
        (Path.steps target ++ rest) := by
  rw [walk, found]
  dsimp only
  rw [if_neg proper.named, if_neg proper.onward, if_neg (by simp), if_neg proper.short, entry]
  dsimp only
  rw [isLink]
  dsimp only
  rw [if_neg (by simp)]

end Entries

/-- The way to a place where a file is opened for writing leads to what the place has later on. -/
theorem walk_find_of_make (grown : Extends fs fs₁) {links : Nat} {steps : List Bytes}
    (walked : fs.walk .make links here steps = .ok place) (holds : fs₁.Holds place id) :
    fs₁.walk .find links here steps = .ok (.node id) := by
  -- the walk is followed step by step; it ended at `place`, so all it passed is still there
  fun_induction walk fs .make links here steps with
  | case1 links here =>
      cases walked
      cases holds
      rw [walk]
  | case2 links here name rest parent entries removed found stays ih =>
      obtain ⟨entries₁, found₁, -⟩ := grown.directory _ _ _ _ found
      rw [walk, found₁]
      dsimp only
      rw [if_pos stays, ih walked]
  | case3 links here rest parent entries removed found named ih =>
      obtain ⟨entries₁, found₁, -⟩ := grown.directory _ _ _ _ found
      rw [walk, found₁]
      dsimp only
      rw [if_neg named, if_pos rfl, ih walked]
  | case6 links here name parent entries removed found named onward short unbound last =>
      cases walked
      cases holds with
      | entry found₁ entry final =>
          rw [walk_find_of_entry found₁ ⟨named, onward, short⟩ entry final, walk]
  | case8 links here name rest parent entries removed found named onward more short child entry
      target isLink stopped => simp at stopped
  | case10 here name rest parent entries removed found named onward more short child entry target
      isLink last links start ih =>
      obtain ⟨entries₁, found₁, kept⟩ := grown.directory _ _ _ _ found
      rw [walk_find_of_link found₁ ⟨named, onward, short⟩ (kept _ _ entry)
        ((grown.link _ _).mpr isLink)]
      exact ih walked
  | case11 links here name rest parent entries removed found named onward more short child entry
      notLink ih =>
      obtain ⟨entries₁, found₁, kept⟩ := grown.directory _ _ _ _ found
      rw [walk_find_of_entry found₁ ⟨named, onward, short⟩ (kept _ _ entry)
        fun target isLink => notLink target ((grown.link _ _).mp isLink)]
      exact ih walked
  | case4 | case5 | case7 | case9 | case12 => cases walked

theorem resolve_find_of_make (grown : Extends fs fs₁)
    (resolved : fs.resolve .make here path = .ok place) (holds : fs₁.Holds place id) :
    fs₁.resolve .find here path = .ok (.node id) := by
  unfold resolve at resolved ⊢
  split at resolved
  · cases resolved
  · next given =>
      split at resolved
      · cases resolved
      · next short =>
          rw [if_neg given, if_neg short]
          exact walk_find_of_make grown resolved holds

theorem find_of_resolve (resolved : fs.resolve .find here path = .ok (.node id)) :
    fs.find here path = .ok id := by
  rw [find, resolved]

theorem unbound_of_walk_vacant {links directory : Nat} {steps : List Bytes} {name : Bytes}
    (walked : fs.walk .make links here steps = .ok (.vacant directory name)) :
    ∃ parent entries removed, fs.node? directory = some (.directory parent entries removed) ∧
      entries.lookup name = none := by
  fun_induction walk fs .make links here steps with
  | case6 links here name parent entries removed found named onward short unbound last =>
      cases walked
      exact ⟨parent, entries, removed, found, unbound⟩
  | case2 | case3 | case10 | case11 =>
      rename_i ih
      exact ih walked
  | case1 | case4 | case5 | case7 | case8 | case9 | case12 => cases walked

theorem unbound_of_resolve_vacant {directory : Nat} {name : Bytes}
    (resolved : fs.resolve .make here path = .ok (.vacant directory name)) :
    ∃ parent entries removed, fs.node? directory = some (.directory parent entries removed) ∧
      entries.lookup name = none := by
  unfold resolve at resolved
  split at resolved
  · cases resolved
  · split at resolved
    · cases resolved
    · exact unbound_of_walk_vacant resolved

/-! ## Rewriting -/

theorem resolve_of_findForWriting (found : fs.findForWriting here path = .ok place) :
    fs.resolve .make here path = .ok place := by
  unfold findForWriting at found
  split at found
  · cases found
  · next resolved =>
      split at found
      · rw [resolved, found]
      · cases found
  · next resolved =>
      split at found
      · cases found
      · split at found
        · rw [resolved, found]
        · cases found

/-- A file is emptied where it was, or a new one is made under a name that nothing had. -/
inductive Recreates (fs : FileSystem) (here : Nat) (path : Bytes) (mode : Nat) :
    FileSystem → Nat → Prop
  | emptied {id : Nat} (resolved : fs.resolve .make here path = .ok (.node id)) :
      Recreates fs here path mode (fs.truncate id) id
  | made {directory parent : Nat} {entries : List (Bytes × Nat)} {removed : Bool} {name : Bytes}
      (resolved : fs.resolve .make here path = .ok (.vacant directory name))
      (found : fs.node? directory = some (.directory parent entries removed))
      (unbound : entries.lookup name = none) :
      Recreates fs here path mode (fs.link directory name (.file mode .empty)).1 fs.nodes.size

theorem recreates_of_ok (made : fs.recreate here path mode = .ok (fs₁, id)) :
    fs.Recreates here path mode fs₁ id := by
  unfold recreate at made
  split at made
  · cases made
  · next found =>
      cases made
      exact .emptied (resolve_of_findForWriting found)
  · next directory name vacant =>
      have resolved := resolve_of_findForWriting vacant
      obtain ⟨parent, entries, removed, found, unbound⟩ := unbound_of_resolve_vacant resolved
      have linked := Except.ok.inj made
      have tree : (fs.link directory name (.file mode .empty)).1 = fs₁ := by rw [linked]
      have new : fs.nodes.size = id := by
        rw [← snd_link found name (.file mode .empty), linked]
      rw [← tree, ← new]
      exact .made resolved found unbound

theorem Recreates.holds (recreates : fs.Recreates here path mode fs₁ id) :
    ∃ place, fs.resolve .make here path = .ok place ∧ Extends fs fs₁ ∧ fs₁.Holds place id := by
  cases recreates with
  | emptied resolved => exact ⟨_, resolved, extends_truncate fs id, .node id⟩
  | @made directory parent entries removed name resolved found unbound =>
      have listed := node?_link found name (.file mode .empty) directory
      rw [if_neg (Nat.ne_of_lt (lt_size_of_node? found)), if_pos rfl] at listed
      refine ⟨_, resolved, extends_link found unbound mode .empty, .entry listed ?_ ?_⟩
      · rw [lookup_entries unbound, if_pos rfl]
      · rw [node?_link found, if_pos rfl]
        rintro target ⟨⟩

/-- The path along which a file was made leads to the file. -/
theorem find_of_recreate (made : fs.recreate here path mode = .ok (fs₁, id))
    (grown : Extends fs₁ fs₂) : fs₂.find here path = .ok id := by
  obtain ⟨place, resolved, grown', holds⟩ := (recreates_of_ok made).holds
  exact find_of_resolve (resolve_find_of_make (grown'.trans grown) resolved (holds.mono grown))

/-- The file that was made is empty; if it was there before, its mode is what it was. -/
theorem node?_of_recreate (made : fs.recreate here path mode = .ok (fs₁, id))
    (regular : ∀ id, fs.find here path = .ok id → ∃ mode old, fs.node? id = some (.file mode old)) :
    ∃ mode', fs₁.node? id = some (.file mode' .empty) ∧
      (mode' = mode ∨
        ∃ old, fs.find here path = .ok id ∧ fs.node? id = some (.file mode' old)) := by
  cases recreates_of_ok made with
  | emptied resolved =>
      have before := find_of_resolve (resolve_find_of_make (.refl fs) resolved (.node id))
      obtain ⟨mode', old, found⟩ := regular id before
      refine ⟨mode', ?_, .inr ⟨old, before, found⟩⟩
      rw [truncate, found]
      dsimp only
      rw [node?_set found, if_pos rfl]
  | made resolved found unbound =>
      refine ⟨mode, ?_, .inl rfl⟩
      rw [node?_link found, if_pos rfl]

/-! ## Content -/

theorem splice_empty (data : ByteArray) : splice .empty 0 data = data := by
  have before : ByteArray.mk #[] = .empty := rfl
  have behind : ByteArray.empty.extract data.size 0 = .empty := by simp [ByteArray.ext_iff]
  simp [splice, before, behind]

theorem node?_write {old : ByteArray} (found : fs.node? id = some (.file mode old)) (offset : Nat)
    (data : ByteArray) :
    (fs.write id offset data).node? id = some (.file mode (splice old offset data)) := by
  rw [write, found]
  dsimp only
  rw [node?_set found, if_pos rfl]

end FileSystem

namespace Machine

variable {m m' : Machine} {path : String} {content : ByteArray}

/-- If the path leads anywhere, it leads to a regular file that may be read. -/
def HasFileAt (m : Machine) (path : String) : Prop :=
  ∀ id, m.files.find m.cwd (Text.encode path) = .ok id →
    ∃ mode content, m.files.node? id = some (.file mode content) ∧
      mode &&& FileSystem.Permission.read.bit ≠ 0

/-- A file that was written as a whole is read back as it was written. -/
theorem readWhole_of_writeWhole (regular : m.HasFileAt path)
    (written : m.writeWhole path content = .ok m') : m'.readWhole path = .ok content := by
  unfold writeWhole writeAt at written
  split at written
  · cases written
  · next faultless =>
      cases made : m.files.recreate m.cwd (Text.encode path) outputMode with
      | error cause => simp [made] at written
      | ok result =>
          obtain ⟨files, id⟩ := result
          obtain ⟨mode, here, origin⟩ := FileSystem.node?_of_recreate made fun id found => by
            obtain ⟨mode, content, isFile, -⟩ := regular id found
            exact ⟨mode, content, isFile⟩
          have readable : mode &&& FileSystem.Permission.read.bit ≠ 0 := by
            rcases origin with rfl | ⟨old, found, was⟩
            · decide
            · obtain ⟨mode', old', isFile, readable⟩ := regular id found
              rw [was] at isFile
              cases isFile
              exact readable
          simp only [made, here] at written
          cases written
          have grown := FileSystem.extends_write files id 0 content
          have found := FileSystem.find_of_recreate made grown
          have node := FileSystem.node?_write here 0 content
          rw [FileSystem.splice_empty] at node
          have permitted : (files.write id 0 content).permits id .read = true := by
            rw [FileSystem.permits, node]
            exact decide_eq_true readable
          simp [readWhole, readAt, faultless, FileSystem.findReadable, found, permitted, node,
            FileSystem.isDirectory, FileSystem.content]

end Machine

end PipeShell
