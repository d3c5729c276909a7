import JsonUnpack.Command.Directory

/-! What a run relies on when it reads and writes files. Paths lead to files, each in its own way;
reading gives the content of the file that a path leads to, and writing changes that file and no
other one. A system may refuse any of this, and then it leaves everything as it is. A tree of
directories is such a system. -/
namespace JsonUnpack.Command

/-- The files of a system, found by their paths. Several paths may lead to one file. -/
structure Storage (σ File : Type) where
  find? : σ → String → Option File
  content? : σ → File → Option ByteArray
  input : σ → ByteArray

namespace Storage

variable {σ File : Type} (storage : Storage σ File)

/-- The content of the file that a path leads to. -/
def held? (state : σ) (path : String) : Option ByteArray :=
  (storage.find? state path).bind (storage.content? state)

/-- A text has been written to the file that a path leads to, and to no other file. A path that led
to a file leads to it still. -/
structure Written (before : σ) (path : String) (file : File) (text : String)
    (after : σ) : Prop where
  leads : storage.find? after path = some file
  content : storage.content? after file = some text.toUTF8
  others : ∀ other, other ≠ file → storage.content? after other = storage.content? before other
  paths : ∀ other found, storage.find? before other = some found →
    storage.find? after other = some found
  input : storage.input after = storage.input before

variable {storage} {before after : σ} {path text : String} {file : File}

theorem Written.held (written : storage.Written before path file text after) :
    storage.held? after path = some text.toUTF8 := by
  rw [held?, written.leads, Option.bind_some, written.content]

end Storage

/-- An access gives what is held, if anything is, or refuses, and leaves everything as it is. -/
def Gives {σ ε : Type} (access : StateM σ (Except ε ByteArray)) (held : Option ByteArray)
    (state : σ) : Prop :=
  (∃ bytes, held = some bytes ∧ access state = (.ok bytes, state)) ∨
    ∃ fault, access state = (.error fault, state)

/-- A host that works on the files of a system. -/
structure Host.Faithful {σ File : Type} (host : Host (StateM σ)) (storage : Storage σ File) :
    Prop where
  read : ∀ path state, Gives (host.read path) (storage.held? state path) state
  readInput : ∀ state, Gives host.readInput (some (storage.input state)) state
  write : ∀ path text state,
    (∃ file after, host.write path text state = (.ok (), after) ∧
      storage.Written state path file text after) ∨
    ∃ reason, host.write path text state = (.error reason, state)

namespace Directory

variable {directory : Directory} {around : Surroundings} {location : Location}

theorem isDirectory_iff : directory.isDirectory around location = true ↔
    ∃ lower ∈ directory.lowest around, location <+: lower := by
  simp only [isDirectory, List.any_eq_true, List.isPrefixOf_iff_prefix]

theorem isDirectory_above {upper : Location} (above : upper <+: location)
    (held : directory.isDirectory around location = true) :
    directory.isDirectory around upper = true := by
  obtain ⟨lower, listed, inside⟩ := isDirectory_iff.mp held
  exact isDirectory_iff.mpr ⟨lower, listed, above.trans inside⟩

@[simp] theorem content_put_self (directory : Directory) (location : Location)
    (content : ByteArray) : (directory.put location content).content? location = some content := by
  simp [content?, put]

theorem content_put_other {other : Location} (content : ByteArray) (apart : other ≠ location) :
    (directory.put location content).content? other = directory.content? other := by
  simp only [content?, put, List.find?_cons, decide_eq_false apart.symm, List.find?_filter]
  congr 2
  funext file
  by_cases found : file.1 = other
  · simp [found, apart]
  · simp [found]

/-- A file that is put into a directory adds no directory and removes none. -/
theorem isDirectory_put (parent : directory.isDirectory around location.dropLast = true)
    (content : ByteArray) (upper : Location) :
    (directory.put location content).isDirectory around upper =
      directory.isDirectory around upper := by
  rw [Bool.eq_iff_iff, isDirectory_iff]
  simp only [lowest, put, List.map_cons]
  constructor
  · rintro ⟨lower, listed, inside⟩
    rcases List.mem_append.mp listed with fixed | filed
    · exact isDirectory_iff.mpr ⟨lower, List.mem_append_left _ fixed, inside⟩
    · rcases List.mem_cons.mp filed with rfl | other
      · exact isDirectory_above inside parent
      · obtain ⟨file, kept, rfl⟩ := List.mem_map.mp other
        exact isDirectory_iff.mpr ⟨file.1.dropLast, List.mem_append_right _
          (List.mem_map.mpr ⟨file, (List.mem_filter.mp kept).1, rfl⟩), inside⟩
  · intro held
    obtain ⟨lower, listed, inside⟩ := isDirectory_iff.mp held
    refine ⟨lower, ?_, inside⟩
    rcases List.mem_append.mp listed with fixed | filed
    · exact List.mem_append_left _ fixed
    · refine List.mem_append_right _ ?_
      obtain ⟨file, member, rfl⟩ := List.mem_map.mp filed
      by_cases replaced : file.1 = location
      · exact replaced ▸ List.mem_cons_self
      · exact List.mem_cons_of_mem _
          (List.mem_map.mpr ⟨file, List.mem_filter.mpr ⟨member, by simpa using replaced⟩, rfl⟩)

/-- Names lead to a location where there is a file, or where one could be added. -/
def Leads (found : Except Reason Target) (location : Location) : Prop :=
  found = .ok (.file location) ∨ found = .ok (.vacant location)

private theorem parent_of_follow {start : Location} {names : List String}
    (above : directory.isDirectory around start.dropLast = true)
    (leads : Leads (directory.follow around start names) location) :
    directory.isDirectory around location.dropLast = true := by
  fun_induction follow directory around start names with
  | case1 => simp [Leads] at leads
  | case2 start | case3 start =>
    obtain rfl : start = location := by simpa [Leads] using leads
    exact above
  | case4 start name rest held same ih => exact ih above leads
  | case5 start rest held same ih =>
    exact ih (isDirectory_above (start.dropLast.dropLast_prefix) above) leads
  | case6 start name rest held same up ih =>
    refine ih ?_ leads
    rwa [List.dropLast_concat]
  | case7 => simp [Leads] at leads
  | case8 => simp [Leads] at leads

private theorem isDirectory_origin (directory : Directory) (around : Surroundings) (path : String) :
    directory.isDirectory around (origin around path) = true := by
  have working : directory.isDirectory around around.working = true :=
    isDirectory_iff.mpr ⟨around.working, List.mem_append_left _ List.mem_cons_self, List.prefix_rfl⟩
  unfold origin
  split
  · exact isDirectory_above List.nil_prefix working
  · exact working

theorem parent_of_target {path : String} (leads : Leads (directory.target around path) location) :
    directory.isDirectory around location.dropLast = true := by
  unfold target at leads
  split at leads
  · simp [Leads] at leads
  · exact parent_of_follow (isDirectory_above (List.dropLast_prefix _)
      (isDirectory_origin directory around path)) leads

private theorem follow_put {found start : Location} {names : List String}
    (parent : directory.isDirectory around location.dropLast = true) (content : ByteArray)
    (leads : directory.follow around start names = .ok (.file found) ∨
      directory.follow around start names = .ok (.vacant found) ∧ found = location) :
    (directory.put location content).follow around start names = .ok (.file found) := by
  have directories := isDirectory_put parent content
  fun_induction follow directory around start names with
  | case1 => simp at leads
  | case2 start free filed =>
    obtain rfl : start = found := by simpa using leads
    have kept : ((directory.put location content).content? start).isSome = true := by
      by_cases same : start = location
      · rw [same, content_put_self]
        rfl
      · rwa [content_put_other content same]
    rw [follow, directories, if_neg free, if_pos kept]
  | case3 start free =>
    obtain ⟨rfl, rfl⟩ : start = found ∧ found = location := by simpa using leads
    rw [follow, directories, if_neg free, content_put_self]
    rfl
  | case4 start name rest held same ih =>
    rw [follow, directories, if_pos held, if_pos same, ih leads]
  | case5 start rest held same ih =>
    rw [follow, directories, if_pos held, if_neg same, if_pos rfl, ih leads]
  | case6 start name rest held same up ih =>
    rw [follow, directories, if_pos held, if_neg same, if_neg up, ih leads]
  | case7 => simp at leads
  | case8 => simp at leads

private theorem target_put {found : Location} {path : String}
    (parent : directory.isDirectory around location.dropLast = true) (content : ByteArray)
    (leads : directory.target around path = .ok (.file found) ∨
      directory.target around path = .ok (.vacant found) ∧ found = location) :
    (directory.put location content).target around path = .ok (.file found) := by
  unfold target at *
  split at leads
  · simp at leads
  · rename_i named
    rw [if_neg named]
    exact follow_put parent content leads

/-- A path leads to a file, or to where one can be added. A path that ends in a slash does not. -/
structure Accepts (directory : Directory) (around : Surroundings) (path : String)
    (location : Location) : Prop where
  bare : withoutEndSlashes path = path
  leads : Leads (directory.target around path) location

/-- A file is written exactly where its path leads to, if it leads anywhere. -/
theorem write_eq_ok_iff {path text : String} {after : Directory} :
    directory.write path text around = .ok after ↔
      ∃ location, directory.Accepts around path location ∧
        after = directory.put location text.toUTF8 := by
  constructor
  · intro written
    by_cases bare : withoutEndSlashes path = path
    · simp only [write, bare, if_true] at written
      split at written
      · cases written
      · cases written
      · next location leads =>
        exact ⟨location, ⟨bare, .inl leads⟩, (Except.ok.inj written).symm⟩
      · next location leads =>
        exact ⟨location, ⟨bare, .inr leads⟩, (Except.ok.inj written).symm⟩
    · simp only [write, bare, if_false] at written
      split at written <;> cases written
  · rintro ⟨location, ⟨bare, leads | leads⟩, rfl⟩
    · simp [write, bare, leads]
    · simp [write, bare, leads]

theorem host_writes_iff {path text : String} :
    (∃ after, (host around).write path text directory = (.ok (), after)) ↔
      ∃ location, directory.Accepts around path location := by
  cases written : directory.write path text around with
  | error reason =>
    constructor
    · rintro ⟨after, wrote⟩
      simp only [host, written] at wrote
      cases wrote
    · rintro ⟨location, accepts⟩
      cases written.symm.trans (write_eq_ok_iff.mpr ⟨location, accepts, rfl⟩)
  | ok after =>
    obtain ⟨location, accepts, -⟩ := write_eq_ok_iff.mp written
    exact iff_of_true ⟨after, by simp only [host, written]⟩ ⟨location, accepts⟩

/-- The files of a tree are its locations. -/
def storage (around : Surroundings) : Storage Directory Location where
  find? directory path :=
    match directory.target around path with
    | .ok (.file location) => some location
    | _ => none
  content? := content?
  input := input

theorem find_eq_some_iff {path : String} :
    (storage around).find? directory path = some location ↔
      directory.target around path = .ok (.file location) := by
  simp only [storage]
  split <;> simp_all

theorem written_put {path : String} (accepts : directory.Accepts around path location)
    (text : String) :
    (storage around).Written directory path location text
      (directory.put location text.toUTF8) := by
  have parent := parent_of_target accepts.leads
  constructor
  · apply find_eq_some_iff.mpr
    refine target_put parent _ ?_
    exact accepts.leads.imp id fun vacant => ⟨vacant, rfl⟩
  · exact content_put_self directory location _
  · intro other apart
    exact content_put_other _ apart
  · intro other found led
    exact find_eq_some_iff.mpr (target_put parent _ (.inl (find_eq_some_iff.mp led)))
  · rfl

theorem read_gives (directory : Directory) (around : Surroundings) (path : String) :
    Gives ((host around).read path) ((storage around).held? directory path) directory := by
  cases leads : directory.target around path with
  | error reason => exact .inr ⟨.opening reason, by simp only [host, read, leads]⟩
  | ok found =>
    cases found with
    | directory => exact .inr ⟨.reading .isDirectory, by simp only [host, read, leads]⟩
    | vacant location => exact .inr ⟨.opening .notFound, by simp only [host, read, leads]⟩
    | file location =>
      cases held : directory.content? location with
      | none => exact .inr ⟨.opening .notFound, by simp only [host, read, leads, held]⟩
      | some content =>
        refine .inl ⟨content, ?_, by simp only [host, read, leads, held]⟩
        exact Option.bind_eq_some_iff.mpr ⟨location, find_eq_some_iff.mpr leads, held⟩

/-- A tree of directories refuses nothing that can be done. -/
theorem host_faithful (around : Surroundings) : (host around).Faithful (storage around) where
  read path directory := read_gives directory around path
  readInput directory := .inl ⟨directory.input, rfl, rfl⟩
  write path text directory := by
    cases written : directory.write path text around with
    | error reason => exact .inr ⟨reason, by simp only [host, written]⟩
    | ok after =>
      obtain ⟨location, accepts, rfl⟩ := write_eq_ok_iff.mp written
      exact .inl ⟨location, _, by simp only [host, written], written_put accepts text⟩

/-! A file that is replaced is where it was, so all paths lead where they led. -/

private theorem parent_of_held (held : (directory.content? location).isSome) :
    directory.isDirectory around location.dropLast = true := by
  simp only [content?, Option.isSome_map, List.find?_isSome, decide_eq_true_eq] at held
  obtain ⟨file, member, rfl⟩ := held
  exact isDirectory_iff.mpr ⟨file.1.dropLast, List.mem_append_right _
    (List.mem_map.mpr ⟨file, member, rfl⟩), List.prefix_rfl⟩

private theorem isSome_content_edit (held : (directory.content? location).isSome)
    (content : ByteArray) (other : Location) :
    ((directory.put location content).content? other).isSome =
      (directory.content? other).isSome := by
  by_cases same : other = location
  · rw [same, content_put_self, held]
    rfl
  · rw [content_put_other content same]

private theorem follow_edit (held : (directory.content? location).isSome) (content : ByteArray)
    (start : Location) (names : List String) :
    (directory.put location content).follow around start names =
      directory.follow around start names := by
  have directories : ∀ upper, (directory.put location content).isDirectory around upper =
      directory.isDirectory around upper := isDirectory_put (parent_of_held held) content
  induction names generalizing start with
  | nil => rw [follow, follow, directories, isSome_content_edit held]
  | cons name rest ih => simp only [follow, directories, isSome_content_edit held, ih]

theorem target_edit (held : (directory.content? location).isSome) (content : ByteArray)
    (path : String) :
    (directory.put location content).target around path = directory.target around path := by
  unfold target
  split
  · rfl
  · exact follow_edit held content _ _

theorem read_edit (held : (directory.content? location).isSome) (content : ByteArray)
    {path : String} (apart : directory.target around path ≠ .ok (.file location)) :
    (directory.put location content).read path around = directory.read path around := by
  rw [read, read, target_edit held]
  split
  · rfl
  · rfl
  · rfl
  · rename_i other leads
    rw [content_put_other]
    rintro rfl
    exact apart leads

end Directory

end JsonUnpack.Command
