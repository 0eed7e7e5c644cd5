/-
Paths and files on a disk.

* `IsFileName` — the texts that name a file, and lead nowhere else;
* `toList_joinPath` — the path of a file goes on from that of its directory behind one slash;
* `Disk.walk?_from_root` — what is reached from where the program runs is reached from the root;
* `Disk.place?_of_isAbsolute` — a path from the root leads to one place wherever the program runs;
* `Disk.place?_joinPath` — a file stands right behind the place of its directory;
* `Disk.Writable` — a file can be written there, whatever it is to hold;
* `Disk.write?_eq_some_iff` — writing changes what stands at one place, and no directory.

Design notes: where a path leads hangs on the directories alone (`Disk.place?_congr`), and no write
makes or removes one.  So what can be written now can still be written after any other file.
-/
import Mathlib.Data.List.Basic
import ClassSchema.CommandLine.Commands

namespace ClassSchema

/-- A text that is written can be read again. -/
theorem readText?_toUTF8 (s : String) : readText? (some s.toUTF8) = some s := by
  have hvalid : s.toUTF8.IsValidUTF8 := s.isValidUTF8
  rw [readText?, Option.bind_some, String.fromUTF8?, dif_pos hvalid]
  rfl

/-! ### Paths -/

namespace CommandLine

/-- The text names a file, and leads nowhere else. -/
structure IsFileName (name : String) : Prop where
  noSlash : '/' ∉ name.toList
  ne_empty : name ≠ ""
  ne_point : name ≠ "."
  ne_up : name ≠ ".."

/-- The path of a file goes on from that of its directory behind one slash. -/
theorem toList_joinPath {directory : String} (h : directory ≠ "") (name : String) :
    ∃ front, (directory.toList = front ∨ directory.toList = front ++ ['/']) ∧
      (joinPath directory name).toList = front ++ '/' :: name.toList := by
  unfold joinPath
  rcases hlast : directory.toList.getLast? with _ | c
  · exact absurd (String.toList_eq_nil_iff.mp (List.getLast?_eq_none_iff.mp hlast)) h
  · obtain ⟨front, hfront⟩ := List.getLast?_eq_some_iff.mp hlast
    by_cases hc : c = '/'
    · obtain rfl := hc
      exact ⟨front, .inr hfront, by simp [hfront]⟩
    · exact ⟨directory.toList, .inl rfl, by simp [hc]⟩

/-- A file in a directory has one part more than the directory. -/
theorem pathParts_joinPath {directory name : String} (h : directory ≠ "")
    (hname : IsFileName name) :
    pathParts (joinPath directory name) = pathParts directory ++ [name] := by
  have hlast : (([name.toList].map String.ofList).filter fun part => part ≠ "" && part ≠ ".") =
      [name] := by
    simp [hname.ne_empty, hname.ne_point]
  obtain ⟨front, hfront, hjoin⟩ := toList_joinPath h name
  rw [pathParts, pathParts, hjoin, List.splitOn_append_cons_self,
    List.splitOn_eq_singleton hname.noSlash, List.map_append, List.filter_append, hlast]
  rcases hfront with hfront | hfront
  · rw [hfront]
  · -- The slash at the end of the directory has nothing behind it.
    rw [hfront, List.splitOn_append_cons_self, List.map_append, List.filter_append]
    simp

/-- A file begins where its directory does. -/
theorem isAbsolute_joinPath {directory : String} (h : directory ≠ "") (name : String) :
    Disk.isAbsolute (joinPath directory name) = Disk.isAbsolute directory := by
  have hne : directory.toList ≠ [] := mt String.toList_eq_nil_iff.mp h
  obtain ⟨front, hfront | hfront, hjoin⟩ := toList_joinPath h name
  · rw [Disk.isAbsolute, Disk.isAbsolute, hjoin, ← hfront, List.head?_append_of_ne_nil _ hne]
  · rw [Disk.isAbsolute, Disk.isAbsolute, hjoin, hfront, List.head?_append, List.head?_append]
    rfl

end CommandLine

/-! ### Places -/

namespace Disk

variable {here there : List String} {disk after : Disk here}

theorem walk?_append (disk : Disk here) (start parts rest : List String) :
    disk.walk? start (parts ++ rest) =
      (disk.walk? start parts).bind fun place => disk.walk? place rest := by
  induction parts generalizing start with
  | nil => rfl
  | cons part parts ih =>
    rw [List.cons_append, walk?, walk?]
    split
    · rfl
    · exact ih _

theorem walk?_concat (disk : Disk here) (start parts : List String) {name : String}
    (hup : name ≠ "..") :
    disk.walk? start (parts ++ [name]) = (disk.walk? start parts).bind fun place =>
      if disk.hasDirectory place then some (place ++ [name]) else none := by
  rw [walk?_append]
  congr
  funext place
  rw [walk?, walk?, if_neg hup]
  rcases disk.hasDirectory place with _ | _
  · rfl
  · rfl

/-- All directories around the one where the program runs are there. -/
theorem hasDirectory_of_isPrefix (disk : Disk here) {place : List String} (h : place <+: here) :
    disk.hasDirectory place = true := by
  rw [hasDirectory, List.isPrefixOf_iff_prefix.mpr h, Bool.true_or]

/-- What is reached from where the program runs is reached from the root. -/
theorem walk?_from_root (disk : Disk here) (hup : ".." ∉ here) (parts : List String) :
    disk.walk? [] (here ++ parts) = disk.walk? here parts := by
  have hhere : ∀ front rest, here = front ++ rest → disk.walk? front rest = some here := by
    intro front rest hsplit
    induction rest generalizing front with
    | nil => rw [walk?, hsplit, List.append_nil]
    | cons part rest ih =>
      have hpart : part ≠ ".." := by
        rintro rfl
        exact hup (hsplit ▸ List.mem_append_right _ List.mem_cons_self)
      rw [walk?, hasDirectory_of_isPrefix disk ⟨_, hsplit.symm⟩, if_neg hpart]
      exact ih (front ++ [part]) (by rw [hsplit, List.append_assoc, List.singleton_append])
  rw [walk?_append, hhere [] here rfl, Option.bind_some]

theorem walk?_of_place? {path : String} {place : List String}
    (h : disk.place? path = some place) :
    disk.walk? (origin here path) (pathParts path) = some place := by
  unfold place? at h
  simp only [Option.bind_eq_bind, Option.bind_none] at h
  split_ifs at h
  obtain ⟨reached, hwalk, h⟩ := Option.bind_eq_some_iff.mp h
  split_ifs at h
  rwa [← Option.some.inj h]

theorem ne_empty_of_place? {path : String} {place : List String}
    (h : disk.place? path = some place) : path ≠ "" := by
  rintro rfl
  cases h

/-- A file stands right behind the place of its directory. -/
theorem place?_joinPath {directory name : String} {home place : List String}
    (hhome : disk.place? directory = some home) (hname : CommandLine.IsFileName name)
    (h : disk.place? (CommandLine.joinPath directory name) = some place) :
    place = home ++ [name] := by
  have hne := ne_empty_of_place? hhome
  have hwalk := walk?_of_place? h
  rw [origin, CommandLine.isAbsolute_joinPath hne, ← origin,
    CommandLine.pathParts_joinPath hne hname, walk?_concat _ _ _ hname.ne_up,
    walk?_of_place? hhome, Option.bind_some] at hwalk
  split_ifs at hwalk
  exact (Option.some.inj hwalk).symm

/-- Where a path leads hangs on where it begins and on the directories alone. -/
theorem place?_eq_of_hasDirectory {disk : Disk here} {other : Disk there}
    (h : other.hasDirectory = disk.hasDirectory) {path : String}
    (horigin : origin there path = origin here path) : other.place? path = disk.place? path := by
  have hwalk : ∀ start parts, other.walk? start parts = disk.walk? start parts := by
    intro start parts
    induction parts generalizing start with
    | nil => rfl
    | cons part rest ih => rw [walk?, walk?, h, ih]
  unfold place?
  rw [hwalk, h, horigin]

/-- A path from the root leads to one place wherever the program runs. -/
theorem place?_of_isAbsolute {disk : Disk here} {other : Disk there}
    (h : other.hasDirectory = disk.hasDirectory) {path : String} (hroot : isAbsolute path) :
    other.place? path = disk.place? path :=
  place?_eq_of_hasDirectory h (by rw [origin, origin, if_pos hroot, if_pos hroot])

theorem hasDirectory_congr (h : after.directories = disk.directories) :
    after.hasDirectory = disk.hasDirectory := by
  funext place
  rw [hasDirectory, hasDirectory, h]

theorem place?_congr (h : after.directories = disk.directories) : after.place? = disk.place? :=
  funext fun _ => place?_eq_of_hasDirectory (hasDirectory_congr h) rfl

/-! ### Reading and writing -/

theorem read?_eq_of_place? {path : String} {place : List String}
    (hplace : disk.place? path = some place) (hfile : disk.hasDirectory place = false) :
    disk.read? path = Entries.get? place disk.files := by
  rw [read?, hplace, Option.bind_eq_bind, Option.bind_some, hfile, if_neg Bool.false_ne_true]

/-- The disk with files, each at its place. -/
def putFiles (disk : Disk here) (files : List (List String × ByteArray)) : Disk here :=
  { disk with files := Entries.putAll disk.files files }

@[simp] theorem place?_putFiles (disk : Disk here) (files : List (List String × ByteArray)) :
    (disk.putFiles files).place? = disk.place? := place?_congr rfl

@[simp] theorem hasDirectory_putFiles (disk : Disk here)
    (files : List (List String × ByteArray)) :
    (disk.putFiles files).hasDirectory = disk.hasDirectory := hasDirectory_congr rfl

/-- A file can be written at the path. -/
def Writable (disk : Disk here) (path : String) : Prop :=
  ∃ place, disk.place? path = some place ∧ disk.hasDirectory place = false

theorem write?_eq_some_iff {path content : String} :
    disk.write? path content = some after ↔
      ∃ place, disk.place? path = some place ∧ disk.hasDirectory place = false ∧
        after = { disk with files := Entries.put place content.toUTF8 disk.files } := by
  unfold write?
  simp only [Option.bind_eq_bind, Option.bind_eq_some_iff]
  refine exists_congr fun place => and_congr_right fun _ => ?_
  rcases disk.hasDirectory place with _ | _
  · simp [eq_comm]
  · simp

/-- Whether a file can be written does not hang on what it is to hold. -/
theorem writable_iff {path : String} (content : String) :
    disk.Writable path ↔ ∃ after, disk.write? path content = some after := by
  simp only [write?_eq_some_iff]
  constructor
  · rintro ⟨place, hplace, hfile⟩
    exact ⟨_, place, hplace, hfile, rfl⟩
  · rintro ⟨_, place, hplace, hfile, -⟩
    exact ⟨place, hplace, hfile⟩

theorem writable_congr (h : after.directories = disk.directories) {path : String} :
    after.Writable path ↔ disk.Writable path := by
  rw [Writable, Writable, place?_congr h, hasDirectory_congr h]

end Disk
end ClassSchema
