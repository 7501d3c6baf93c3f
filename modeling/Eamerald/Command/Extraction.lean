import Eamerald.Api.Messages
import Eamerald.Foundation.Paths

/-! The extraction of a backup archive. Each regular entry goes to one of three files by the last
element of its name, up to a limit of the file; links, other names and second entries for a file are
errors. -/

set_option autoImplicit false

namespace Eamerald.Command

open Foundation

section Model

inductive StatusCode where
  | internal
  | aborted
deriving DecidableEq, Repr

def StatusCode.name : StatusCode → GoString
  | .internal => "Internal".toList
  | .aborted => "Aborted".toList

inductive Failure where
  | plain (message : GoString)
  | status (code : StatusCode) (message : GoString)
deriving DecidableEq, Repr

def Failure.error : Failure → GoString
  | .plain message => message
  | .status code message =>
      "rpc error: code = ".toList ++ code.name ++ " desc = ".toList ++ message

inductive TypeFlag where
  | reg
  | link
  | symlink
  | other (flag : UInt8)
deriving DecidableEq, Repr

structure Header where
  name : GoString
  typeflag : TypeFlag
deriving DecidableEq, Repr

/-- What a tar reader gives. After a content that breaks off, all reads fail with the same error. -/
inductive Archive where
  | ends (failure : Option Failure)
  | truncated (header : Header) (content : Bytes) (failure : Failure)
  | entry (header : Header) (content : Bytes) (rest : Archive)

/-- The entry that is being read: the bytes to come, and the error after them if it breaks off. -/
structure Stream where
  unread : Bytes
  failure : Option Failure

abbrev Disk := Std.ExtTreeMap GoString Bytes

/-- Copy what the stream has, up to a limit. An error is met only below the limit. -/
def Stream.copyLimited (stream : Stream) (limit : Nat) : Bytes × Option Failure × Stream :=
  (stream.unread.take limit, if stream.unread.length < limit then stream.failure else none,
    { stream with unread := stream.unread.drop limit })

def exceeded (limit : Nat) : Failure :=
  .status .aborted ("file size exceeded allowed limit of ".toList ++ (toString limit).toList ++
    " bytes".toList)

def writeStreamToDisk (stream : Stream) (destPath : GoString) (limit : Nat) (disk : Disk) :
    Except Failure Unit × Disk :=
  let (written, failure, stream) := stream.copyLimited limit
  let disk := disk.insert destPath written
  match failure with
  | some failure => (.error failure, disk)
  | none =>
      -- a byte beyond the limit
      if written.length = limit ∧ stream.unread ≠ [] then (.error (exceeded limit), disk)
      else (.ok (), disk)

inductive BackupFile where
  | manifest
  | objects
  | relations
deriving DecidableEq, Repr

def BackupFile.name : BackupFile → GoString
  | .manifest => "manifest.yaml".toList
  | .objects => "objects.jsonl".toList
  | .relations => "relations.jsonl".toList

def maxManifestSize : Nat := 4 * 1024 * 1024
def maxJsonlSize : Nat := 4 * 1024 * 1024 * 1024

def BackupFile.sizeLimit : BackupFile → Nat
  | .manifest => maxManifestSize
  | .objects | .relations => maxJsonlSize

def selectFile (baseName : GoString) : Option BackupFile :=
  [.manifest, .objects, .relations].find? fun file => file.name = baseName

def linkForbidden : Failure :=
  .status .internal "security violation: symbolic or hard links are strictly forbidden".toList

def pathTraversal (name : GoString) : Failure :=
  .status .internal
    ("security violation: invalid file path traversal detected: ".toList ++ name)

def unexpectedFile (baseName : GoString) : Failure :=
  .status .internal ("unexpected file type found in tarball: ".toList ++ baseName)

def duplicateEntry (baseName : GoString) : Failure :=
  .status .internal ("duplicate file entry detected: ".toList ++ baseName)

def failedWriting (baseName : GoString) (failure : Failure) : Failure :=
  .status .internal
    ("failed writing ".toList ++ baseName ++ " to disk: ".toList ++ failure.error)

def failedReading (failure : Failure) : Failure :=
  .plain ("failed reading tar header: ".toList ++ failure.error)

def extractEntry (dirPath : GoString) (processed : List GoString) (header : Header) (stream : Stream)
    (disk : Disk) : Except Failure (List GoString) × Disk :=
  match header.typeflag with
  | .symlink | .link => (.error linkForbidden, disk)
  | .other _ => (.ok processed, disk)
  | .reg =>
      let cleanedName := Path.clean header.name
      if "..".toList.isPrefixOf cleanedName || "/".toList.isPrefixOf cleanedName then
        (.error (pathTraversal header.name), disk)
      else
        let baseName := Path.base cleanedName
        match selectFile baseName with
        | none => (.error (unexpectedFile baseName), disk)
        | some file =>
            if baseName ∈ processed then (.error (duplicateEntry baseName), disk)
            else
              let targetPath := Path.join [dirPath, baseName]
              match writeStreamToDisk stream targetPath file.sizeLimit disk with
              | (.error failure, disk) => (.error (failedWriting baseName failure), disk)
              | (.ok _, disk) => (.ok (baseName :: processed), disk)

def extractAll (dirPath : GoString) (processed : List GoString) (disk : Disk) :
    Archive → Except Failure Unit × Disk
  | .ends none => (.ok (), disk)
  | .ends (some failure) => (.error (failedReading failure), disk)
  | .truncated header content failure =>
      match extractEntry dirPath processed header ⟨content, some failure⟩ disk with
      | (.error failure, disk) => (.error failure, disk)
      | (.ok _, disk) => (.error (failedReading failure), disk)
  | .entry header content rest =>
      match extractEntry dirPath processed header ⟨content, none⟩ disk with
      | (.error failure, disk) => (.error failure, disk)
      | (.ok processed, disk) => extractAll dirPath processed disk rest

def extractFiles (archive : Archive) (dirPath : GoString) (disk : Disk) : Except Failure Unit × Disk :=
  extractAll dirPath [] disk archive

end Model

section Entries

def Header.IsLink (header : Header) : Prop := header.typeflag = .link ∨ header.typeflag = .symlink

instance (header : Header) : Decidable header.IsLink := inferInstanceAs (Decidable (_ ∨ _))

def Header.baseName (header : Header) : GoString := Path.base (Path.clean header.name)

def Archive.entries : Archive → List (Header × Bytes)
  | .ends _ => []
  | .truncated header content _ => [(header, content)]
  | .entry header content rest => (header, content) :: rest.entries

def Archive.regulars (archive : Archive) (baseName : GoString) : List Bytes :=
  (archive.entries.filter fun entry =>
    entry.1.typeflag = .reg ∧ entry.1.baseName = baseName).map Prod.snd

def BackupFile.target (dirPath : GoString) (file : BackupFile) : GoString :=
  Path.join [dirPath, file.name]

theorem selectFile_eq_some {baseName : GoString} {file : BackupFile} (found : selectFile baseName = some file) :
    file.name = baseName := by
  simpa using List.find?_some found

theorem BackupFile.isName (file : BackupFile) : Path.IsName file.name := by
  cases file <;> decide

theorem BackupFile.name_injective : Function.Injective BackupFile.name := by
  intro first second same
  cases first <;> cases second <;> first | rfl | exact absurd same (by decide)

theorem BackupFile.target_injective (dirPath : GoString) : Function.Injective (BackupFile.target dirPath) := by
  intro first second same
  have names := congrArg Path.base same
  rw [target, target, Path.base_join first.isName, Path.base_join second.isName] at names
  exact name_injective names

end Entries

section Steps

variable (dirPath : GoString) (processed : List GoString) (header : Header) (stream : Stream) (disk : Disk)

/-- What was copied is on the disk in any case. It is all of the entry if the call succeeds. -/
theorem writeStreamToDisk_cases (destPath : GoString) (limit : Nat) :
    ∃ result, writeStreamToDisk stream destPath limit disk =
        (result, disk.insert destPath (stream.unread.take limit)) ∧
      (result = .ok () → stream.unread.length ≤ limit) := by
  unfold writeStreamToDisk Stream.copyLimited
  dsimp only
  split
  · exact ⟨_, rfl, fun ok => by cases ok⟩
  · split
    · exact ⟨_, rfl, fun ok => by cases ok⟩
    · rename_i fits
      refine ⟨_, rfl, fun _ => ?_⟩
      by_contra long
      refine fits ⟨by simp; omega, ?_⟩
      simpa using long

/-- What an entry can do: fail before anything is written, be skipped, or be written to its file. -/
theorem extractEntry_cases :
    (∃ failure, extractEntry dirPath processed header stream disk = (.error failure, disk)) ∨
    (∃ flag, header.typeflag = .other flag ∧
      extractEntry dirPath processed header stream disk = (.ok processed, disk)) ∨
    ∃ (file : BackupFile) (result : Except Failure (List GoString)),
      header.typeflag = .reg ∧ header.baseName = file.name ∧ file.name ∉ processed ∧
      extractEntry dirPath processed header stream disk =
        (result, disk.insert (file.target dirPath) (stream.unread.take file.sizeLimit)) ∧
      (∀ after, result = .ok after →
        after = file.name :: processed ∧ stream.unread.length ≤ file.sizeLimit) := by
  unfold extractEntry
  cases flag : header.typeflag with
  | link => exact .inl ⟨_, rfl⟩
  | symlink => exact .inl ⟨_, rfl⟩
  | other byte => exact .inr (.inl ⟨byte, rfl, rfl⟩)
  | reg =>
      dsimp only
      split
      · exact .inl ⟨_, rfl⟩
      · split
        · exact .inl ⟨_, rfl⟩
        · rename_i file found
          have named : Path.base (Path.clean header.name) = file.name := (selectFile_eq_some found).symm
          rw [named]
          split
          · exact .inl ⟨_, rfl⟩
          · rename_i fresh
            obtain ⟨result, written, fits⟩ :=
              writeStreamToDisk_cases stream disk (file.target dirPath) file.sizeLimit
            rw [← BackupFile.target, written]
            cases result with
            | error failure => exact .inr (.inr ⟨file, _, rfl, named, fresh, rfl, fun _ ok => by cases ok⟩)
            | ok _ =>
                refine .inr (.inr ⟨file, _, rfl, named, fresh, rfl, fun after ok => ?_⟩)
                cases ok
                exact ⟨rfl, fits rfl⟩

end Steps

section Containment

variable (dirPath : GoString)

structure Contained (before after : Disk) : Prop where
  elsewhere : ∀ path, (∀ file : BackupFile, path ≠ file.target dirPath) → after[path]? = before[path]?
  bounded : ∀ file : BackupFile, after[file.target dirPath]? = before[file.target dirPath]? ∨
    ∃ content, after[file.target dirPath]? = some content ∧ content.length ≤ file.sizeLimit

theorem getElem?_insert_other (disk : Disk) {path other : GoString} (content : Bytes) (ne : other ≠ path) :
    (disk.insert path content)[other]? = disk[other]? := by
  rw [Std.ExtTreeMap.getElem?_insert, if_neg]
  exact fun same => ne (Std.LawfulEqCmp.eq_of_compare same).symm

variable {dirPath}

theorem Contained.refl (disk : Disk) : Contained dirPath disk disk :=
  ⟨fun _ _ => rfl, fun _ => .inl rfl⟩

theorem Contained.trans {first second third : Disk} (before : Contained dirPath first second)
    (after : Contained dirPath second third) : Contained dirPath first third where
  elsewhere path other := (after.elsewhere path other).trans (before.elsewhere path other)
  bounded file := by
    rcases after.bounded file with same | written
    · rw [same]
      exact before.bounded file
    · exact .inr written

theorem Contained.insert (disk : Disk) (file : BackupFile) (content : Bytes) :
    Contained dirPath disk (disk.insert (file.target dirPath) (content.take file.sizeLimit)) where
  elsewhere path other := getElem?_insert_other disk _ (other file)
  bounded other := by
    by_cases same : other = file
    · subst same
      exact .inr ⟨_, Std.ExtTreeMap.getElem?_insert_self, List.length_take_le ..⟩
    · exact .inl (getElem?_insert_other disk _ fun target => same (BackupFile.target_injective dirPath target))

variable (dirPath)

theorem extractEntry_contained (processed : List GoString) (header : Header) (stream : Stream) (disk : Disk) :
    Contained dirPath disk (extractEntry dirPath processed header stream disk).2 := by
  obtain ⟨failure, out⟩ | ⟨_, _, out⟩ | ⟨file, result, _, _, _, out, _⟩ :=
    extractEntry_cases dirPath processed header stream disk
  · rw [out]
    exact .refl disk
  · rw [out]
    exact .refl disk
  · rw [out]
    exact .insert disk file stream.unread

theorem extractAll_contained (archive : Archive) (processed : List GoString) (disk : Disk) :
    Contained dirPath disk (extractAll dirPath processed disk archive).2 := by
  induction archive generalizing processed disk with
  | ends failure => cases failure <;> exact .refl disk
  | truncated header content failure =>
      have entry := extractEntry_contained dirPath processed header ⟨content, some failure⟩ disk
      unfold extractAll
      split <;> rename_i out <;> rw [out] at entry <;> exact entry
  | entry header content rest ih =>
      have entry := extractEntry_contained dirPath processed header ⟨content, none⟩ disk
      unfold extractAll
      split
      · rename_i out
        rw [out] at entry
        exact entry
      · rename_i later written out
        rw [out] at entry
        exact entry.trans (ih later written)

end Containment

section Faithfulness

variable {dirPath : GoString}

/-- No links, and for each base name at most one regular entry, with its content in the file. -/
structure Restored (dirPath : GoString) (processed : List GoString) (archive : Archive)
    (before after : Disk) : Prop where
  unlinked : ∀ entry ∈ archive.entries, ¬ entry.1.IsLink
  once : ∀ baseName, (archive.regulars baseName).length ≤ if baseName ∈ processed then 0 else 1
  content : ∀ file : BackupFile, after[file.target dirPath]? =
    (archive.regulars file.name).head?.or before[file.target dirPath]?

theorem regulars_entry (header : Header) (content : Bytes) (rest : Archive) (baseName : GoString) :
    (Archive.entry header content rest).regulars baseName =
      if header.typeflag = .reg ∧ header.baseName = baseName then content :: rest.regulars baseName
      else rest.regulars baseName := by
  simp only [Archive.regulars, Archive.entries, List.filter_cons, decide_eq_true_eq]
  split <;> rfl

section Entry

variable {processed : List GoString} {header : Header} {content : Bytes} {rest : Archive}
  {disk after : Disk}

theorem Restored.skip {flag : UInt8} (other : header.typeflag = .other flag)
    (restored : Restored dirPath processed rest disk after) :
    Restored dirPath processed (.entry header content rest) disk after := by
  have same (baseName : GoString) :
      (Archive.entry header content rest).regulars baseName = rest.regulars baseName := by
    rw [regulars_entry, if_neg (by simp [other])]
  constructor
  · exact List.forall_mem_cons.mpr ⟨by simp [Header.IsLink, other], restored.unlinked⟩
  · intro baseName
    rw [same]
    exact restored.once baseName
  · intro file
    rw [same]
    exact restored.content file

theorem Restored.write {file : BackupFile} (regular : header.typeflag = .reg)
    (named : header.baseName = file.name) (fresh : file.name ∉ processed)
    (fits : content.length ≤ file.sizeLimit) (restored : Restored dirPath (file.name :: processed) rest
      (disk.insert (file.target dirPath) (content.take file.sizeLimit)) after) :
    Restored dirPath processed (.entry header content rest) disk after := by
  have none_left : rest.regulars file.name = [] := by
    have bound := restored.once file.name
    rwa [if_pos List.mem_cons_self, Nat.le_zero, List.length_eq_zero_iff] at bound
  constructor
  · exact List.forall_mem_cons.mpr ⟨by simp [Header.IsLink, regular], restored.unlinked⟩
  · intro baseName
    by_cases same : file.name = baseName
    · subst same
      rw [regulars_entry, if_pos ⟨regular, named⟩, none_left, if_neg fresh]
      exact le_rfl
    · have bound := restored.once baseName
      simp only [List.mem_cons, Ne.symm same, false_or] at bound
      rwa [regulars_entry, if_neg fun taken => same (named.symm.trans taken.2)]
  · intro other
    rw [regulars_entry, restored.content other]
    by_cases same : other = file
    · subst same
      rw [if_pos ⟨regular, named⟩, none_left, Std.ExtTreeMap.getElem?_insert_self,
        List.take_of_length_le fits]
      rfl
    · have names : header.baseName ≠ other.name := fun taken =>
        same (BackupFile.name_injective (taken.symm.trans named))
      rw [if_neg fun taken => names taken.2, getElem?_insert_other]
      exact fun target => same (BackupFile.target_injective dirPath target)

end Entry

theorem extractAll_restored {archive : Archive} {processed : List GoString} {disk : Disk}
    (ok : (extractAll dirPath processed disk archive).1 = .ok ()) :
    Restored dirPath processed archive disk (extractAll dirPath processed disk archive).2 := by
  induction archive generalizing processed disk with
  | ends failure =>
      cases failure with
      | some failure => cases ok
      | none => exact ⟨by simp [Archive.entries], by simp [Archive.regulars, Archive.entries],
          by simp [Archive.regulars, Archive.entries, extractAll]⟩
  | truncated header content failure =>
      unfold extractAll at ok
      split at ok <;> cases ok
  | entry header content rest ih =>
      obtain ⟨failure, out⟩ | ⟨flag, other, out⟩ | ⟨file, result, regular, named, fresh, out, fits⟩ :=
        extractEntry_cases dirPath processed header ⟨content, none⟩ disk
      · rw [extractAll, out] at ok
        cases ok
      · rw [extractAll, out] at ok ⊢
        exact (ih ok).skip other
      · rw [extractAll, out] at ok ⊢
        cases result with
        | error failure => cases ok
        | ok later =>
            obtain ⟨rfl, short⟩ := fits later rfl
            exact (ih ok).write regular named fresh short

end Faithfulness

section Extraction

/-- Whatever an archive has, its extraction changes only the three files of the backup, and what it
writes to one of them keeps to the limit. If it succeeds, the archive has no link and at most one
regular entry for a base name, and each file has the content of its entry, or what it had before if
there is none. -/
theorem extractFiles_contained_faithful (archive : Archive) (dirPath : GoString) (disk : Disk) :
    let result := (extractFiles archive dirPath disk).1
    let after := (extractFiles archive dirPath disk).2
    (∀ path, (∀ file : BackupFile, path ≠ file.target dirPath) → after[path]? = disk[path]?) ∧
    (∀ file : BackupFile, after[file.target dirPath]? = disk[file.target dirPath]? ∨
      ∃ content, after[file.target dirPath]? = some content ∧ content.length ≤ file.sizeLimit) ∧
    (result = .ok () →
      (∀ entry ∈ archive.entries, ¬ entry.1.IsLink) ∧
      (∀ baseName, (archive.regulars baseName).length ≤ 1) ∧
      ∀ file : BackupFile, after[file.target dirPath]? =
        (archive.regulars file.name).head?.or disk[file.target dirPath]?) := by
  have contained := extractAll_contained dirPath archive [] disk
  refine ⟨contained.elsewhere, contained.bounded, fun ok => ?_⟩
  have restored := extractAll_restored ok
  exact ⟨restored.unlinked, fun baseName => by simpa using restored.once baseName, restored.content⟩

def folderBackup : Archive :=
  .entry ⟨"backup/".toList, .other 53⟩ []
    (.entry ⟨"backup/manifest.yaml".toList, .reg⟩ [109, 10]
      (.entry ⟨"backup/./objects.jsonl".toList, .reg⟩ [] (.ends none)))

theorem folderBackup_extracted :
    (extractFiles folderBackup "/tmp/restore".toList ∅).1 = .ok () ∧
      (extractFiles folderBackup "/tmp/restore".toList ∅).2["/tmp/restore/manifest.yaml".toList]? =
        some [109, 10] := by
  obtain ⟨_, _, faithful⟩ := extractFiles_contained_faithful folderBackup "/tmp/restore".toList ∅
  have ok : (extractFiles folderBackup "/tmp/restore".toList ∅).1 = .ok () := by decide +kernel
  have target : BackupFile.target "/tmp/restore".toList .manifest = "/tmp/restore/manifest.yaml".toList := by
    decide +kernel
  have content := (faithful ok).2.2 .manifest
  rw [target] at content
  exact ⟨ok, content.trans (by decide +kernel)⟩

end Extraction

end Eamerald.Command
