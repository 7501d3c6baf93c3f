import Eamerald.Command.MigrateToPostgres

/-! The client that sets a manifest. It reads blocks and sends them one by one, and takes
the first read that does not fill its buffer for the last one. -/

set_option autoImplicit false

namespace Eamerald.Command

open Foundation Store Directory

inductive ReadEnd where
  | eof
  | failed (error : Err)
deriving DecidableEq

/-- The reads that report nothing, and the read that reports the end, which may give data as well. -/
structure Reader where
  reads : List Bytes
  last : Bytes := []
  ending : ReadEnd := .eof
  fits : ∀ chunk ∈ last :: reads, chunk.length ≤ blockSize

def Reader.content (reader : Reader) : Bytes := reader.reads.flatten ++ reader.last

/-- Whether the stream opens, which messages can be sent, and what the server answers to those. -/
structure UploadStream where
  opens : Except Err Unit := .ok ()
  send : Nat → Except Err Unit := fun _ => .ok ()
  closeAndRecv : List Body → Except Err Unit := fun _ => .ok ()

section Client

variable (stream : UploadStream)

def sendBlocks (ending : ReadEnd) : Nat → List Bytes → List Body × Except Err Unit
  | _, [] =>
      match ending with
      | .eof => ([], .ok ())
      | .failed error => ([], .error error)
  | index, chunk :: rest =>
      match stream.send index with
      | .error error => ([], .error error)
      | .ok _ =>
          if chunk.length < blockSize then ([⟨chunk⟩], .ok ())
          else
            let (bodies, outcome) := sendBlocks ending (index + 1) rest
            (⟨chunk⟩ :: bodies, outcome)

def setManifest (reader : Reader) : List Body × Except Err Unit :=
  match stream.opens with
  | .error error => ([], .error error)
  | .ok _ =>
      match sendBlocks stream reader.ending 0 reader.reads with
      | (bodies, .error error) => (bodies, .error error)
      | (bodies, .ok _) => (bodies, stream.closeAndRecv bodies)

end Client

/-- The bodies make up all that the reader has, or the call returns an error. -/
def SendsWhole (stream : UploadStream) (reader : Reader) : Prop :=
  (∃ error, (setManifest stream reader).2 = .error error) ∨
    (setManifest stream reader).1.flatMap Body.data = reader.content

/-- Nothing is left behind a read that does not fill the buffer, and nothing comes together with
the end. -/
structure Reader.Blockwise (reader : Reader) : Prop where
  short : ∀ before chunk after, reader.reads = before ++ chunk :: after → chunk.length < blockSize →
    after.flatten = [] ∧ reader.last = []
  last : reader.ending = .eof → reader.last = []

section Loop

variable {stream : UploadStream} {ending : ReadEnd}

theorem sendBlocks_ok {index : Nat} {reads : List Bytes} {bodies : List Body}
    (sent : sendBlocks stream ending index reads = (bodies, .ok ())) :
    (∃ before chunk after, reads = before ++ chunk :: after ∧ chunk.length < blockSize ∧
        bodies.flatMap Body.data = before.flatten ++ chunk) ∨
      ending = .eof ∧ bodies.flatMap Body.data = reads.flatten := by
  induction reads generalizing index bodies with
  | nil =>
      cases ending with
      | failed error => cases sent
      | eof =>
          cases sent
          exact .inr ⟨rfl, rfl⟩
  | cons chunk rest ih =>
      rw [sendBlocks] at sent
      cases accepted : stream.send index with
      | error error =>
          rw [accepted] at sent
          cases sent
      | ok _ =>
          rw [accepted] at sent
          dsimp only at sent
          by_cases short : chunk.length < blockSize
          · rw [if_pos short] at sent
            cases sent
            exact .inl ⟨[], chunk, rest, rfl, short, by simp⟩
          · rw [if_neg short] at sent
            cases continued : sendBlocks stream ending (index + 1) rest with
            | mk later outcome =>
                rw [continued] at sent
                cases sent
                rcases ih continued with ⟨before, last, after, rfl, shorter, same⟩ | ⟨ended, same⟩
                · exact .inl ⟨chunk :: before, last, after, rfl, shorter, by simp [same]⟩
                · exact .inr ⟨ended, by simp [same]⟩

theorem sendBlocks_short {before : List Bytes} {chunk : Bytes} (short : chunk.length < blockSize)
    (full : ∀ block ∈ before, ¬ block.length < blockSize) (after : List Bytes) (index : Nat) :
    sendBlocks {} ending index (before ++ chunk :: after) = ((before ++ [chunk]).map Body.mk, .ok ()) := by
  induction before generalizing index with
  | nil => simp [sendBlocks, short]
  | cons block rest ih =>
      have later := ih (fun other member => full other (List.mem_cons_of_mem _ member)) (index + 1)
      simp [sendBlocks, full block List.mem_cons_self, later]

theorem sendBlocks_full {reads : List Bytes} (full : ∀ block ∈ reads, ¬ block.length < blockSize)
    (index : Nat) : sendBlocks {} .eof index reads = (reads.map Body.mk, .ok ()) := by
  induction reads generalizing index with
  | nil => rfl
  | cons block rest ih =>
      have later := ih (fun other member => full other (List.mem_cons_of_mem _ member)) (index + 1)
      simp [sendBlocks, full block List.mem_cons_self, later]

theorem exists_short (reads : List Bytes) : (∀ block ∈ reads, ¬ block.length < blockSize) ∨
      ∃ before chunk after, reads = before ++ chunk :: after ∧ chunk.length < blockSize ∧
        ∀ block ∈ before, ¬ block.length < blockSize := by
  induction reads with
  | nil => exact .inl (nofun)
  | cons block rest ih =>
      by_cases short : block.length < blockSize
      · exact .inr ⟨[], block, rest, rfl, short, nofun⟩
      · rcases ih with full | ⟨before, chunk, after, rfl, shorter, full⟩
        · exact .inl (List.forall_mem_cons.mpr ⟨short, full⟩)
        · exact .inr ⟨block :: before, chunk, after, rfl, shorter, List.forall_mem_cons.mpr ⟨short, full⟩⟩

end Loop

section Whole

variable {stream : UploadStream} {reader : Reader}

theorem setManifest_ok {bodies : List Body} (sent : setManifest stream reader = (bodies, .ok ())) :
    sendBlocks stream reader.ending 0 reader.reads = (bodies, .ok ()) := by
  rw [setManifest] at sent
  cases opened : stream.opens with
  | error error =>
      rw [opened] at sent
      cases sent
  | ok _ =>
      rw [opened] at sent
      dsimp only at sent
      cases looped : sendBlocks stream reader.ending 0 reader.reads with
      | mk blocks outcome =>
          rw [looped] at sent
          cases outcome with
          | error error => cases sent
          | ok _ => rw [(Prod.mk.inj sent).1]

theorem setManifest_clean {bodies : List Body}
    (looped : sendBlocks {} reader.ending 0 reader.reads = (bodies, .ok ())) :
    setManifest {} reader = (bodies, .ok ()) := by
  rw [setManifest]
  dsimp only
  rw [looped]

theorem sendsWhole_of_blockwise (blockwise : reader.Blockwise) : SendsWhole stream reader := by
  rw [SendsWhole]
  cases sent : setManifest stream reader with
  | mk bodies outcome =>
      cases outcome with
      | error error => exact .inl ⟨error, rfl⟩
      | ok _ =>
          right
          rcases sendBlocks_ok (setManifest_ok sent) with
            ⟨before, chunk, after, reads, short, same⟩ | ⟨ended, same⟩
          · obtain ⟨nothing, none⟩ := blockwise.short before chunk after reads short
            rw [same, Reader.content, reads, none]
            simp [nothing]
          · rw [same, Reader.content, blockwise.last ended, List.append_nil]

theorem nothing_left_of_short {before : List Bytes} {chunk : Bytes} {after : List Bytes}
    (reads : reader.reads = before ++ chunk :: after) (short : chunk.length < blockSize)
    (full : ∀ block ∈ before, ¬ block.length < blockSize) (whole : SendsWhole {} reader) :
    after.flatten = [] ∧ reader.last = [] := by
  have sent := setManifest_clean (reads ▸ sendBlocks_short short full after 0)
  rw [SendsWhole, sent] at whole
  rcases whole with ⟨error, failed⟩ | same
  · cases failed
  · simpa [Reader.content, reads, List.flatMap_map, Function.comp_def] using same

theorem nothing_left_of_full (full : ∀ block ∈ reader.reads, ¬ block.length < blockSize)
    (ended : reader.ending = .eof) (whole : SendsWhole {} reader) : reader.last = [] := by
  have sent := setManifest_clean (ended ▸ sendBlocks_full full 0)
  rw [SendsWhole, sent] at whole
  rcases whole with ⟨error, failed⟩ | same
  · cases failed
  · simpa [Reader.content, List.flatMap_map, Function.comp_def] using same

/-- The client sends all of a manifest, whatever happens to its stream, exactly if the reader
gives it in blocks. -/
theorem setManifest_sends_whole_iff (reader : Reader) :
    (∀ stream, SendsWhole stream reader) ↔ reader.Blockwise := by
  constructor
  · intro whole
    rcases exists_short reader.reads with full | ⟨before, chunk, after, reads, short, full⟩
    · constructor
      · intro before chunk after reads short
        exact absurd short (full chunk (by simp [reads]))
      · intro ended
        exact nothing_left_of_full full ended (whole {})
    · obtain ⟨nothing, none⟩ := nothing_left_of_short reads short full (whole {})
      refine ⟨?_, fun _ => none⟩
      intro other again later same shorter
      refine ⟨?_, none⟩
      -- the first short block is this one or comes before it
      rw [reads] at same
      rcases List.append_eq_append_iff.mp same with ⟨between, rfl, tail⟩ | ⟨between, rfl, tail⟩
      · cases between with
        | nil =>
            cases tail
            exact nothing
        | cons head rest =>
            rw [List.cons_append] at tail
            obtain ⟨rfl, rfl⟩ := List.cons.inj tail
            simp only [List.flatten_append, List.flatten_cons, List.append_eq_nil_iff] at nothing
            exact nothing.2.2
      · cases between with
        | nil =>
            cases tail
            exact nothing
        | cons head rest =>
            cases tail
            exact absurd shorter (full again (by simp))
  · intro blockwise stream
    exact sendsWhole_of_blockwise blockwise

/-- A pipe that gives a manifest in two parts, and a reader that reports the end together with
the data. -/
theorem short_manifests_sent :
    (setManifest {} { reads := [[100], [101]], fits := by decide }).1.map Body.data = [[100]] ∧
      (setManifest {} { reads := [[100], [101]], fits := by decide }).2 = .ok () ∧
      (setManifest {} { reads := [], last := [100], fits := by decide }).1 = [] ∧
      (setManifest {} { reads := [], last := [100], fits := by decide }).2 = .ok () := by
  decide

end Whole

section Blocks

variable {α : Type}

theorem toChunks_go (size : Nat) (rest : List α) (block : Array α) (blocks : Array (List α))
    (positive : 0 < size) (room : block.size ≤ size) :
    ∃ full last, List.toChunks.go size rest block blocks = blocks.toList ++ full ++ [last] ∧
      (∀ chunk ∈ full, chunk.length = size) ∧ last.length ≤ size ∧
      full.flatten ++ last = block.toList ++ rest := by
  induction rest generalizing block blocks with
  | nil => exact ⟨[], block.toList, by simp [List.toChunks.go], nofun, by simpa using room, by simp⟩
  | cons item rest ih =>
      rw [List.toChunks.go]
      by_cases filled : block.size == size
      · rw [if_pos filled]
        have length : block.toList.length = size := by simpa using filled
        obtain ⟨full, last, chunks, sizes, short, same⟩ := ih ((Array.mkEmpty size).push item)
          (blocks.push block.toList) (by simpa using Nat.succ_le_of_lt positive)
        refine ⟨block.toList :: full, last, ?_, ?_, short, ?_⟩
        · rw [chunks]
          simp
        · exact List.forall_mem_cons.mpr ⟨length, sizes⟩
        · rw [List.flatten_cons, List.append_assoc, same]
          simp
      · rw [if_neg filled]
        have larger : block.size < size := by
          have different : block.size ≠ size := by simpa using filled
          omega
        obtain ⟨full, last, chunks, sizes, short, same⟩ := ih (block.push item) blocks
          (by rw [Array.size_push]; omega)
        refine ⟨full, last, chunks, sizes, short, ?_⟩
        rw [same]
        simp

theorem toChunks_cases (data : List α) {size : Nat} (positive : 0 < size) :
    data = [] ∧ data.toChunks size = [] ∨
      ∃ full last, data.toChunks size = full ++ [last] ∧ (∀ chunk ∈ full, chunk.length = size) ∧
        last.length ≤ size ∧ full.flatten ++ last = data := by
  cases data with
  | nil => exact .inl ⟨rfl, by rw [List.toChunks]⟩
  | cons item rest =>
      right
      obtain ⟨full, last, chunks, sizes, short, same⟩ := toChunks_go size rest #[item] #[] positive
        (by simpa using Nat.succ_le_of_lt positive)
      refine ⟨full, last, ?_, sizes, short, same⟩
      rw [List.toChunks]
      · simpa using chunks
      · exact positive.ne'

end Blocks

section Bytes

def bytesReader (data : Bytes) : Reader where
  reads := data.toChunks blockSize
  fits := by
    refine List.forall_mem_cons.mpr ⟨Nat.zero_le _, ?_⟩
    rcases toChunks_cases data (by decide : 0 < blockSize) with
      ⟨_, chunks⟩ | ⟨full, last, chunks, sizes, short, _⟩
    · rw [chunks]
      nofun
    · rw [chunks]
      intro chunk member
      rcases List.mem_append.mp member with found | found
      · exact (sizes chunk found).le
      · exact List.mem_singleton.mp found ▸ short

theorem content_bytesReader (data : Bytes) : (bytesReader data).content = data := by
  change (data.toChunks blockSize).flatten ++ [] = data
  rw [List.append_nil]
  rcases toChunks_cases data (by decide : 0 < blockSize) with
    ⟨rfl, chunks⟩ | ⟨full, last, chunks, _, _, same⟩
  · rw [chunks]
    rfl
  · rw [chunks, List.flatten_append, List.flatten_singleton, same]

/-- The manifest of a directory is copied in blocks, and all of it is sent. -/
theorem setManifest_bytesReader (data : Bytes) :
    setManifest {} (bytesReader data) = ((data.toChunks blockSize).map Body.mk, .ok ()) := by
  apply setManifest_clean
  change sendBlocks {} .eof 0 (data.toChunks blockSize) = _
  rcases toChunks_cases data (by decide : 0 < blockSize) with
    ⟨_, chunks⟩ | ⟨full, last, chunks, sizes, _, _⟩
  · rw [chunks]
    rfl
  · have filled (block : Bytes) (member : block ∈ full) : ¬ block.length < blockSize := by
      rw [sizes block member]
      exact lt_irrefl _
    rw [chunks]
    by_cases short : last.length < blockSize
    · exact sendBlocks_short short filled [] 0
    · refine sendBlocks_full ?_ 0
      intro block member
      rcases List.mem_append.mp member with found | found
      · exact filled block found
      · exact List.mem_singleton.mp found ▸ short

theorem sent_bytesReader (data : Bytes) : (setManifest {} (bytesReader data)).1.flatMap Body.data = data := by
  have whole := content_bytesReader data
  change (data.toChunks blockSize).flatten ++ [] = data at whole
  rw [setManifest_bytesReader, List.flatMap_map]
  simpa [List.flatMap_id'] using whole

theorem messages_manifestBlocks (data : Bytes) :
    (manifestBlocks data).messages = (setManifest {} (bytesReader data)).1.map some := by
  rw [setManifest_bytesReader, manifestBlocks, List.map_map]
  rfl

end Bytes

end Eamerald.Command
