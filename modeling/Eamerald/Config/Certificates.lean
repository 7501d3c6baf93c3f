import Eamerald.Foundation.Paths
import Eamerald.Service.Ports

/-! The certificates that a new configuration generates for its services. The list of existing files
is kept from one service to the next, so that a service with an existing file also stops the
generation for those that follow it in the iteration of the map, and a file that was just generated
counts as an existing one. -/

set_option autoImplicit false

namespace Eamerald.Certificates

open Foundation

variable {path : GoString}

section Model

inductive Part where
  | key | cert | ca
deriving DecidableEq, Repr

/-- A file has its own bytes, or it is a part of a generated certificate. -/
inductive Content where
  | bytes (data : Bytes)
  | generated (commonName : GoString) (part : Part)
deriving DecidableEq

abbrev Disk := Std.ExtTreeMap GoString Content

inductive Lookup where
  | directory
  | absent
  | failed (error : GoString)
deriving DecidableEq, Repr

/-- The file system apart from its regular files. -/
structure Host where
  /-- The file that a path leads to. Several paths may lead to one file. -/
  place : GoString → GoString
  lookup : GoString → Lookup
  /-- The error with which writing to a path fails. -/
  writes : GoString → Option GoString
  inside : ∀ path, lookup (Path.dir path) ≠ .directory → (writes path).isSome

variable (host : Host)

def fileExists (disk : Disk) (path : GoString) : Except GoString Bool :=
  if path = [] then .ok false
  else if host.place path ∈ disk then .ok true
  else
    match host.lookup path with
    | .absent => .ok false
    -- the error is nil, and wrapping it gives nil
    | .directory => .ok false
    | .failed error => .error ("failed to stat file '".toList ++ path ++ "': ".toList ++ error)

structure CertGenConfig where
  commonName : GoString
  certKeyPath : GoString
  certPath : GoString
  certCAPath : GoString

/-- The default directory is empty here, and no path has the empty one, so that none is created. -/
def checkDir (disk : Disk) (cfg : CertGenConfig) : Except GoString Unit :=
  let certDir := Path.dir cfg.certPath
  let keyDir := Path.dir cfg.certKeyPath
  let caCertDir := Path.dir cfg.certCAPath
  if certDir ≠ keyDir ∨ certDir ≠ caCertDir then
    .error "output directory for all configured certificates and keys must be the same".toList
  else if host.place certDir ∈ disk then .ok ()
  else
    match host.lookup certDir with
    | .directory => .ok ()
    | .absent => .error ("output directory '".toList ++ certDir ++ "' doesn't exist".toList)
    | .failed error =>
        .error ("failed to determine if output directory '".toList ++ certDir ++ "' exists: ".toList ++ error)

/-- A file to write, with the text that wraps the error. -/
structure Output where
  path : GoString
  content : Content
  fault : GoString

def writeFiles : List Output → Disk → Except GoString Unit × Disk
  | [], disk => (.ok (), disk)
  | file :: rest, disk =>
      match host.writes file.path with
      | some error => (.error (file.fault ++ ": ".toList ++ error), disk)
      | none => writeFiles rest (disk.insert (host.place file.path) file.content)

def CertGenConfig.outputs (cfg : CertGenConfig) : List Output :=
  [⟨cfg.certKeyPath, .generated cfg.commonName .key, "failed to write key".toList⟩,
    ⟨cfg.certPath, .generated cfg.commonName .cert, "failed to write key".toList⟩,
    ⟨cfg.certCAPath, .generated cfg.commonName .ca, "failed to write ca cert".toList⟩]

def makeDevCert (cfg : CertGenConfig) (disk : Disk) : Except GoString Unit × Disk :=
  match checkDir host disk cfg with
  | .error error => (.error ("directory verification returned an error: ".toList ++ error), disk)
  | .ok () => writeFiles host cfg.outputs disk

def certFiles (config : Builder.API) : List GoString :=
  [config.grpc.certs.ca, config.grpc.certs.cert, config.grpc.certs.key,
    config.gateway.certs.ca, config.gateway.certs.cert, config.gateway.certs.key]

def addExisting (disk : Disk) (serviceName : GoString) :
    List GoString → List GoString → Except GoString (List GoString)
  | existingFiles, [] => .ok existingFiles
  | existingFiles, file :: rest =>
      match fileExists host disk file with
      | .error error =>
          .error ("failed to determine if file '".toList ++ file ++ "' exists (".toList ++ serviceName ++
            "): ".toList ++ error)
      | .ok false => addExisting disk serviceName existingFiles rest
      | .ok true => addExisting disk serviceName (existingFiles ++ [file]) rest

def complete (certs : Builder.TLSConfig) : Bool := certs.hasCert && certs.hasCA

/-- A section of a service: `kind` is what the common name ends in and what the error says. -/
def setupSection (kind serviceName : GoString) (certs : Builder.TLSConfig) (disk : Disk) :
    Except GoString Unit × Disk :=
  if complete certs then
    let (outcome, disk) := makeDevCert host ⟨"eamerald-".toList ++ kind, certs.key, certs.cert, certs.ca⟩ disk
    (outcome.mapError ("failed to generate ".toList ++ kind ++ " certs (".toList ++ serviceName ++
      "): ".toList ++ ·), disk)
  else (.ok (), disk)

def setupSections (serviceName : GoString) (config : Builder.API) (disk : Disk) : Except GoString Unit × Disk :=
  match setupSection host "grpc".toList serviceName config.grpc.certs disk with
  | (.error error, disk) => (.error error, disk)
  | (.ok (), disk) => setupSection host "gateway".toList serviceName config.gateway.certs disk

def setupServices (services : Builder.Services) :
    List GoString → List GoString → Disk → Except GoString Unit × Disk
  | [], _, disk => (.ok (), disk)
  | serviceName :: rest, existingFiles, disk =>
      match addExisting host disk serviceName existingFiles (certFiles (services.config serviceName)) with
      | .error error => (.error error, disk)
      | .ok (file :: files) => setupServices services rest (file :: files) disk
      | .ok [] =>
          match setupSections host serviceName (services.config serviceName) disk with
          | (.error error, disk) => (.error error, disk)
          | (.ok (), disk) => setupServices services rest [] disk

def setupCerts (services : Builder.Services) (order : List GoString) (disk : Disk) :
    Except GoString Unit × Disk :=
  setupServices host services order [] disk

end Model

section Writing

structure Wrote (host : Host) (paths : List GoString) (before after : Disk) : Prop where
  mem_iff : ∀ file, file ∈ after ↔ file ∈ before ∨ file ∈ paths.map host.place
  kept : ∀ file, file ∉ paths.map host.place → after[file]? = before[file]?

variable {host : Host} {paths : List GoString} {before after disk : Disk}

theorem Wrote.nothing : Wrote host [] disk disk where
  mem_iff file := by simp
  kept _ _ := rfl

theorem Wrote.append {more : List GoString} (first : Wrote host paths before disk)
    (second : Wrote host more disk after) : Wrote host (paths ++ more) before after where
  mem_iff file := by
    rw [second.mem_iff, first.mem_iff, List.map_append, List.mem_append, or_assoc]
  kept file other := by
    rw [List.map_append, List.mem_append, not_or] at other
    exact (second.kept file other.2).trans (first.kept file other.1)

theorem wrote_insert (path : GoString) (content : Content) :
    Wrote host [path] disk (disk.insert (host.place path) content) where
  mem_iff file := by
    rw [Std.ExtTreeMap.mem_insert, Std.LawfulEqCmp.compare_eq_iff_eq, List.map_singleton, List.mem_singleton]
    exact or_comm.trans (or_congr_right eq_comm)
  kept file other := by
    rw [List.map_singleton, List.mem_singleton] at other
    rw [Std.ExtTreeMap.getElem?_insert, if_neg]
    rw [Std.LawfulEqCmp.compare_eq_iff_eq]
    exact fun same => other same.symm

def writable (host : Host) (paths : List GoString) : List GoString :=
  paths.takeWhile fun path => (host.writes path).isNone

theorem writeFiles_wrote (host : Host) (files : List Output) (disk : Disk) :
    Wrote host (writable host (files.map Output.path)) disk (writeFiles host files disk).2 := by
  induction files generalizing disk with
  | nil => exact .nothing
  | cons file rest ih =>
      unfold writeFiles writable
      rw [List.map_cons, List.takeWhile_cons]
      cases faulty : host.writes file.path with
      | some error => exact .nothing
      | none => exact (wrote_insert file.path file.content).append (ih _)

theorem writeFiles_isOk_iff (host : Host) (files : List Output) (disk : Disk) :
    (writeFiles host files disk).1.isOk = true ↔ ∀ path ∈ files.map Output.path, host.writes path = none := by
  induction files generalizing disk with
  | nil => simp [writeFiles, Except.isOk, Except.toBool]
  | cons file rest ih =>
      unfold writeFiles
      rw [List.map_cons, List.forall_mem_cons]
      cases faulty : host.writes file.path with
      | some error => simp [Except.isOk, Except.toBool]
      | none => simpa using ih _

end Writing

section Sections

variable (host : Host)

def sectionFiles (certs : Builder.TLSConfig) : List GoString := [certs.key, certs.cert, certs.ca]

def Housed (certs : Builder.TLSConfig) : Prop :=
  Path.dir certs.cert = Path.dir certs.key ∧ Path.dir certs.cert = Path.dir certs.ca ∧
    host.lookup (Path.dir certs.cert) = .directory

instance (certs : Builder.TLSConfig) : Decidable (Housed host certs) := by
  unfold Housed
  infer_instance

def generated (certs : Builder.TLSConfig) : List GoString :=
  if complete certs ∧ Housed host certs then writable host (sectionFiles certs) else []

def Fails (certs : Builder.TLSConfig) : Prop :=
  complete certs ∧ ¬ (Housed host certs ∧ ∀ path ∈ sectionFiles certs, host.writes path = none)

instance (certs : Builder.TLSConfig) : Decidable (Fails host certs) := by
  unfold Fails
  infer_instance

def generatedFor (config : Builder.API) : List GoString :=
  generated host config.grpc.certs ++
    if Fails host config.grpc.certs then [] else generated host config.gateway.certs

def FailsFor (config : Builder.API) : Prop :=
  Fails host config.grpc.certs ∨ Fails host config.gateway.certs

instance (config : Builder.API) : Decidable (FailsFor host config) := by
  unfold FailsFor
  infer_instance

variable {host} {certs : Builder.TLSConfig}

theorem generated_subset : generated host certs ⊆ sectionFiles certs := by
  unfold generated
  split
  · exact (List.takeWhile_sublist _).subset
  · exact List.nil_subset _

theorem complete_of_mem_generated (made : path ∈ generated host certs) : complete certs = true := by
  unfold generated at made
  split at made
  · rename_i both
    exact both.1
  · exact absurd made List.not_mem_nil

theorem generated_eq_of_not_fails (whole : complete certs = true) (fine : ¬ Fails host certs) :
    generated host certs = sectionFiles certs := by
  obtain ⟨housed, writes⟩ := not_not.mp fun failing => fine ⟨whole, failing⟩
  rw [generated, if_pos ⟨whole, housed⟩, writable, List.takeWhile_eq_self_iff]
  exact fun path member => Option.isNone_iff_eq_none.mpr (writes path member)

variable (commonName : GoString) (disk : Disk)

theorem makeDevCert_housed (housed : Housed host certs) :
    makeDevCert host ⟨commonName, certs.key, certs.cert, certs.ca⟩ disk =
      writeFiles host (CertGenConfig.outputs ⟨commonName, certs.key, certs.cert, certs.ca⟩) disk := by
  obtain ⟨key, ca, directory⟩ := housed
  have passed : checkDir host disk ⟨commonName, certs.key, certs.cert, certs.ca⟩ = .ok () := by
    simp only [checkDir, ← key, ← ca, directory, ne_eq, not_true_eq_false, or_self, if_false, ite_self]
  rw [makeDevCert, passed]

theorem makeDevCert_not_housed (homeless : ¬ Housed host certs) :
    ∃ error, makeDevCert host ⟨commonName, certs.key, certs.cert, certs.ca⟩ disk = (.error error, disk) := by
  unfold makeDevCert
  cases checked : checkDir host disk ⟨commonName, certs.key, certs.cert, certs.ca⟩ with
  | error error => exact ⟨_, rfl⟩
  | ok passed =>
      have together : Path.dir certs.cert = Path.dir certs.key ∧ Path.dir certs.cert = Path.dir certs.ca := by
        by_contra apart
        rw [not_and_or] at apart
        simp [checkDir, apart] at checked
      have missing : host.lookup (Path.dir certs.key) ≠ .directory := fun directory =>
        homeless ⟨together.1, together.2, together.1 ▸ directory⟩
      obtain ⟨error, faulty⟩ := Option.isSome_iff_exists.mp (host.inside certs.key missing)
      simp [CertGenConfig.outputs, writeFiles, faulty]

theorem makeDevCert_wrote (whole : complete certs = true) : Wrote host (generated host certs) disk
      (makeDevCert host ⟨commonName, certs.key, certs.cert, certs.ca⟩ disk).2 := by
  by_cases housed : Housed host certs
  · rw [makeDevCert_housed commonName disk housed, generated, if_pos ⟨whole, housed⟩]
    exact writeFiles_wrote host (CertGenConfig.outputs ⟨commonName, certs.key, certs.cert, certs.ca⟩) disk
  · obtain ⟨error, failed⟩ := makeDevCert_not_housed commonName disk housed
    rw [failed, generated, if_neg fun both => housed both.2]
    exact .nothing

theorem makeDevCert_isOk_iff (whole : complete certs = true) :
    (makeDevCert host ⟨commonName, certs.key, certs.cert, certs.ca⟩ disk).1.isOk = true ↔
      ¬ Fails host certs := by
  unfold Fails
  by_cases housed : Housed host certs
  · rw [makeDevCert_housed commonName disk housed, writeFiles_isOk_iff]
    simp [whole, housed, CertGenConfig.outputs, sectionFiles]
  · obtain ⟨error, failed⟩ := makeDevCert_not_housed commonName disk housed
    simp [failed, whole, housed, Except.isOk, Except.toBool]

variable (host certs)

theorem setupSection_wrote (kind serviceName : GoString) :
    Wrote host (generated host certs) disk (setupSection host kind serviceName certs disk).2 := by
  unfold setupSection
  split
  · rename_i whole
    exact makeDevCert_wrote _ disk whole
  · rename_i partly
    rw [generated, if_neg fun both => partly both.1]
    exact .nothing

theorem setupSection_isOk_iff (kind serviceName : GoString) :
    (setupSection host kind serviceName certs disk).1.isOk = true ↔ ¬ Fails host certs := by
  unfold setupSection
  split
  · rename_i whole
    rw [← makeDevCert_isOk_iff ("eamerald-".toList ++ kind) disk whole]
    cases makeDevCert host ⟨"eamerald-".toList ++ kind, certs.key, certs.cert, certs.ca⟩ disk with
    | mk outcome after => cases outcome <;> rfl
  · rename_i partly
    simp [Fails, partly, Except.isOk, Except.toBool]

variable (serviceName : GoString) (config : Builder.API)

theorem setupSections_wrote :
    Wrote host (generatedFor host config) disk (setupSections host serviceName config disk).2 := by
  have grpc := setupSection_wrote host config.grpc.certs disk "grpc".toList serviceName
  have outcome := setupSection_isOk_iff host config.grpc.certs disk "grpc".toList serviceName
  unfold setupSections
  split
  · rename_i ended
    rw [ended] at grpc outcome
    rw [generatedFor, if_pos (by simpa [Except.isOk, Except.toBool] using outcome), List.append_nil]
    exact grpc
  · rename_i done
    rw [done] at grpc outcome
    rw [generatedFor, if_neg (outcome.mp rfl)]
    exact grpc.append (setupSection_wrote host _ _ _ _)

theorem setupSections_isOk_iff :
    (setupSections host serviceName config disk).1.isOk = true ↔ ¬ FailsFor host config := by
  have outcome := setupSection_isOk_iff host config.grpc.certs disk "grpc".toList serviceName
  unfold setupSections FailsFor
  split
  · rename_i ended
    rw [ended] at outcome
    have fails : Fails host config.grpc.certs := by simpa [Except.isOk, Except.toBool] using outcome
    simp [fails, Except.isOk, Except.toBool]
  · rename_i done
    rw [done] at outcome
    rw [setupSection_isOk_iff, not_or, and_iff_right (outcome.mp rfl)]

end Sections

section Services

variable (host : Host)

def Exists (disk : Disk) (path : GoString) : Prop := path ≠ [] ∧ host.place path ∈ disk

instance (disk : Disk) : DecidablePred (Exists host disk) := fun path => by
  unfold Exists
  infer_instance

/-- Whether there is a file at the path cannot be told. -/
def Obscure (path : GoString) : Prop := path ≠ [] ∧ ∃ error, host.lookup path = .failed error

theorem fileExists_cases (disk : Disk) (path : GoString) :
    (fileExists host disk path = .ok true ∧ Exists host disk path) ∨
      (fileExists host disk path = .ok false ∧ ¬ Exists host disk path ∧ ¬ Obscure host path) ∨
      ((∃ error, fileExists host disk path = .error error) ∧ Obscure host path) := by
  unfold fileExists Exists Obscure
  by_cases empty : path = []
  · simp [empty]
  · by_cases present : host.place path ∈ disk
    · simp [empty, present]
    · cases found : host.lookup path <;> simp [empty, present]

theorem addExisting_cases (disk : Disk) (serviceName : GoString) (existingFiles files : List GoString) :
    (addExisting host disk serviceName existingFiles files =
        .ok (existingFiles ++ files.filter fun path => Exists host disk path) ∧
      ∀ path ∈ files, ¬ Exists host disk path → ¬ Obscure host path) ∨
    ((∃ error, addExisting host disk serviceName existingFiles files = .error error) ∧
      ∃ path ∈ files, Obscure host path) := by
  induction files generalizing existingFiles with
  | nil => simp [addExisting]
  | cons file rest ih =>
      unfold addExisting
      rcases fileExists_cases host disk file
        with ⟨found, present⟩ | ⟨found, missing, sure⟩ | ⟨⟨error, found⟩, doubt⟩
      · rw [found]
        have later := ih (existingFiles ++ [file])
        simp only [List.filter_cons, present, decide_true, if_true, List.forall_mem_cons,
          List.exists_mem_cons_iff]
        rw [List.append_assoc, List.singleton_append] at later
        tauto
      · rw [found]
        have later := ih existingFiles
        simp only [List.filter_cons, missing, decide_false, Bool.false_eq_true, if_false, List.forall_mem_cons,
          List.exists_mem_cons_iff]
        tauto
      · rw [found]
        exact .inr ⟨⟨_, rfl⟩, file, List.mem_cons_self, doubt⟩

theorem setupServices_existing (services : Builder.Services) (order : List GoString)
    {existingFiles : List GoString} (disk : Disk) (some : existingFiles ≠ []) :
    (setupServices host services order existingFiles disk).2 = disk := by
  induction order generalizing existingFiles with
  | nil => rfl
  | cons serviceName rest ih =>
      unfold setupServices
      rcases addExisting_cases host disk serviceName existingFiles (certFiles (services.config serviceName))
        with ⟨added, -⟩ | ⟨⟨error, failed⟩, -⟩
      · obtain ⟨file, files, rfl⟩ := List.exists_cons_of_ne_nil some
        rw [added]
        exact ih (List.cons_ne_nil _ _)
      · rw [failed]

def Clear (disk : Disk) (config : Builder.API) : Prop :=
  ∀ path ∈ certFiles config, ¬ Exists host disk path ∧ ¬ Obscure host path

variable {host} {services : Builder.Services} {serviceName : GoString} {disk : Disk}

theorem setupServices_not_clear (rest : List GoString)
    (unclear : ¬ Clear host disk (services.config serviceName)) :
    (setupServices host services (serviceName :: rest) [] disk).2 = disk := by
  unfold setupServices
  rcases addExisting_cases host disk serviceName [] (certFiles (services.config serviceName))
    with ⟨added, sure⟩ | ⟨⟨error, failed⟩, -⟩
  · cases existing : (certFiles (services.config serviceName)).filter fun path => Exists host disk path with
    | nil =>
        have missing : ∀ path ∈ certFiles (services.config serviceName), ¬ Exists host disk path := by
          simpa using List.filter_eq_nil_iff.mp existing
        exact absurd (fun path member => ⟨missing path member, sure path member (missing path member)⟩) unclear
    | cons file files =>
        rw [added, List.nil_append, existing]
        exact setupServices_existing host services rest disk (List.cons_ne_nil _ _)
  · rw [failed]

section Clear

variable (rest : List GoString) (clear : Clear host disk (services.config serviceName))

include clear

theorem addExisting_clear :
    addExisting host disk serviceName [] (certFiles (services.config serviceName)) = .ok [] := by
  rcases addExisting_cases host disk serviceName [] (certFiles (services.config serviceName))
    with ⟨added, -⟩ | ⟨-, path, member, doubt⟩
  · rw [added, List.nil_append, List.filter_eq_nil_iff.mpr]
    exact fun path member => by simpa using (clear path member).1
  · exact absurd doubt (clear path member).2

theorem setupServices_clear : setupServices host services (serviceName :: rest) [] disk =
      if FailsFor host (services.config serviceName) then
        setupSections host serviceName (services.config serviceName) disk else
        setupServices host services rest []
          (setupSections host serviceName (services.config serviceName) disk).2 := by
  have outcome := setupSections_isOk_iff host disk serviceName (services.config serviceName)
  rw [setupServices, addExisting_clear clear]
  rcases ended : setupSections host serviceName (services.config serviceName) disk with ⟨_ | _, after⟩
  · rw [ended] at outcome
    rw [if_pos (by simpa [Except.isOk, Except.toBool] using outcome)]
  · rw [ended] at outcome
    rw [if_neg (outcome.mp rfl)]

end Clear

end Services

section Run

variable (host : Host) (services : Builder.Services) (before : Disk)

def makers : Makers GoString GoString where
  looks serviceName :=
    {file | ∃ path ∈ certFiles (services.config serviceName), path ≠ [] ∧ host.place path = file}
  makes serviceName := {file | file ∈ (generatedFor host (services.config serviceName)).map host.place}
  barred serviceName := ¬ Clear host before (services.config serviceName)
  breaks serviceName := FailsFor host (services.config serviceName)

/-- The files are those at first, unchanged, and those made since. -/
structure Holds (made : Set GoString) (disk : Disk) : Prop where
  mem_iff : ∀ file, file ∈ disk ↔ file ∈ before ∨ file ∈ made
  kept : ∀ file ∈ before, disk[file]? = before[file]?

theorem Holds.start : Holds before ∅ before where
  mem_iff file := by simp
  kept _ _ := rfl

variable {host services before} {made : Set GoString} {disk after : Disk} {config : Builder.API}

theorem nonempty_of_complete {certs : Builder.TLSConfig} (whole : complete certs = true) :
    ∀ path ∈ sectionFiles certs, path ≠ [] := by
  simp [complete, Builder.TLSConfig.hasCert, Builder.TLSConfig.hasCA] at whole
  simp [sectionFiles, whole]

theorem mem_certFiles_iff : path ∈ certFiles config ↔
      path ∈ sectionFiles config.grpc.certs ∨ path ∈ sectionFiles config.gateway.certs := by
  simp only [certFiles, sectionFiles, List.mem_cons, List.not_mem_nil, or_false]
  tauto

theorem mem_generatedFor (member : path ∈ generatedFor host config) :
    ∃ certs ∈ [config.grpc.certs, config.gateway.certs], complete certs = true ∧ path ∈ sectionFiles certs := by
  have ofSection {certs : Builder.TLSConfig} (here : path ∈ generated host certs) :
      complete certs = true ∧ path ∈ sectionFiles certs :=
    ⟨complete_of_mem_generated here, generated_subset here⟩
  rw [generatedFor, List.mem_append] at member
  rcases member with grpc | gateway
  · exact ⟨_, List.mem_cons_self, ofSection grpc⟩
  · split at gateway
    · exact absurd gateway List.not_mem_nil
    · exact ⟨_, List.mem_cons_of_mem _ List.mem_cons_self, ofSection gateway⟩

theorem mem_certFiles_of_mem_sections {certs : Builder.TLSConfig}
    (one : certs ∈ [config.grpc.certs, config.gateway.certs]) (member : path ∈ sectionFiles certs) :
    path ∈ certFiles config := by
  simp only [List.mem_cons, List.not_mem_nil, or_false] at one
  rw [mem_certFiles_iff]
  rcases one with rfl | rfl
  · exact .inl member
  · exact .inr member

theorem Holds.clear_iff {serviceName : GoString} (holds : Holds before made disk) :
    Clear host disk (services.config serviceName) ↔ ¬ ((makers host services before).barred serviceName ∨
        ((makers host services before).looks serviceName ∩ made).Nonempty) := by
  rw [not_or, Set.not_nonempty_iff_eq_empty, Set.eq_empty_iff_forall_notMem]
  simp only [makers, not_not, Clear, Exists, holds.mem_iff, Set.mem_inter_iff, Set.mem_ofPred_eq]
  constructor
  · intro clear
    refine ⟨fun path member => ?_, ?_⟩
    · have here := clear path member
      tauto
    · rintro file ⟨⟨path, member, named, rfl⟩, new⟩
      exact (clear path member).1 ⟨named, .inr new⟩
  · rintro ⟨clear, fresh⟩ path member
    refine ⟨?_, (clear path member).2⟩
    rintro ⟨named, old | new⟩
    · exact (clear path member).1 ⟨named, old⟩
    · exact fresh _ ⟨⟨path, member, named, rfl⟩, new⟩

theorem Holds.wrote (holds : Holds before made disk) (clear : Clear host disk config)
    (wrote : Wrote host (generatedFor host config) disk after) :
    Holds before (made ∪ {file | file ∈ (generatedFor host config).map host.place}) after where
  mem_iff file := by
    rw [wrote.mem_iff, holds.mem_iff, or_assoc]
    rfl
  kept file old := by
    rw [wrote.kept file, holds.kept file old]
    intro new
    obtain ⟨path, member, rfl⟩ := List.mem_map.mp new
    obtain ⟨certs, one, whole, inside⟩ := mem_generatedFor member
    refine (clear path (mem_certFiles_of_mem_sections one inside)).1 ?_
    exact ⟨nonempty_of_complete whole path inside, (holds.mem_iff _).mpr (.inl old)⟩

theorem setupServices_holds (order : List GoString) (holds : Holds before made disk) :
    Holds before ((makers host services before).run order made)
      (setupServices host services order [] disk).2 := by
  induction order generalizing made disk with
  | nil => exact holds
  | cons serviceName rest ih =>
      by_cases clear : Clear host disk (services.config serviceName)
      · have goes := holds.clear_iff.mp clear
        have grown := holds.wrote clear (setupSections_wrote host disk serviceName _)
        by_cases fails : FailsFor host (services.config serviceName)
        · rw [Makers.run_broken goes fails, setupServices_clear rest clear, if_pos fails]
          exact grown
        · rw [Makers.run_goes_on goes fails, setupServices_clear rest clear, if_neg fails]
          exact ih grown
      · rw [Makers.run_stopped (not_not.mp fun goes => clear (holds.clear_iff.mpr goes)),
          setupServices_not_clear rest clear]
        exact holds

end Run

section Due

variable (host : Host) (services : Builder.Services) (before : Disk)

/-- The section configures both certificates, and none of the files of the service existed. -/
def Due (file : GoString) : Prop :=
  ∃ (serviceName : GoString) (config : Builder.API), services[serviceName]? = some config ∧
    (∀ path ∈ certFiles config, ¬ Exists host before path) ∧
    ∃ certs ∈ [config.grpc.certs, config.gateway.certs], complete certs = true ∧
      ∃ path ∈ sectionFiles certs, host.place path = file

def Created (after : Disk) (file : GoString) : Prop := file ∈ after ∧ file ∉ before

/-- Nothing ends the generation before all that is due is there. -/
def Undisturbed : Prop :=
  (∃ file, Due host services before file) →
    (∀ (serviceName : GoString) config, services[serviceName]? = some config → Clear host before config) ∧
    ∀ (serviceName : GoString) config, services[serviceName]? = some config →
      (FailsFor host config ∨
        ∃ (other : GoString) (second : Builder.API), services[other]? = some second ∧ other ≠ serviceName ∧
          ∃ path ∈ certFiles second, path ≠ [] ∧ host.place path ∈ (generatedFor host config).map host.place) →
      ∀ file, Due host services before file → file ∈ (generatedFor host config).map host.place

variable {host services before}

theorem Due.not_mem {file : GoString} (due : Due host services before file) : file ∉ before := by
  obtain ⟨serviceName, config, found, missing, certs, one, whole, path, inside, rfl⟩ := due
  exact fun old => missing path (mem_certFiles_of_mem_sections one inside)
    ⟨nonempty_of_complete whole path inside, old⟩

theorem makes_subset_due : ∀ serviceName ∈ services.keys,
    ¬ (makers host services before).barred serviceName →
      (makers host services before).makes serviceName ⊆ {file | Due host services before file} := by
  intro serviceName member clear file made
  obtain ⟨path, generated, rfl⟩ := List.mem_map.mp made
  obtain ⟨certs, one, whole, inside⟩ := mem_generatedFor generated
  exact ⟨serviceName, _, services.getElem?_of_mem_keys member,
    fun path listed => (not_not.mp clear path listed).1, certs, one, whole, path, inside, rfl⟩

theorem generatedFor_eq_of_not_fails {config : Builder.API} (fine : ¬ FailsFor host config) :
    generatedFor host config = generated host config.grpc.certs ++ generated host config.gateway.certs := by
  rw [generatedFor, if_neg (not_or.mp fine).1]

theorem due_covered (fine : ∀ serviceName ∈ services.keys,
    ¬ (makers host services before).barred serviceName ∧ ¬ (makers host services before).breaks serviceName) :
    ∀ file ∈ {file | Due host services before file},
      ∃ serviceName ∈ services.keys, file ∈ (makers host services before).makes serviceName := by
  rintro file ⟨serviceName, config, found, -, certs, one, whole, path, inside, rfl⟩
  have member := services.mem_keys_of_getElem? found
  have unbroken : ¬ FailsFor host config := by
    have here : ¬ FailsFor host (services.config serviceName) := (fine serviceName member).2
    rwa [services.config_eq found] at here
  refine ⟨serviceName, member, List.mem_map_of_mem ?_⟩
  rw [services.config_eq found, generatedFor_eq_of_not_fails unbroken, List.mem_append]
  simp only [List.mem_cons, List.not_mem_nil, or_false] at one
  rcases one with rfl | rfl
  · exact .inl (generated_eq_of_not_fails whole (not_or.mp unbroken).1 ▸ inside)
  · exact .inr (generated_eq_of_not_fails whole (not_or.mp unbroken).2 ▸ inside)

theorem undisturbed_iff : Undisturbed host services before ↔
    ({file | Due host services before file}.Nonempty →
      (∀ serviceName ∈ services.keys, ¬ (makers host services before).barred serviceName) ∧
        (makers host services before).Decisive services.keys {file | Due host services before file}) := by
  refine imp_congr_right fun _ => ?_
  constructor
  · rintro ⟨clear, all⟩
    have unbarred : ∀ serviceName ∈ services.keys, ¬ (makers host services before).barred serviceName :=
      fun serviceName member => not_not.mpr (clear serviceName _ (services.getElem?_of_mem_keys member))
    refine ⟨unbarred, fun serviceName member ends => Set.Subset.antisymm ?_ ?_⟩
    · exact makes_subset_due serviceName member (unbarred serviceName member)
    · apply all serviceName _ (services.getElem?_of_mem_keys member)
      apply ends.imp_right
      rintro ⟨other, second, apart, file, ⟨path, listed, named, rfl⟩, made⟩
      exact ⟨other, _, services.getElem?_of_mem_keys second, apart, path, listed, named, made⟩
  · rintro ⟨unbarred, decisive⟩
    refine ⟨fun serviceName config found => ?_, fun serviceName config found ends file due => ?_⟩
    · have clear := not_not.mp (unbarred serviceName (services.mem_keys_of_getElem? found))
      rwa [services.config_eq found] at clear
    · have all := decisive serviceName (services.mem_keys_of_getElem? found) ?_
      · have made : file ∈ (generatedFor host (services.config serviceName)).map host.place := all.ge due
        rwa [services.config_eq found] at made
      · simp only [makers, services.config_eq found]
        apply ends.imp_right
        rintro ⟨other, second, foundToo, apart, path, listed, named, made⟩
        have configured := services.mem_keys_of_getElem? foundToo
        refine ⟨other, configured, apart, host.place path, ⟨path, ?_, named, rfl⟩, made⟩
        rwa [services.config_eq foundToo]

/-- Exactly the files that are due are created, in every order of the services, just if nothing
disturbs the generation. In no case is a file that existed overwritten. -/
theorem setupCerts_due_iff (host : Host) (services : Builder.Services) (before : Disk) :
    (∀ order, services.Iterates order → ∀ file ∈ before,
        (setupCerts host services order before).2[file]? = before[file]?) ∧
      ((∀ order, services.Iterates order → ∀ file,
          Created before (setupCerts host services order before).2 file ↔ Due host services before file) ↔
        Undisturbed host services before) := by
  have holds (order : List GoString) : Holds before ((makers host services before).run order ∅)
      (setupCerts host services order before).2 := setupServices_holds order (.start before)
  refine ⟨fun order _ => (holds order).kept, ?_⟩
  rw [undisturbed_iff, ← Makers.run_order_free_iff services.nodup_keys makes_subset_due due_covered]
  refine forall_congr' fun order => forall_congr' fun iterates => ?_
  have within : (makers host services before).run order ∅ ⊆ {file | Due host services before file} :=
    Makers.run_subset (fun serviceName member => makes_subset_due serviceName (iterates.mem_iff.mp member))
      (Set.empty_subset _)
  rw [Set.ext_iff]
  refine forall_congr' fun file => iff_congr ?_ Iff.rfl
  rw [Created, (holds order).mem_iff]
  constructor
  · rintro ⟨old | made, new⟩
    · exact absurd old new
    · exact made
  · exact fun made => ⟨.inr made, (within made).not_mem⟩

def certsHost : Host where
  place path := path
  lookup path := if path = "certs".toList then .directory else .absent
  writes path := if Path.dir path = "certs".toList then none else some "no such file or directory".toList
  inside path missing := by
    have elsewhere : Path.dir path ≠ "certs".toList := fun here => missing (if_pos here)
    rw [if_neg elsewhere]
    rfl

def certConfig (name : GoString) : Builder.API :=
  { grpc := { certs := { cert := "certs/".toList ++ name ++ ".crt".toList,
                         key := "certs/".toList ++ name ++ ".key".toList,
                         ca := "certs/".toList ++ name ++ "-ca.crt".toList } } }

def twoCertified : Builder.Services :=
  .ofList [("model".toList, certConfig "model".toList), ("reader".toList, certConfig "reader".toList)]

def modelCert : Disk := .ofList [("certs/model.crt".toList, Content.bytes [])]

/-- The files of the other service are due, but they are created only if it comes first. -/
theorem twoCertified_by_order :
    twoCertified.Iterates ["model".toList, "reader".toList] ∧
      twoCertified.Iterates ["reader".toList, "model".toList] ∧
      Due certsHost twoCertified modelCert "certs/reader.crt".toList ∧
      ¬ Created modelCert (setupCerts certsHost twoCertified ["model".toList, "reader".toList] modelCert).2
          "certs/reader.crt".toList ∧
      Created modelCert (setupCerts certsHost twoCertified ["reader".toList, "model".toList] modelCert).2
          "certs/reader.crt".toList := by
  refine ⟨?_, ?_, ?_, ?_, ?_⟩
  · exact (show ["model".toList, "reader".toList].Perm _ by decide +kernel)
  · exact (show ["reader".toList, "model".toList].Perm _ by decide +kernel)
  · refine ⟨"reader".toList, certConfig "reader".toList, by decide +kernel, by decide +kernel, ?_⟩
    exact ⟨_, List.mem_cons_self, by decide +kernel, "certs/reader.crt".toList, by decide +kernel, rfl⟩
  · unfold Created
    decide +kernel
  · unfold Created
    decide +kernel

end Due

end Eamerald.Certificates
